import Mathlib.Data.List.Basic
import Mathlib.Data.List.Induction

/-!
# Limits in a sliding window

Events of keys at times; an event is let through unless as many events of its
key as the limit were let through in the window before it.

* `Limiter.judge` lets the events of a list through, one by one.
* `admitted_within`: no more than the limit in a set of times of less than the
  width.
* `refused_iff`: an event is refused when the latest ones that were let through
  fill the window.
* `judge_without_refused` and `judge_of_key`: what does not count.
-/

namespace Cine.Lib

/-- How many events of a key are let through in the width of a window. -/
structure Limiter (α κ : Type) where
  key : α → κ
  time : α → Int
  limit : Nat
  width : Int

namespace Limiter

variable {α κ : Type} [DecidableEq κ] (L : Limiter α κ)

def ofKey (k : κ) (l : List α) : List α :=
  l.filter fun a => L.key a = k

/-- The events of the key of `a` in the window before `a`. -/
def recent (admitted : List α) (a : α) : List α :=
  (L.ofKey (L.key a) admitted).filter fun b => L.time a - L.width < L.time b

def allows (admitted : List α) (a : α) : Bool :=
  (L.recent admitted a).length < L.limit

/-- What is let through once `a` is judged. -/
def next (admitted : List α) (a : α) : List α :=
  if L.allows admitted a then admitted ++ [a] else admitted

/-- The events of a list, each with whether it is let through. -/
def judge : List α → List α → List (α × Bool)
  | _, [] => []
  | admitted, a :: l => (a, L.allows admitted a) :: judge (L.next admitted a) l

def admittedOf (judged : List (α × Bool)) : List α :=
  (judged.filter Prod.snd).map Prod.fst

def Sorted (l : List α) : Prop :=
  l.Pairwise fun a b => L.time a ≤ L.time b

/-! ## Runs -/

variable {L} {admitted l : List α} {a : α}

@[simp] theorem admittedOf_nil : admittedOf ([] : List (α × Bool)) = [] := rfl

/-- What is let through in the end. -/
theorem append_admittedOf_judge (admitted l : List α) :
    admitted ++ admittedOf (L.judge admitted l) = l.foldl L.next admitted := by
  induction l generalizing admitted with
  | nil => simp [judge]
  | cons a l ih =>
    rw [judge, List.foldl_cons, ← ih (L.next admitted a)]
    unfold next
    cases hallows : L.allows admitted a with
    | true => simp [admittedOf]
    | false => simp [admittedOf]

theorem judge_append (admitted l l' : List α) :
    L.judge admitted (l ++ l') =
      L.judge admitted l ++ L.judge (admitted ++ admittedOf (L.judge admitted l)) l' := by
  rw [append_admittedOf_judge]
  induction l generalizing admitted with
  | nil => rfl
  | cons a l ih => rw [List.cons_append, judge, judge, ih, List.foldl_cons, List.cons_append]

@[simp] theorem length_judge (admitted l : List α) : (L.judge admitted l).length = l.length := by
  induction l generalizing admitted with
  | nil => rfl
  | cons a l ih => rw [judge, List.length_cons, List.length_cons, ih]

theorem getElem?_judge (before after : List α) (a : α) :
    (L.judge [] (before ++ a :: after))[before.length]? =
      some (a, L.allows (admittedOf (L.judge [] before)) a) := by
  have hlength : (L.judge [] before).length = before.length := length_judge [] before
  rw [judge_append, List.getElem?_append_right (Nat.le_of_eq hlength), hlength, Nat.sub_self]
  rfl

theorem admittedOf_judge_sublist (admitted l : List α) :
    (admittedOf (L.judge admitted l)).Sublist l := by
  induction l generalizing admitted with
  | nil => exact List.Sublist.slnil
  | cons a l ih =>
    rw [judge]
    unfold admittedOf
    cases L.allows admitted a with
    | true => exact (ih _).cons_cons a
    | false => exact (ih _).cons a

/-! ## What does not count -/

theorem judge_without_refused {before after : List α}
    (h : L.allows (admittedOf (L.judge [] before)) a = false) :
    L.judge [] (before ++ after) =
      (L.judge [] (before ++ a :: after)).eraseIdx before.length := by
  have hlength : (L.judge [] before).length = before.length := length_judge [] before
  have hnext : L.next (admittedOf (L.judge [] before)) a = admittedOf (L.judge [] before) := by
    rw [next, h]
    rfl
  rw [judge_append, judge_append, List.nil_append, ← hlength,
    List.eraseIdx_append_of_length_le (Nat.le_refl _), Nat.sub_self, judge, hnext]
  rfl

theorem recent_ofKey (admitted : List α) (a : α) :
    L.recent (L.ofKey (L.key a) admitted) a = L.recent admitted a := by
  simp [recent, ofKey]

theorem allows_ofKey (admitted : List α) (a : α) :
    L.allows (L.ofKey (L.key a) admitted) a = L.allows admitted a := by
  rw [allows, recent_ofKey]
  rfl

theorem ofKey_next (k : κ) (admitted : List α) (a : α) :
    L.ofKey k (L.next admitted a) =
      if L.key a = k then L.next (L.ofKey k admitted) a else L.ofKey k admitted := by
  by_cases hkey : L.key a = k
  · subst hkey
    rw [if_pos rfl, next, next, allows_ofKey]
    split_ifs with hallows
    · simp [ofKey]
    · rfl
  · rw [if_neg hkey, next]
    split_ifs with hallows
    · simp [ofKey, hkey]
    · rfl

theorem judge_of_key (k : κ) (admitted l : List α) :
    ((L.judge admitted l).filter fun p => L.key p.1 = k) =
      L.judge (L.ofKey k admitted) (L.ofKey k l) := by
  induction l generalizing admitted with
  | nil => rfl
  | cons a l ih =>
    rw [judge, List.filter_cons, ih, ofKey_next]
    by_cases hkey : L.key a = k
    · have hcons : L.ofKey k (a :: l) = a :: L.ofKey k l := by simp [ofKey, hkey]
      rw [if_pos (decide_eq_true hkey), if_pos hkey, hcons, judge, ← hkey, allows_ofKey]
    · have hskip : L.ofKey k (a :: l) = L.ofKey k l := by simp [ofKey, hkey]
      rw [if_neg (by simpa using hkey), if_neg hkey, hskip]

/-! ## The window -/

theorem admitted_within (within : Int → Bool)
    (hwithin : ∀ s t, within s = true → within t = true → t - s < L.width) (k : κ) (l : List α) :
    ((L.ofKey k (admittedOf (L.judge [] l))).filter fun a => within (L.time a)).length ≤
      L.limit := by
  have hfold := @append_admittedOf_judge _ _ _ L [] l
  rw [List.nil_append] at hfold
  rw [hfold]
  clear hfold
  induction l using List.reverseRecOn with
  | nil => exact Nat.zero_le _
  | append_singleton l a ih =>
    rw [List.foldl_append, List.foldl_cons, List.foldl_nil, ofKey_next]
    split_ifs with hkey
    · subst hkey
      rw [next, allows_ofKey]
      split_ifs with hallows
      · rw [List.filter_append, List.length_append]
        cases ha : within (L.time a) with
        | false => simpa [ha] using ih
        | true =>
          have hroom : (L.recent (l.foldl L.next []) a).length < L.limit := of_decide_eq_true hallows
          have hsub : ((L.ofKey (L.key a) (l.foldl L.next [])).filter fun b =>
              within (L.time b)).length ≤ (L.recent (l.foldl L.next []) a).length := by
            apply List.Sublist.length_le
            apply List.monotone_filter_right
            intro b hb
            have := hwithin _ _ hb ha
            exact decide_eq_true (by omega)
          simp only [ha, List.filter_cons_of_pos, List.filter_nil, List.length_singleton]
          omega
      · exact ih
    · exact ih

theorem le_length_filter_iff {p : α → Bool} {l : List α} {n : Nat}
    (hmono : l.Pairwise fun x y => p x = true → p y = true) :
    n ≤ (l.filter p).length ↔ n ≤ l.length ∧ ∀ x ∈ l.drop (l.length - n), p x = true := by
  constructor
  · intro hn
    have hle : n ≤ l.length := Nat.le_trans hn (List.length_filter_le _ _)
    refine ⟨hle, fun x hx => ?_⟩
    by_contra hfalse
    obtain ⟨s, t, hsplit⟩ := List.append_of_mem hx
    have hl : l = (l.take (l.length - n) ++ s) ++ x :: t := by
      rw [List.append_assoc, ← hsplit, List.take_append_drop]
    rw [hl, List.pairwise_append] at hmono
    -- what stands before `x` fails `p` as `x` does
    have hnone : (l.take (l.length - n) ++ s).filter p = [] := by
      rw [List.filter_eq_nil_iff]
      intro y hy hpy
      exact hfalse (hmono.2.2 y hy x List.mem_cons_self hpy)
    have hfilter : l.filter p = t.filter p := by
      rw [hl, List.filter_append, hnone, List.filter_cons_of_neg hfalse, List.nil_append]
    have ht : (l.drop (l.length - n)).length = s.length + (t.length + 1) := by
      rw [hsplit, List.length_append, List.length_cons]
    rw [List.length_drop] at ht
    rw [hfilter] at hn
    have := List.length_filter_le p t
    omega
  · rintro ⟨hle, hall⟩
    have hsplit := List.take_append_drop (l.length - n) l
    have hlast : (l.drop (l.length - n)).filter p = l.drop (l.length - n) :=
      List.filter_eq_self.2 hall
    rw [← hsplit, List.filter_append, List.length_append, hlast, List.length_drop]
    omega

theorem refused_iff {admitted : List α} {a : α} (hsorted : L.Sorted admitted) :
    L.allows admitted a = false ↔
      L.limit ≤ (L.ofKey (L.key a) admitted).length ∧
        ∀ b ∈ (L.ofKey (L.key a) admitted).drop
          ((L.ofKey (L.key a) admitted).length - L.limit), L.time a - L.width < L.time b := by
  have hmono : (L.ofKey (L.key a) admitted).Pairwise fun x y =>
      decide (L.time a - L.width < L.time x) = true →
        decide (L.time a - L.width < L.time y) = true := by
    apply (List.Pairwise.filter _ hsorted).imp
    intro x y hxy hx
    have := of_decide_eq_true hx
    exact decide_eq_true (by omega)
  rw [allows, decide_eq_false_iff_not, Nat.not_lt, recent, le_length_filter_iff hmono]
  simp only [decide_eq_true_eq]

end Limiter

end Cine.Lib
