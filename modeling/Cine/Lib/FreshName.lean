import Mathlib.Data.List.Nodup
import Mathlib.Data.List.Perm.Subperm
import Mathlib.Data.List.Range

/-!
# Names that are made unique by a number

A wanted name is kept if it is free; else the numbered candidates are tried in
their order.  The loop is given a number of rounds.

* `firstFree_notMem` and `firstFree_cases`: what is found is free, and is the
  wanted name or one of the candidates.
* `exists_firstFree`: with two rounds more than names that are taken, the loop
  ends if the candidates are distinct.
* `assign`: the names of a list of items, one after the other.

Nothing here is about a particular program.
-/

namespace Cine.Lib.FreshName

variable {α β : Type} [DecidableEq α]

/-- The first of `key`, `candidate n`, `candidate (n + 1)`, … that is not taken. -/
def firstFree (candidate : Nat → α) (taken : List α) : Nat → Nat → α → Option α
  | 0, _, _ => none
  | rounds + 1, n, key =>
    if key ∈ taken then firstFree candidate taken rounds (n + 1) (candidate n) else some key

variable {candidate : Nat → α} {taken : List α}

theorem firstFree_notMem {rounds n : Nat} {key found : α}
    (h : firstFree candidate taken rounds n key = some found) : found ∉ taken := by
  fun_induction firstFree candidate taken rounds n key with
  | case1 => cases h
  | case2 n key rounds _ ih => exact ih h
  | case3 n key rounds hfree =>
    cases h
    exact hfree

theorem firstFree_cases {rounds n : Nat} {key found : α}
    (h : firstFree candidate taken rounds n key = some found) :
    found = key ∨ ∃ m, n ≤ m ∧ m < n + rounds ∧ found = candidate m := by
  fun_induction firstFree candidate taken rounds n key with
  | case1 => cases h
  | case2 key n rounds _ ih =>
    right
    cases ih h with
    | inl hfirst => exact ⟨n, Nat.le_refl n, by omega, hfirst⟩
    | inr hlater =>
      obtain ⟨m, hnm, hm, hfound⟩ := hlater
      exact ⟨m, by omega, by omega, hfound⟩
  | case3 n key rounds _ =>
    cases h
    exact Or.inl rfl

theorem firstFree_mono {rounds rounds' n : Nat} {key found : α} (hle : rounds ≤ rounds')
    (h : firstFree candidate taken rounds n key = some found) :
    firstFree candidate taken rounds' n key = some found := by
  induction rounds generalizing rounds' n key with
  | zero => cases h
  | succ rounds ih =>
    cases rounds' with
    | zero => omega
    | succ rounds' =>
      rw [firstFree] at h ⊢
      split_ifs at h ⊢
      · exact ih (by omega) h
      · exact h

theorem mem_of_firstFree_eq_none {rounds n i : Nat} {key : α}
    (h : firstFree candidate taken rounds n key = none) (hi : i + 1 < rounds) :
    candidate (n + i) ∈ taken := by
  induction rounds generalizing n i key with
  | zero => omega
  | succ rounds ih =>
    rw [firstFree] at h
    split_ifs at h
    cases i with
    | zero =>
      cases rounds with
      | zero => omega
      | succ rounds =>
        rw [firstFree] at h
        split_ifs at h with hmem
        exact hmem
    | succ i =>
      have := ih h (i := i) (by omega)
      rwa [Nat.add_right_comm] at this

theorem exists_firstFree (hinj : Function.Injective candidate) {rounds : Nat}
    (hrounds : taken.length + 2 ≤ rounds) (n : Nat) (key : α) :
    ∃ found, firstFree candidate taken rounds n key = some found := by
  by_contra hno
  have hnone : firstFree candidate taken rounds n key = none := by
    apply Option.eq_none_iff_forall_not_mem.2
    exact fun found hfound => hno ⟨found, hfound⟩
  let tried := (List.range (taken.length + 1)).map fun i => candidate (n + i)
  have hnodup : tried.Nodup := by
    apply List.Nodup.map _ List.nodup_range
    intro i j hij
    exact Nat.add_left_cancel (hinj hij)
  have hsub : tried ⊆ taken := by
    intro name hname
    obtain ⟨i, hi, rfl⟩ := List.mem_map.1 hname
    have hi := List.mem_range.1 hi
    exact mem_of_firstFree_eq_none hnone (by omega)
  have hlength := (List.subperm_of_subset hnodup hsub).length_le
  simp only [tried, List.length_map, List.length_range] at hlength
  omega

/-! ## A name for each item -/

/-- The items with their names, given in order; a name that is given is taken. -/
def assign (wanted : β → α) (candidate : β → Nat → α) (rounds : Nat) :
    List α → List β → Option (List (β × α))
  | _, [] => some []
  | taken, item :: items =>
    (firstFree (candidate item) taken rounds 2 (wanted item)).bind fun name =>
      (assign wanted candidate rounds (name :: taken) items).map ((item, name) :: ·)

variable {wanted : β → α} {candidate : β → Nat → α} {rounds : Nat}

theorem exists_assign (hinj : ∀ item, Function.Injective (candidate item)) {items : List β}
    (hrounds : taken.length + items.length + 1 ≤ rounds) :
    ∃ named, ∀ rounds', rounds ≤ rounds' →
      assign wanted candidate rounds' taken items = some named := by
  induction items generalizing taken with
  | nil => exact ⟨[], fun _ _ => rfl⟩
  | cons item items ih =>
    rw [List.length_cons] at hrounds
    have hfirst : taken.length + 2 ≤ rounds := by omega
    obtain ⟨name, hname⟩ := exists_firstFree (hinj item) hfirst 2 (wanted item)
    have hrest : (name :: taken).length + items.length + 1 ≤ rounds := by
      rw [List.length_cons]
      omega
    obtain ⟨named, hnamed⟩ := ih hrest
    refine ⟨(item, name) :: named, fun rounds' hle => ?_⟩
    rw [assign, firstFree_mono hle hname, Option.bind_some, hnamed rounds' hle]
    rfl

/-- Every item is named once; a given name is free, and is the wanted one or numbered. -/
structure Named (wanted : β → α) (candidate : β → Nat → α) (rounds : Nat) (taken : List α)
    (items : List β) (named : List (β × α)) : Prop where
  items_eq : named.map Prod.fst = items
  nodup : (named.map Prod.snd).Nodup
  free : ∀ p ∈ named, p.2 ∉ taken
  shape : ∀ p ∈ named, p.2 = wanted p.1 ∨ ∃ m, m < rounds + 2 ∧ p.2 = candidate p.1 m

theorem assign_spec {items : List β} {named : List (β × α)}
    (h : assign wanted candidate rounds taken items = some named) :
    Named wanted candidate rounds taken items named := by
  induction items generalizing taken named with
  | nil =>
    cases h
    exact ⟨rfl, List.nodup_nil, by simp, by simp⟩
  | cons item items ih =>
    rw [assign, Option.bind_eq_some_iff] at h
    obtain ⟨name, hname, hrest⟩ := h
    obtain ⟨rest, hassign, rfl⟩ := Option.map_eq_some_iff.1 hrest
    have hnamed := ih hassign
    refine ⟨?_, ?_, ?_, ?_⟩
    · rw [List.map_cons, hnamed.items_eq]
    · rw [List.map_cons, List.nodup_cons]
      refine ⟨fun hmem => ?_, hnamed.nodup⟩
      obtain ⟨p, hp, heq⟩ := List.mem_map.1 hmem
      exact hnamed.free p hp (heq ▸ List.mem_cons_self)
    · intro p hp
      cases List.mem_cons.1 hp with
      | inl heq => exact heq ▸ firstFree_notMem hname
      | inr hmem => exact fun htaken => hnamed.free p hmem (List.mem_cons_of_mem _ htaken)
    · intro p hp
      cases List.mem_cons.1 hp with
      | inl heq =>
        subst heq
        cases firstFree_cases hname with
        | inl hwanted => exact Or.inl hwanted
        | inr hnumbered =>
          obtain ⟨m, _, hm, heq⟩ := hnumbered
          exact Or.inr ⟨m, by omega, heq⟩
      | inr hmem => exact hnamed.shape p hmem

end Cine.Lib.FreshName
