import Cine.Lib.Words
import Mathlib.Data.List.DropRight

/-!
# Squeezed texts and their source map

A text is compared after a squeeze: some of its letters are dropped, the
others are folded to tokens, every run of spaces becomes one gap, and there
is no space at the ends.  `entries` does this letter by letter and keeps, for
every token that is written, the index of the letter it comes from; a gap has
the index of the letter behind it.

* `trim_collapse`: the squeeze is what one gets by folding the whole text,
  collapsing the runs and trimming.
* `entries_append` and `squeeze_part`: a part of a text is squeezed to a part
  of the squeezed text.
* `entries_pairwise`: the indices go up, strictly behind a letter.
* `infix_collapse` and `infix_spaces`: a word is found whatever the spaces
  around it are.
* `squeeze_slice`: between the indices of two letters the text is squeezed to
  what stands between the two in the squeezed text.

Nothing here is about a particular program.
-/

namespace Cine.Lib.Squeeze

variable {α β : Type*}

/-! ## The squeeze -/

/-- Where the reader stands: nothing is written yet, or behind a letter, or
behind a run of spaces. -/
inductive Place
  | start
  | inside
  | due
deriving DecidableEq, Repr

/-- The place behind a space. -/
def Place.space : Place → Place
  | .start => .start
  | .inside => .due
  | .due => .due

/-- The gap that is written before a letter. -/
def Place.gapAt (gap : β) (i : Nat) : Place → List (β × Nat)
  | .due => [(gap, i)]
  | _ => []

variable (token : α → Option β) (isSpace : β → Bool) (gap : β)

/-- The tokens that are written, each with the index of its letter. -/
def entries : Place → Nat → List α → List (β × Nat)
  | _, _, [] => []
  | place, i, a :: l =>
    match token a with
    | none => entries place (i + 1) l
    | some b =>
      if isSpace b then entries place.space (i + 1) l
      else place.gapAt gap i ++ (b, i) :: entries .inside (i + 1) l

/-- The place behind a text. -/
def placeAfter : Place → List α → Place
  | place, [] => place
  | place, a :: l =>
    match token a with
    | none => placeAfter place l
    | some b => placeAfter (if isSpace b then place.space else .inside) l

/-- The squeezed text. -/
def squeeze (l : List α) : List β :=
  (entries token isSpace gap .start 0 l).map Prod.fst

/-! ## The same in passes over the whole text -/

/-- Every run of spaces as one gap; `inRun` says that one is open. -/
def collapse : Bool → List β → List β
  | _, [] => []
  | inRun, b :: l =>
    if isSpace b then if inRun then collapse true l else gap :: collapse true l
    else b :: collapse false l

/-- Without the spaces at the ends. -/
def trimEnds (l : List β) : List β :=
  (l.dropWhile isSpace).rdropWhile isSpace

variable {token isSpace gap}

theorem mem_collapse {p : α → Bool} {mark : α} {inRun : Bool} {l : List α} {a : α}
    (h : a ∈ collapse p mark inRun l) : a = mark ∨ a ∈ l ∧ p a = false := by
  induction l generalizing inRun with
  | nil => cases h
  | cons b l ih =>
    have hrest : ∀ inRun', a ∈ collapse p mark inRun' l →
        a = mark ∨ a ∈ b :: l ∧ p a = false := by
      intro inRun' hmem
      cases ih hmem with
      | inl hgap => exact Or.inl hgap
      | inr hl => exact Or.inr ⟨List.mem_cons_of_mem _ hl.1, hl.2⟩
    rw [collapse] at h
    split_ifs at h with hb hrun
    · exact hrest true h
    · cases List.mem_cons.1 h with
      | inl hgap => exact Or.inl hgap
      | inr hmem => exact hrest true hmem
    · cases List.mem_cons.1 h with
      | inl heq => exact Or.inr ⟨heq ▸ List.mem_cons_self, heq ▸ Bool.eq_false_iff.2 hb⟩
      | inr hmem => exact hrest false hmem

theorem mem_of_mem_trimEnds {p : α → Bool} {l : List α} {a : α}
    (h : a ∈ trimEnds p l) : a ∈ l :=
  (List.dropWhile_suffix p).subset ((List.rdropWhile_prefix p _).subset h)

theorem head_collapse_true {p : α → Bool} {mark : α} (l : List α) :
    ∀ a ∈ (collapse p mark true l).head?, p a = false := by
  induction l with
  | nil => simp [collapse]
  | cons b l ih =>
    rw [collapse]
    by_cases hb : p b = true
    · rw [if_pos hb, if_pos rfl]
      exact ih
    · rw [if_neg hb]
      intro a ha
      cases ha
      exact Bool.eq_false_iff.2 hb

/-- No two spaces are left beside each other. -/
theorem isChain_collapse {p : α → Bool} {mark : α} (inRun : Bool) (l : List α) :
    (collapse p mark inRun l).IsChain fun a b => ¬ (p a = true ∧ p b = true) := by
  induction l generalizing inRun with
  | nil => exact List.IsChain.nil
  | cons b l ih =>
    rw [collapse]
    split_ifs with hb hrun
    · exact ih true
    · apply List.isChain_cons.2
      refine ⟨fun a ha hpair => ?_, ih true⟩
      rw [head_collapse_true l a ha] at hpair
      exact Bool.false_ne_true hpair.2
    · exact List.isChain_cons.2 ⟨fun a _ hpair => hb hpair.1, ih false⟩

theorem nil_notMem_words {p : α → Bool} {mark : α} {l : List α}
    (h : trimEnds p (collapse p mark false l) ≠ []) :
    [] ∉ (trimEnds p (collapse p mark false l)).splitOnP p := by
  unfold trimEnds at h ⊢
  obtain ⟨spaces, hspaces⟩ := List.rdropWhile_prefix p ((collapse p mark false l).dropWhile p)
  have hchain := (@isChain_collapse _ p mark false l).suffix (List.dropWhile_suffix p)
  rw [← hspaces] at hchain
  refine (Words.nil_notMem_splitOnP hchain.left_of_append ?_).2 h ?_
  · intro a ha
    rw [List.getLast?_eq_some_getLast h] at ha
    have hlast := List.rdropWhile_last_not p _ h
    rw [Option.some.inj ha] at hlast
    exact Bool.eq_false_iff.2 hlast
  · intro a ha
    have hnot := List.head?_dropWhile_not p (collapse p mark false l)
    rw [← hspaces, List.head?_append, ha] at hnot
    exact hnot

theorem rdropWhile_append_letter (m : List β) {b : β} (hb : isSpace b = false) (l : List β) :
    (m ++ b :: l).rdropWhile isSpace = m ++ b :: l.rdropWhile isSpace := by
  induction l using List.reverseRecOn with
  | nil => rw [List.rdropWhile_concat_neg _ _ _ (by simp [hb]), List.rdropWhile_nil]
  | append_singleton l c ih =>
    rw [← List.cons_append, ← List.append_assoc]
    by_cases hc : isSpace c = true
    · rw [List.rdropWhile_concat_pos _ _ _ hc, List.rdropWhile_concat_pos _ _ _ hc, ih]
    · rw [List.rdropWhile_concat_neg _ _ _ hc, List.rdropWhile_concat_neg _ _ _ hc,
        List.append_assoc, List.cons_append]

/-- The passes agree with the reader, from each of its places. -/
theorem rdropWhile_collapse (hgap : isSpace gap = true) (l : List α) (i : Nat) :
    (∀ inRun, ((collapse isSpace gap inRun (l.filterMap token)).dropWhile isSpace).rdropWhile
        isSpace = (entries token isSpace gap .start i l).map Prod.fst) ∧
      (collapse isSpace gap false (l.filterMap token)).rdropWhile isSpace =
        (entries token isSpace gap .inside i l).map Prod.fst ∧
      (gap :: collapse isSpace gap true (l.filterMap token)).rdropWhile isSpace =
        (entries token isSpace gap .due i l).map Prod.fst := by
  induction l generalizing i with
  | nil =>
    refine ⟨fun _ => by simp [collapse, entries], by simp [collapse, entries], ?_⟩
    simp [collapse, entries, List.rdropWhile_singleton, hgap]
  | cons a l ih =>
    obtain ⟨hstart, hinside, hdue⟩ := ih (i + 1)
    cases ha : token a with
    | none =>
      simp only [List.filterMap_cons_none ha, entries, ha]
      exact ⟨hstart, hinside, hdue⟩
    | some b =>
      simp only [List.filterMap_cons_some ha, entries, ha, collapse]
      by_cases hb : isSpace b = true
      · simp only [hb, if_true, Place.space, Bool.false_eq_true, if_false]
        refine ⟨fun inRun => ?_, hdue, hdue⟩
        cases inRun with
        | true => exact hstart true
        | false =>
          rw [if_neg (by decide), List.dropWhile_cons_of_pos hgap]
          exact hstart true
      · have hletter : isSpace b = false := Bool.eq_false_iff.2 hb
        simp only [hletter, Bool.false_eq_true, if_false, Place.gapAt, List.nil_append,
          List.map_cons, List.singleton_append]
        refine ⟨fun _ => ?_, ?_, ?_⟩
        · rw [List.dropWhile_cons_of_neg hb, ← hinside]
          exact rdropWhile_append_letter [] hletter _
        · rw [← hinside]
          exact rdropWhile_append_letter [] hletter _
        · rw [← hinside]
          exact rdropWhile_append_letter [gap] hletter _

/-- Folding, collapsing and trimming a text squeezes it. -/
theorem trim_collapse (hgap : isSpace gap = true) (l : List α) :
    trimEnds isSpace (collapse isSpace gap false (l.filterMap token)) =
      squeeze token isSpace gap l :=
  (rdropWhile_collapse hgap l 0).1 false

/-- A squeezed text begins with a letter. -/
theorem squeeze_head {l : List α} {b : β}
    (h : (squeeze token isSpace gap l).head? = some b) : isSpace b = false := by
  unfold squeeze at h
  generalize 0 = i at h
  induction l generalizing i with
  | nil => cases h
  | cons a l ih =>
    simp only [entries] at h
    cases ha : token a with
    | none =>
      rw [ha] at h
      exact ih _ h
    | some c =>
      rw [ha] at h
      by_cases hc : isSpace c = true
      · simp only [hc, if_true] at h
        exact ih _ h
      · simp only [hc, Bool.false_eq_true, if_false, Place.gapAt, List.nil_append, List.map_cons,
          List.head?_cons, Option.some.injEq] at h
        rw [← h]
        exact Bool.eq_false_iff.2 hc

/-- It ends with a letter. -/
theorem squeeze_last (hgap : isSpace gap = true) {l : List α} {b : β}
    (h : (squeeze token isSpace gap l).getLast? = some b) : isSpace b = false := by
  rw [← trim_collapse hgap, trimEnds] at h
  have hne : ((collapse isSpace gap false (l.filterMap token)).dropWhile isSpace).rdropWhile
      isSpace ≠ [] := by
    intro hnil
    rw [hnil] at h
    cases h
  rw [List.getLast?_eq_some_getLast hne, Option.some.injEq] at h
  rw [← h]
  exact Bool.eq_false_iff.2 (List.rdropWhile_last_not _ _ hne)

/-- Of spaces alone nothing is left. -/
theorem squeeze_of_blank {l : List α} (h : ∀ a ∈ l, ∀ b, token a = some b → isSpace b = true) :
    squeeze token isSpace gap l = [] := by
  unfold squeeze
  generalize 0 = i
  induction l generalizing i with
  | nil => rfl
  | cons a l ih =>
    have hl := fun a' ha' => h a' (List.mem_cons_of_mem a ha')
    simp only [entries]
    cases ha : token a with
    | none => exact ih hl _
    | some b =>
      simp only [h a List.mem_cons_self b ha, if_true]
      exact ih hl _

theorem trimEnds_eq_nil {l : List β} : trimEnds isSpace l = [] ↔ ∀ b ∈ l, isSpace b = true := by
  unfold trimEnds
  rw [List.rdropWhile_eq_nil_iff]
  induction l with
  | nil => simp
  | cons b l ih =>
    by_cases hb : isSpace b = true
    · rw [List.dropWhile_cons_of_pos hb, ih]
      simp [hb]
    · rw [List.dropWhile_cons_of_neg hb]

/-! ## Parts of a text -/

theorem entries_append (place : Place) (i : Nat) (l m : List α) :
    entries token isSpace gap place i (l ++ m) =
      entries token isSpace gap place i l ++
        entries token isSpace gap (placeAfter token isSpace place l) (i + l.length) m := by
  induction l generalizing place i with
  | nil => rfl
  | cons a l ih =>
    have hindex : i + (a :: l).length = i + 1 + l.length := by
      rw [List.length_cons]
      omega
    simp only [List.cons_append, entries, placeAfter, hindex]
    cases token a with
    | none => exact ih place (i + 1)
    | some b =>
      by_cases hb : isSpace b = true
      · simp only [hb, if_true]
        exact ih place.space (i + 1)
      · simp only [hb, Bool.false_eq_true, if_false, List.append_assoc, List.cons_append]
        rw [ih .inside (i + 1)]

/-- Reading from another index moves the indices only. -/
theorem entries_shift (place : Place) (i k : Nat) (l : List α) :
    entries token isSpace gap place (i + k) l =
      (entries token isSpace gap place i l).map fun e => (e.1, e.2 + k) := by
  induction l generalizing place i with
  | nil => rfl
  | cons a l ih =>
    have hindex : i + k + 1 = i + 1 + k := by omega
    simp only [entries, hindex]
    cases token a with
    | none => exact ih place (i + 1)
    | some b =>
      by_cases hb : isSpace b = true
      · simp only [hb, if_true]
        exact ih place.space (i + 1)
      · simp only [hb, Bool.false_eq_true, if_false, List.map_append, List.map_cons]
        rw [ih .inside (i + 1)]
        cases place <;> rfl

/-- The squeezed text does not depend on the index. -/
theorem map_fst_entries (i : Nat) (l : List α) :
    (entries token isSpace gap .start i l).map Prod.fst = squeeze token isSpace gap l := by
  have h : entries token isSpace gap .start (0 + i) l =
      (entries token isSpace gap .start 0 l).map fun e => (e.1, e.2 + i) :=
    entries_shift .start 0 i l
  rw [Nat.zero_add] at h
  rw [h, List.map_map]
  rfl

/-- Behind other text at most a gap is added in front. -/
theorem start_suffix (place : Place) (i : Nat) (l : List α) :
    entries token isSpace gap .start i l <:+ entries token isSpace gap place i l := by
  induction l generalizing place i with
  | nil => exact List.suffix_refl _
  | cons a l ih =>
    simp only [entries]
    cases token a with
    | none => exact ih place (i + 1)
    | some b =>
      by_cases hb : isSpace b = true
      · simp only [hb, if_true]
        exact ih place.space (i + 1)
      · simp only [hb, Bool.false_eq_true, if_false]
        exact List.suffix_append _ _

theorem squeeze_part {m l : List α} (h : m <:+: l) :
    squeeze token isSpace gap m <:+: squeeze token isSpace gap l := by
  obtain ⟨pre, post, rfl⟩ := h
  rw [← map_fst_entries (0 + pre.length) m]
  unfold squeeze
  rw [List.append_assoc, entries_append, entries_append, List.map_append, List.map_append]
  refine List.IsInfix.trans ?_ (List.infix_append' _ _ _)
  exact (start_suffix _ _ m).isInfix.map Prod.fst

/-! ## The source map -/

theorem eq_gap_or_letter {place : Place} {i : Nat} {l : List α} {e : β × Nat}
    (he : e ∈ entries token isSpace gap place i l) : e.1 = gap ∨ isSpace e.1 = false := by
  induction l generalizing place i with
  | nil => cases he
  | cons a l ih =>
    simp only [entries] at he
    cases ha : token a with
    | none =>
      rw [ha] at he
      exact ih he
    | some b =>
      rw [ha] at he
      by_cases hb : isSpace b = true
      · simp only [hb, if_true] at he
        exact ih he
      · simp only [hb, Bool.false_eq_true, if_false, List.mem_append, List.mem_cons] at he
        rcases he with hgap | rfl | he
        · cases place <;> simp [Place.gapAt] at hgap
          exact .inl (by rw [hgap])
        · exact .inr (Bool.eq_false_iff.2 hb)
        · exact ih he

/-- The indices are those of the text. -/
theorem index_bounds {place : Place} {i : Nat} {l : List α} {e : β × Nat}
    (he : e ∈ entries token isSpace gap place i l) : i ≤ e.2 ∧ e.2 < i + l.length := by
  induction l generalizing place i with
  | nil => cases he
  | cons a l ih =>
    rw [List.length_cons]
    have hrest : ∀ {place'}, e ∈ entries token isSpace gap place' (i + 1) l →
        i ≤ e.2 ∧ e.2 < i + (l.length + 1) := by
      intro place' h
      have := ih h
      omega
    simp only [entries] at he
    cases ha : token a with
    | none =>
      rw [ha] at he
      exact hrest he
    | some b =>
      rw [ha] at he
      by_cases hb : isSpace b = true
      · simp only [hb, if_true] at he
        exact hrest he
      · simp only [hb, Bool.false_eq_true, if_false, List.mem_append, List.mem_cons] at he
        rcases he with hgap | rfl | he
        · cases place <;> simp [Place.gapAt] at hgap
          rw [hgap]
          dsimp only
          omega
        · dsimp only
          omega
        · exact hrest he

/-- The indices go up, and strictly behind a letter. -/
theorem entries_pairwise (hgap : isSpace gap = true) (place : Place) (i : Nat) (l : List α) :
    (entries token isSpace gap place i l).Pairwise fun e e' =>
      e.2 ≤ e'.2 ∧ (isSpace e.1 = false → e.2 < e'.2) := by
  induction l generalizing place i with
  | nil => exact List.Pairwise.nil
  | cons a l ih =>
    simp only [entries]
    cases token a with
    | none => exact ih place (i + 1)
    | some b =>
      by_cases hb : isSpace b = true
      · simp only [hb, if_true]
        exact ih place.space (i + 1)
      · simp only [hb, Bool.false_eq_true, if_false]
        have hletter : ((b, i) :: entries token isSpace gap .inside (i + 1) l).Pairwise
            fun e e' => e.2 ≤ e'.2 ∧ (isSpace e.1 = false → e.2 < e'.2) := by
          refine List.pairwise_cons.2 ⟨fun e' he' => ?_, ih .inside (i + 1)⟩
          have := index_bounds he'
          dsimp only
          omega
        cases place with
        | start => exact hletter
        | inside => exact hletter
        | due =>
          refine List.pairwise_cons.2 ⟨fun e' he' => ?_, hletter⟩
          have hle : i ≤ e'.2 := by
            rcases List.mem_cons.1 he' with rfl | he'
            · exact le_rfl
            · have := index_bounds he'
              omega
          refine ⟨hle, fun h => ?_⟩
          rw [hgap] at h
          cases h

/-! ## Slices -/

/-- From the letter of an entry on, a fresh reader writes what follows. -/
theorem entries_from (hgap : isSpace gap = true) {place : Place} {i k : Nat} {l : List α} {b : β}
    {before behind : List (β × Nat)}
    (h : entries token isSpace gap place i l = before ++ (b, k) :: behind)
    (hb : isSpace b = false) :
    ∃ pre post, l = pre ++ post ∧ k = i + pre.length ∧
      entries token isSpace gap .start k post = (b, k) :: behind := by
  induction l generalizing place i before with
  | nil => simp [entries] at h
  | cons a l ih =>
    have hrest : ∀ {place' before'},
        entries token isSpace gap place' (i + 1) l = before' ++ (b, k) :: behind →
        ∃ pre post, a :: l = pre ++ post ∧ k = i + pre.length ∧
          entries token isSpace gap .start k post = (b, k) :: behind := by
      intro place' before' h'
      obtain ⟨pre, post, rfl, hk, hpost⟩ := ih h'
      refine ⟨a :: pre, post, rfl, ?_, hpost⟩
      rw [hk, List.length_cons]
      omega
    simp only [entries] at h
    cases ha : token a with
    | none =>
      rw [ha] at h
      exact hrest h
    | some c =>
      rw [ha] at h
      by_cases hc : isSpace c = true
      · simp only [hc, if_true] at h
        exact hrest h
      · simp only [hc, Bool.false_eq_true, if_false] at h
        have hletter : ∀ {before'},
            (c, i) :: entries token isSpace gap .inside (i + 1) l =
              before' ++ (b, k) :: behind →
            ∃ pre post, a :: l = pre ++ post ∧ k = i + pre.length ∧
              entries token isSpace gap .start k post = (b, k) :: behind := by
          intro before' h'
          cases before' with
          | nil =>
            obtain ⟨hhead, htail⟩ := List.cons.inj h'
            obtain ⟨rfl, rfl⟩ := Prod.mk.inj hhead
            refine ⟨[], a :: l, rfl, rfl, ?_⟩
            simp only [entries, ha, hc, Bool.false_eq_true, if_false, Place.gapAt,
              List.nil_append, htail]
          | cons e before' => exact hrest (List.cons.inj h').2
        cases place with
        | start => exact hletter h
        | inside => exact hletter h
        | due =>
          cases before with
          | nil =>
            -- the entry at the front is the gap, not the letter
            obtain ⟨rfl, _⟩ := Prod.mk.inj (List.cons.inj h).1
            rw [hgap] at hb
            cases hb
          | cons e before => exact hletter (List.cons.inj h).2

/-- Up to the letter of an entry, the reader writes what goes before. -/
theorem entries_upto (hgap : isSpace gap = true) {place : Place} {i k : Nat} {l : List α} {b : β}
    {before behind : List (β × Nat)}
    (h : entries token isSpace gap place i l = before ++ (b, k) :: behind)
    (hb : isSpace b = false) :
    ∃ pre post, l = pre ++ post ∧ k + 1 = i + pre.length ∧
      entries token isSpace gap place i pre = before ++ [(b, k)] := by
  induction l generalizing place i before with
  | nil => simp [entries] at h
  | cons a l ih =>
    simp only [entries] at h
    cases ha : token a with
    | none =>
      rw [ha] at h
      obtain ⟨pre, post, rfl, hk, hpre⟩ := ih h
      refine ⟨a :: pre, post, rfl, by rw [hk, List.length_cons]; omega, ?_⟩
      simp only [entries, ha, hpre]
    | some c =>
      rw [ha] at h
      by_cases hc : isSpace c = true
      · simp only [hc, if_true] at h
        obtain ⟨pre, post, rfl, hk, hpre⟩ := ih h
        refine ⟨a :: pre, post, rfl, by rw [hk, List.length_cons]; omega, ?_⟩
        simp only [entries, ha, hc, if_true, hpre]
      · simp only [hc, Bool.false_eq_true, if_false] at h
        have hletter : ∀ {before'},
            (c, i) :: entries token isSpace gap .inside (i + 1) l =
              before' ++ (b, k) :: behind →
            ∃ pre post, a :: l = a :: (pre ++ post) ∧ k + 1 = i + (a :: pre).length ∧
              (c, i) :: entries token isSpace gap .inside (i + 1) pre = before' ++ [(b, k)] := by
          intro before' h'
          cases before' with
          | nil =>
            obtain ⟨hhead, _⟩ := List.cons.inj h'
            obtain ⟨rfl, rfl⟩ := Prod.mk.inj hhead
            exact ⟨[], l, rfl, rfl, rfl⟩
          | cons e before' =>
            obtain ⟨hhead, htail⟩ := List.cons.inj h'
            obtain ⟨pre, post, rfl, hk, hpre⟩ := ih htail
            refine ⟨pre, post, rfl, by rw [hk, List.length_cons]; omega, ?_⟩
            rw [hpre, hhead, List.cons_append]
        have hassemble : ∀ {pre before' : _},
            (c, i) :: entries token isSpace gap .inside (i + 1) pre = before' ++ [(b, k)] →
            entries token isSpace gap place i (a :: pre) =
              place.gapAt gap i ++ (before' ++ [(b, k)]) := by
          intro pre before' hpre
          simp only [entries, ha, hc, Bool.false_eq_true, if_false, hpre]
        cases place with
        | start =>
          obtain ⟨pre, post, hl, hk, hpre⟩ := hletter h
          exact ⟨a :: pre, post, hl, hk, hassemble hpre⟩
        | inside =>
          obtain ⟨pre, post, hl, hk, hpre⟩ := hletter h
          exact ⟨a :: pre, post, hl, hk, hassemble hpre⟩
        | due =>
          cases before with
          | nil =>
            obtain ⟨rfl, _⟩ := Prod.mk.inj (List.cons.inj h).1
            rw [hgap] at hb
            cases hb
          | cons e before =>
            obtain ⟨hhead, htail⟩ := List.cons.inj h
            obtain ⟨pre, post, hl, hk, hpre⟩ := hletter htail
            refine ⟨a :: pre, post, hl, hk, ?_⟩
            rw [hassemble hpre, ← hhead]
            rfl

/-- Between the indices of two letters the text is squeezed to what stands
between the two in the squeezed text. -/
theorem squeeze_slice (hgap : isSpace gap = true) {l : List α} {i j : Nat} {b c : β}
    {before part behind : List (β × Nat)}
    (h : entries token isSpace gap .start 0 l = before ++ part ++ behind)
    (hhead : part.head? = some (b, i)) (hlast : part.getLast? = some (c, j))
    (hb : isSpace b = false) (hc : isSpace c = false) :
    squeeze token isSpace gap ((l.drop i).take (j + 1 - i)) = part.map Prod.fst := by
  obtain ⟨tail, rfl⟩ := List.head?_eq_some_iff.1 hhead
  obtain ⟨front, hfront⟩ := List.getLast?_eq_some_iff.1 hlast
  rw [List.append_assoc, List.cons_append] at h
  obtain ⟨pre, post, rfl, hi, hpost⟩ := entries_from hgap h hb
  rw [← List.cons_append, hfront, List.append_assoc, List.singleton_append] at hpost
  obtain ⟨slice, rest, rfl, hj, hslice⟩ := entries_upto hgap hpost hc
  have hdrop : ((pre ++ (slice ++ rest)).drop i).take (j + 1 - i) = slice := by
    rw [hi, Nat.zero_add, List.drop_left]
    exact List.take_left' (by omega)
  rw [hdrop, ← map_fst_entries i, hslice, hfront]

/-! ## Words in a text -/

section Words

variable {word l : List β}

theorem not_prefix_space (hne : word ≠ []) (hword : ∀ b ∈ word, isSpace b = false) {a : β}
    (ha : isSpace a = true) : ¬ word <+: a :: l := by
  cases word with
  | nil => exact absurd rfl hne
  | cons b word =>
    intro h
    have hb := hword b List.mem_cons_self
    rw [(List.cons_prefix_cons.1 h).1, ha] at hb
    cases hb

theorem prefix_collapse (hgap : isSpace gap = true) (hword : ∀ b ∈ word, isSpace b = false) :
    word <+: collapse isSpace gap false l ↔ word <+: l := by
  induction l generalizing word with
  | nil => rfl
  | cons a l ih =>
    by_cases hne : word = []
    · rw [hne]
      exact iff_of_true List.nil_prefix List.nil_prefix
    rw [collapse, if_neg Bool.false_ne_true]
    by_cases ha : isSpace a = true
    · rw [if_pos ha]
      exact iff_of_false (not_prefix_space hne hword hgap) (not_prefix_space hne hword ha)
    · cases word with
      | nil => exact absurd rfl hne
      | cons b word =>
        rw [if_neg ha, List.cons_prefix_cons, List.cons_prefix_cons,
          ih fun b hb => hword b (List.mem_cons_of_mem _ hb)]

/-- A word is found in the collapsed text exactly where it is found in the text. -/
theorem infix_collapse (hgap : isSpace gap = true) (hne : word ≠ [])
    (hword : ∀ b ∈ word, isSpace b = false) (inRun : Bool) :
    word <:+: collapse isSpace gap inRun l ↔ word <:+: l := by
  induction l generalizing inRun with
  | nil => rfl
  | cons a l ih =>
    have hcons : word <:+: a :: l ↔ word <+: a :: l ∨ word <:+: l := List.infix_cons_iff
    by_cases ha : isSpace a = true
    · rw [collapse, if_pos ha, hcons,
        or_iff_right (not_prefix_space hne hword ha)]
      cases inRun with
      | true => exact ih true
      | false =>
        rw [if_neg Bool.false_ne_true, List.infix_cons_iff,
          or_iff_right (not_prefix_space hne hword hgap)]
        exact ih true
    · have hfront : collapse isSpace gap inRun (a :: l) = collapse isSpace gap false (a :: l) := by
        rw [collapse, collapse, if_neg ha, if_neg ha]
      rw [hfront, hcons, ← prefix_collapse hgap hword, collapse, if_neg ha,
        List.infix_cons_iff, ih false]

theorem infix_append_cons (hne : word ≠ []) (hword : ∀ b ∈ word, isSpace b = false) {a : β}
    (ha : isSpace a = true) (before behind : List β) :
    word <:+: before ++ a :: behind ↔ word <:+: before ∨ word <:+: behind := by
  have hprefix : ∀ {word : List β}, (∀ b ∈ word, isSpace b = false) → ∀ before : List β,
      word <+: before ++ a :: behind ↔ word <+: before := by
    intro word hword before
    induction before generalizing word with
    | nil =>
      rw [List.nil_append, List.prefix_nil]
      constructor
      · intro h
        by_contra hne
        exact not_prefix_space hne hword ha h
      · intro h
        rw [h]
        exact List.nil_prefix
    | cons b before ih =>
      cases word with
      | nil => exact iff_of_true List.nil_prefix List.nil_prefix
      | cons c word =>
        rw [List.cons_append, List.cons_prefix_cons, List.cons_prefix_cons,
          ih fun b hb => hword b (List.mem_cons_of_mem _ hb)]
  induction before with
  | nil =>
    rw [List.nil_append, List.infix_cons_iff, or_iff_right (not_prefix_space hne hword ha),
      List.infix_nil, or_iff_right hne]
  | cons b before ih =>
    have hfront : word <+: b :: (before ++ a :: behind) ↔ word <+: b :: before :=
      hprefix hword (b :: before)
    rw [List.cons_append, List.infix_cons_iff, List.infix_cons_iff, hfront, or_assoc]
    exact or_congr Iff.rfl ih

theorem infix_spaces_append (hne : word ≠ []) (hword : ∀ b ∈ word, isSpace b = false)
    {spaces : List β} (h : ∀ b ∈ spaces, isSpace b = true) :
    word <:+: spaces ++ l ↔ word <:+: l := by
  induction spaces with
  | nil => rfl
  | cons a spaces ih =>
    rw [List.cons_append, List.infix_cons_iff,
      or_iff_right (not_prefix_space hne hword (h a List.mem_cons_self))]
    exact ih fun b hb => h b (List.mem_cons_of_mem _ hb)

theorem infix_append_spaces (hne : word ≠ []) (hword : ∀ b ∈ word, isSpace b = false)
    {spaces : List β} (h : ∀ b ∈ spaces, isSpace b = true) :
    word <:+: l ++ spaces ↔ word <:+: l := by
  cases spaces with
  | nil => rw [List.append_nil]
  | cons a spaces =>
    obtain ⟨ha, hspaces⟩ := List.forall_mem_cons.1 h
    have hnone := infix_spaces_append (l := []) hne hword hspaces
    rw [List.append_nil, List.infix_nil] at hnone
    rw [infix_append_cons hne hword ha, hnone, or_iff_left hne]

theorem infix_spaces (hne : word ≠ []) (hword : ∀ b ∈ word, isSpace b = false)
    {spaces spaces' : List β} (h : ∀ b ∈ spaces, isSpace b = true)
    (h' : ∀ b ∈ spaces', isSpace b = true) (hnil : spaces = [] ↔ spaces' = [])
    (before behind : List β) :
    word <:+: before ++ (spaces ++ behind) ↔ word <:+: before ++ (spaces' ++ behind) := by
  cases spaces with
  | nil => rw [hnil.1 rfl]
  | cons a spaces =>
    cases spaces' with
    | nil => exact absurd (hnil.2 rfl) (List.cons_ne_nil _ _)
    | cons a' spaces' =>
      obtain ⟨ha, hspaces⟩ := List.forall_mem_cons.1 h
      obtain ⟨ha', hspaces'⟩ := List.forall_mem_cons.1 h'
      rw [List.cons_append, List.cons_append, infix_append_cons hne hword ha,
        infix_append_cons hne hword ha', infix_spaces_append hne hword hspaces,
        infix_spaces_append hne hword hspaces']

end Words

end Cine.Lib.Squeeze
