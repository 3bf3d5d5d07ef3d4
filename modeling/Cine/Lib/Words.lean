import Mathlib.Data.List.Chain

/-!
# Words and separators

A text, cut where `splitOnP` cuts it.

* `eq_iff_words`: a text is its separators and its words.
* `splitOnP_flatMap` and `filter_flatMap_words`: in a text that is written
  piece by piece, the words and the separators are those of the pieces, if a
  piece is one separator or has none.
* `isChain_flatMap_pieces`: so is what a separator has beside it.
* `nil_notMem_splitOnP`: when no word is empty.

Nothing here is about a particular program.
-/

namespace Cine.Lib.Words

variable {α β : Type}

theorem eq_iff_words (p : α → Bool) (l l' : List α) :
    l = l' ↔ l.filter p = l'.filter p ∧ l.splitOnP p = l'.splitOnP p := by
  constructor
  · intro h
    rw [h]
    exact ⟨rfl, rfl⟩
  · intro h
    have hleft := @List.splitOnP_spec α p l
    rw [h.1, h.2, List.splitOnP_spec] at hleft
    exact hleft.symm

/-- A piece is written as one separator, or without any. -/
structure Written (p : α → Bool) (q : β → Bool) (write : α → List β) : Prop where
  separator : ∀ a, p a = true → ∃ b, q b = true ∧ write a = [b]
  word : ∀ a, p a = false → ∀ b ∈ write a, q b = false

variable {p : α → Bool} {q : β → Bool} {write : α → List β}

theorem splitOnP_append_of_word {word : List β} (h : ∀ b ∈ word, q b = false) (rest : List β) :
    (word ++ rest).splitOnP q = (rest.splitOnP q).modifyHead (word ++ ·) := by
  induction word with
  | nil =>
    cases hrest : rest.splitOnP q with
    | nil => exact absurd hrest (List.splitOnP_ne_nil _ _)
    | cons first others =>
      rw [List.nil_append, hrest]
      rfl
  | cons b word ih =>
    have hb : ¬ q b = true := Bool.eq_false_iff.1 (h b List.mem_cons_self)
    rw [List.cons_append, List.splitOnP_cons_eq_if_modifyHead, if_neg hb,
      ih fun b' hb' => h b' (List.mem_cons_of_mem _ hb')]
    cases rest.splitOnP q <;> rfl

theorem splitOnP_flatMap (h : Written p q write) (pieces : List α) :
    (pieces.flatMap write).splitOnP q = (pieces.splitOnP p).map (·.flatMap write) := by
  induction pieces with
  | nil => rfl
  | cons a pieces ih =>
    rw [List.flatMap_cons, List.splitOnP_cons_eq_if_modifyHead]
    cases ha : p a with
    | true =>
      obtain ⟨b, hb, hwrite⟩ := h.separator a ha
      rw [hwrite, List.singleton_append, List.splitOnP_cons_eq_if_modifyHead, if_pos hb, if_pos rfl,
        ih]
      rfl
    | false =>
      rw [splitOnP_append_of_word (h.word a ha), if_neg Bool.false_ne_true, ih]
      cases pieces.splitOnP p <;> rfl

theorem filter_flatMap_words (h : Written p q write) (pieces : List α) :
    (pieces.flatMap write).filter q = (pieces.filter p).flatMap write := by
  induction pieces with
  | nil => rfl
  | cons a pieces ih =>
    rw [List.flatMap_cons, List.filter_append, ih]
    cases ha : p a with
    | true =>
      obtain ⟨b, hb, hwrite⟩ := h.separator a ha
      rw [List.filter_cons_of_pos ha, List.flatMap_cons, hwrite, List.filter_cons_of_pos hb]
      rfl
    | false =>
      have hnone : (write a).filter q = [] := by
        apply List.filter_eq_nil_iff.2
        intro b hb
        rw [h.word a ha b hb]
        exact Bool.false_ne_true
      rw [List.filter_cons_of_neg (Bool.eq_false_iff.1 ha), hnone]
      rfl

/-- A text without a space at its ends and without two beside each other has no empty word. -/
theorem nil_notMem_splitOnP {α : Type*} {p : α → Bool} {l : List α}
    (hchain : l.IsChain fun a b => ¬ (p a = true ∧ p b = true))
    (hlast : ∀ a ∈ l.getLast?, p a = false) :
    [] ∉ (l.splitOnP p).tail ∧
      (l ≠ [] → (∀ a ∈ l.head?, p a = false) → [] ∉ l.splitOnP p) := by
  induction l with
  | nil => simp
  | cons b l ih =>
    obtain ⟨hhead, hrest⟩ := List.isChain_cons.1 hchain
    rw [List.splitOnP_cons_eq_if_modifyHead]
    cases l with
    | nil =>
      have hb : p b = false := hlast b rfl
      simp [hb]
    | cons c l =>
      have ih' := ih hrest (by simpa using hlast)
      by_cases hb : p b = true
      · rw [if_pos hb]
        have hc : ∀ a ∈ (c :: l).head?, p a = false := by
          intro a ha
          exact Bool.eq_false_iff.2 fun hpa => hhead a ha ⟨hb, hpa⟩
        refine ⟨ih'.2 (List.cons_ne_nil _ _) hc, fun _ hfirst => ?_⟩
        rw [hfirst b rfl] at hb
        exact absurd hb Bool.false_ne_true
      · rw [if_neg hb]
        cases hsplit : (c :: l).splitOnP p with
        | nil => exact absurd hsplit (List.splitOnP_ne_nil _ _)
        | cons first others =>
          rw [hsplit] at ih'
          exact ⟨ih'.1, fun _ _ => by simpa using ih'.1⟩

/-- Two of a kind beside each other. -/
theorem infix_pair_iff (b : β) (l : List β) :
    [b, b] <:+: l ↔ ¬ l.IsChain fun x y => ¬ (x = b ∧ y = b) := by
  rw [List.isChain_iff_forall_rel_of_append_cons_cons]
  constructor
  · rintro ⟨front, back, rfl⟩ h
    exact h (List.append_assoc _ _ _) ⟨rfl, rfl⟩
  · intro h
    by_contra hno
    apply h
    rintro x y front back rfl ⟨rfl, rfl⟩
    exact hno ⟨front, back, List.append_assoc _ _ _⟩

theorem isChain_flatMap_pieces {b : β} {here : α → Bool} {write : α → List β}
    (hne : ∀ a, write a ≠ []) (hhere : ∀ a, here a = true → write a = [b])
    (hother : ∀ a, here a = false → b ∉ write a) (pieces : List α) :
    (pieces.flatMap write).IsChain (fun x y => ¬ (x = b ∧ y = b)) ↔
      pieces.IsChain fun x y => ¬ (here x = true ∧ here y = true) := by
  have hflat : [] ∉ pieces.map write := by
    intro hmem
    obtain ⟨a, -, ha⟩ := List.mem_map.1 hmem
    exact hne a ha
  have hends : ∀ a, (b ∈ (write a).getLast? ↔ here a = true) ∧
      (b ∈ (write a).head? ↔ here a = true) := by
    intro a
    cases ha : here a with
    | true =>
      rw [hhere a ha]
      exact ⟨iff_of_true rfl rfl, iff_of_true rfl rfl⟩
    | false =>
      have hno := hother a ha
      exact ⟨iff_of_false (fun h => hno (List.mem_of_mem_getLast? h)) Bool.false_ne_true,
        iff_of_false (fun h => hno (List.mem_of_mem_head? h)) Bool.false_ne_true⟩
  rw [List.flatMap_def, List.isChain_flatten hflat, List.isChain_map,
    and_iff_right]
  · apply iff_of_eq
    congr 1
    funext x y
    apply propext
    constructor
    · intro h hboth
      exact h b ((hends x).1.2 hboth.1) b ((hends y).2.2 hboth.2) ⟨rfl, rfl⟩
    · rintro h c hc d hd ⟨rfl, rfl⟩
      exact h ⟨(hends x).1.1 hc, (hends y).2.1 hd⟩
  · intro word hword
    obtain ⟨a, -, rfl⟩ := List.mem_map.1 hword
    cases ha : here a with
    | true =>
      rw [hhere a ha]
      exact List.isChain_singleton _
    | false =>
      rw [List.isChain_iff_forall_rel_of_append_cons_cons]
      rintro x y front back hsplit ⟨rfl, -⟩
      apply hother a ha
      rw [hsplit]
      exact List.mem_append_right _ List.mem_cons_self

end Cine.Lib.Words
