import Cine.Worker.OutputLines

/-!
# The comparison of the exam author

`sameOutput` of `exam-authoring/ruler/ruler-core.ts` compares two outputs joined
to one text, the worker compares them line by line.

* `sameOutput_iff`: both go by the lines that are kept.
* `keptLines_eq_iff_sameLines`: those are the same if and only if the outputs
  differ in nothing but the ends of their lines and the blank lines at the end.
* `compareOutput_diff_eq_none_iff`: a difference is said exactly when there is
  one.
-/

namespace Cine.Authoring.Ruler

open Cine.Lib Cine.Worker

def sameOutput (a b : String) : Bool :=
  "\n".intercalate (normalizeLines a) = "\n".intercalate (normalizeLines b)

/-- Two lines up to the spaces and tabs at their ends. -/
def SameLine (l l' : List Char) : Prop :=
  ∃ text ends ends', l = text ++ ends ∧ l' = text ++ ends' ∧
    (∀ c ∈ ends, isBlank c = true) ∧ ∀ c ∈ ends', isBlank c = true

/-- Lines that differ only at their ends, with blank lines alone behind them. -/
inductive SameLines : List (List Char) → List (List Char) → Prop
  | blank {a b : List (List Char)} :
      (∀ line ∈ a ++ b, ∀ c ∈ line, isBlank c = true) → SameLines a b
  | cons {l l' : List Char} {a b : List (List Char)} :
      SameLine l l' → SameLines a b → SameLines (l :: a) (l' :: b)

/-! ## The joined text -/

theorem newline_notMem_keptLines (s : String) : ∀ line ∈ keptLines s, '\n' ∉ line := by
  intro line hline hmem
  obtain ⟨raw, hraw, rfl⟩ := List.mem_map.1 ((List.rdropWhile_prefix _ _).subset hline)
  exact newline_notMem_linesOf s.toList raw hraw ((List.rdropWhile_prefix _ _).subset hmem)

theorem keptLines_ne_singleton_nil (s : String) : keptLines s ≠ [[]] := by
  intro h
  have hne : keptLines s ≠ [] := by rw [h]; exact List.cons_ne_nil _ _
  have hlast := List.rdropWhile_last_not _ _ hne
  have heq : (keptLines s).getLast hne = [] := by simp only [h, List.getLast_singleton]
  exact hlast (decide_eq_true heq)

theorem toList_joined (s : String) :
    ("\n".intercalate (normalizeLines s)).toList = ['\n'].intercalate (keptLines s) := by
  rw [String.toList_intercalate, normalizeLines_eq, List.map_map]
  have hid : String.toList ∘ String.ofList = id := funext fun _ => String.toList_ofList
  rw [hid, List.map_id]
  rfl

theorem splitOn_joined {s : String} (h : keptLines s ≠ []) :
    (['\n'].intercalate (keptLines s)).splitOn '\n' = keptLines s :=
  List.splitOn_intercalate _ (newline_notMem_keptLines s) h

theorem joined_eq_nil_iff (s : String) :
    ['\n'].intercalate (keptLines s) = [] ↔ keptLines s = [] := by
  constructor
  · intro h
    by_contra hne
    have := splitOn_joined hne
    rw [h] at this
    exact keptLines_ne_singleton_nil s this.symm
  · intro h
    rw [h]
    rfl

theorem sameOutput_iff (a b : String) : sameOutput a b = true ↔ keptLines a = keptLines b := by
  unfold sameOutput
  rw [decide_eq_true_iff, ← String.toList_inj, toList_joined, toList_joined]
  constructor
  · intro h
    by_cases ha : keptLines a = []
    · rw [ha, (joined_eq_nil_iff b).1 (h.symm.trans ((joined_eq_nil_iff a).2 ha))]
    · have hb : keptLines b ≠ [] := fun hb =>
        ha ((joined_eq_nil_iff a).1 (h.trans ((joined_eq_nil_iff b).2 hb)))
      rw [← splitOn_joined ha, h, splitOn_joined hb]
  · intro h
    rw [h]

/-! ## What is kept of the lines -/

theorem trimLine_append {text ends : List Char} (h : ∀ c ∈ ends, isBlank c = true) :
    trimLine (text ++ ends) = trimLine text := by
  induction ends using List.reverseRecOn with
  | nil => rw [List.append_nil]
  | append_singleton ends c ih =>
    rw [← List.append_assoc, trimLine, List.rdropWhile_concat_pos _ _ _ (h c (by simp))]
    exact ih fun d hd => h d (by simp [hd])

theorem trimLine_eq_iff {l l' : List Char} : trimLine l = trimLine l' ↔ SameLine l l' := by
  constructor
  · intro h
    refine ⟨trimLine l, l.rtakeWhile isBlank, l'.rtakeWhile isBlank, ?_, ?_, ?_, ?_⟩
    · exact List.rdropWhile_append_rtakeWhile.symm
    · rw [h]
      exact List.rdropWhile_append_rtakeWhile.symm
    · exact fun c hc => List.mem_rtakeWhile_imp hc
    · exact fun c hc => List.mem_rtakeWhile_imp hc
  · rintro ⟨text, ends, ends', rfl, rfl, hends, hends'⟩
    rw [trimLine_append hends, trimLine_append hends']

theorem trimLine_eq_nil_iff {l : List Char} : trimLine l = [] ↔ ∀ c ∈ l, isBlank c = true :=
  List.rdropWhile_eq_nil_iff

theorem kept_eq_nil_iff {l : List (List Char)} :
    kept l = [] ↔ ∀ line ∈ l, ∀ c ∈ line, isBlank c = true := by
  unfold kept
  rw [List.rdropWhile_eq_nil_iff]
  simp only [List.forall_mem_map, decide_eq_true_eq, trimLine_eq_nil_iff]

theorem kept_cons (line : List Char) (l : List (List Char)) :
    kept (line :: l) =
      if trimLine line = [] ∧ kept l = [] then [] else trimLine line :: kept l := by
  unfold kept List.rdropWhile
  rw [List.map_cons, List.reverse_cons, List.dropWhile_append]
  by_cases hrest : ((l.map trimLine).reverse.dropWhile (· = [])) = []
  · by_cases hline : trimLine line = []
    · simp [hrest, hline]
    · simp [hrest, hline]
  · have hempty : ¬ ((l.map trimLine).reverse.dropWhile (· = [])).isEmpty = true :=
      fun h => hrest (List.isEmpty_iff.1 h)
    rw [if_neg hempty, if_neg fun h => hrest (List.reverse_eq_nil_iff.1 h.2), List.reverse_append]
    rfl

theorem kept_cons_of_ne_nil {line : List Char} {l : List (List Char)}
    (h : kept (line :: l) ≠ []) : kept (line :: l) = trimLine line :: kept l := by
  rw [kept_cons] at h ⊢
  split_ifs at h ⊢ with hblank
  · exact absurd rfl h
  · rfl

theorem kept_eq_iff_sameLines {a b : List (List Char)} : kept a = kept b ↔ SameLines a b := by
  constructor
  · intro h
    induction a generalizing b with
    | nil =>
      apply SameLines.blank
      exact kept_eq_nil_iff.1 h.symm
    | cons line a ih =>
      by_cases hnil : kept (line :: a) = []
      · apply SameLines.blank
        intro line' hline'
        cases List.mem_append.1 hline' with
        | inl hmem => exact kept_eq_nil_iff.1 hnil line' hmem
        | inr hmem => exact kept_eq_nil_iff.1 (h.symm.trans hnil) line' hmem
      · cases b with
        | nil => exact absurd h hnil
        | cons line' b =>
          have hnil' : kept (line' :: b) ≠ [] := h ▸ hnil
          rw [kept_cons_of_ne_nil hnil, kept_cons_of_ne_nil hnil'] at h
          obtain ⟨hline, hrest⟩ := List.cons.inj h
          exact SameLines.cons (trimLine_eq_iff.1 hline) (ih hrest)
  · intro h
    induction h with
    | blank hblank =>
      rw [kept_eq_nil_iff.2 fun line hline => hblank line (List.mem_append_left _ hline),
        kept_eq_nil_iff.2 fun line hline => hblank line (List.mem_append_right _ hline)]
    | cons hline _ ih => rw [kept_cons, kept_cons, trimLine_eq_iff.2 hline, ih]

theorem keptLines_eq_iff_sameLines (a b : String) :
    keptLines a = keptLines b ↔ SameLines (lines a) (lines b) :=
  kept_eq_iff_sameLines

/-! ## The difference that is told -/

abbrev Text := {s : String // (utf16 s).length < 2 ^ 53}

theorem Text.length_toList (s : Text) : s.1.toList.length < 10 ^ 19 := by
  have hlength := length_toList_le_utf16 s.1
  have hfits := s.2
  omega

variable {close : ℚ → String → String → Bool}

theorem compareOutput_diff_eq_none_iff {expected got : String} {c : Comparator} {cmp : Comparison}
    (h : compareOutput close expected got c = .ok cmp) : cmp.diff = none ↔ cmp.equal = true := by
  cases c with
  | exact =>
    cases h
    simp
  | unorderedLines =>
    cases h
    simp
  | floatTolerance eps =>
    dsimp only [compareOutput] at h
    split at h
    · cases h
      simp
    · split at h
      · cases h
        simp
      · split at h <;> cases h <;> simp
  | checker name => cases h

theorem answer_exact_iff (a b : String) :
    answer close a b .exact = .ok true ↔ keptLines a = keptLines b := by
  rw [answer_exact]
  constructor
  · exact fun h => of_decide_eq_true (Except.ok.inj h)
  · intro h
    rw [decide_eq_true h]

/-- The author's comparison is the worker's: outputs are identified that differ in the ends of
their lines and the blank lines at the end, and a difference is said that the result can hold. -/
theorem sameOutput_agrees (close : ℚ → String → String → Bool) :
    (∀ a b, sameOutput a b = true ↔ answer close a b .exact = .ok true) ∧
      Equivalence (fun a b => sameOutput a b = true) ∧
      (∀ a b, sameOutput a b = true ↔ SameLines (lines a) (lines b)) ∧
      ∀ (a b : Text) (c : Comparator) (cmp : Comparison), compareOutput close a.1 b.1 c = .ok cmp →
        (cmp.diff = none ↔ cmp.equal = true) ∧ ∀ diff, cmp.diff = some diff →
          (utf16 diff).length ≤ 1024 := by
  refine ⟨?_, ?_, ?_, ?_⟩
  · intro a b
    rw [sameOutput_iff, answer_exact_iff]
  · simp only [sameOutput_iff]
    exact ⟨fun _ => rfl, Eq.symm, Eq.trans⟩
  · intro a b
    rw [sameOutput_iff, keptLines_eq_iff_sameLines]
  · intro a b c cmp h
    exact ⟨compareOutput_diff_eq_none_iff h, fun diff hdiff =>
      compareOutput_diff a.length_toList b.length_toList h hdiff⟩

theorem sameOutput_agrees_once :
    (sameOutput "1 \r\n2\n\n" "1\n2" = true ↔
        answer (fun _ _ _ => false) "1 \r\n2\n\n" "1\n2" .exact = .ok true) ∧
      (utf16 "dòng 2: mong đợi \"2\", nhận \"3\"").length ≤ 1024 := by
  have h := sameOutput_agrees fun _ _ _ => false
  refine ⟨h.1 _ _, ?_⟩
  exact (h.2.2.2 ⟨"1\n2", by decide⟩ ⟨"1\n3", by decide⟩ .exact
    ⟨false, some "dòng 2: mong đợi \"2\", nhận \"3\""⟩ (by rfl)).2 _ rfl

end Cine.Authoring.Ruler
