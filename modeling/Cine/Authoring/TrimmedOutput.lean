import Cine.Authoring.CaseDraft
import Cine.Authoring.Ruler.SameOutput

/-!
# Expected outputs that are trimmed

The editor of a test bundle drops all white space at the end of an expected
output, the exact comparator drops spaces, tabs and line ends.

* `kept_append_iff`: with the same text in front, outputs are told apart by
  what stands behind it.
* `trimming_harmless_iff`: what the comparator makes of the white space that the
  editor drops decides whether anything changes.
-/

namespace Cine.Authoring

open Cine.Lib Cine.Worker Cine.Authoring.Ruler

/-- The white space that the editor drops. -/
def tail (s : String) : String :=
  String.ofList (s.toList.rtakeWhile isSpace)

/-! ## The same text in front -/

/-- The rest of the first line, and what is kept of the others. -/
def headTail (l : List (List Char)) : List Char × List (List Char) :=
  (trimLine (l.headD []), kept l.tail)

variable {l l' : List (List Char)}

theorem kept_eq_iff_headTail : kept l = kept l' ↔ headTail l = headTail l' := by
  have hkept : ∀ l, kept l =
      if (headTail l).1 = [] ∧ (headTail l).2 = [] then [] else (headTail l).1 :: (headTail l).2 := by
    intro l
    cases l with
    | nil => rfl
    | cons line l => exact kept_cons line l
  constructor
  · intro h
    rw [hkept l, hkept l'] at h
    split_ifs at h with hl hl' hl'
    · rw [Prod.ext_iff, hl.1, hl.2, hl'.1, hl'.2]
      exact ⟨rfl, rfl⟩
    · exact Prod.ext (List.cons.inj h).1 (List.cons.inj h).2
  · intro h
    rw [hkept l, hkept l', h]

theorem trimLine_cons (c : Char) (line : List Char) :
    trimLine (c :: line) =
      if trimLine line = [] ∧ isBlank c = true then [] else c :: trimLine line := by
  unfold trimLine List.rdropWhile
  rw [List.reverse_cons, List.dropWhile_append]
  by_cases hline : line.reverse.dropWhile isBlank = []
  · cases hc : isBlank c <;> simp [hline, hc]
  · simp [hline]

theorem kept_addToFirst_iff (c : Char) :
    kept (addToFirst c l) = kept (addToFirst c l') ↔ kept l = kept l' := by
  have hhead : ∀ l, headTail (addToFirst c l) =
      (if (headTail l).1 = [] ∧ isBlank c = true then [] else c :: (headTail l).1,
        (headTail l).2) := by
    intro l
    cases l with
    | nil => exact Prod.ext (trimLine_cons c []) rfl
    | cons line l => exact Prod.ext (trimLine_cons c line) rfl
  rw [kept_eq_iff_headTail, kept_eq_iff_headTail, hhead, hhead, Prod.ext_iff, Prod.ext_iff]
  apply and_congr_left
  intro _
  dsimp only
  split_ifs with h h' h' <;> simp_all

theorem kept_nil_cons_iff : kept ([] :: l) = kept ([] :: l') ↔ kept l = kept l' := by
  rw [kept_eq_iff_headTail]
  simp [headTail]

/-- With the same text in front, what stands behind it tells two outputs apart. -/
theorem kept_append_iff {text : List Char} (h : ∀ c ∈ text.getLast?, c ≠ '\r') (x y : List Char) :
    kept (linesOf (text ++ x)) = kept (linesOf (text ++ y)) ↔
      kept (linesOf x) = kept (linesOf y) := by
  fun_induction linesOf text with
  | case1 text ih =>
    show kept ([] :: linesOf (text ++ x)) = kept ([] :: linesOf (text ++ y)) ↔ _
    rw [kept_nil_cons_iff]
    apply ih
    exact fun c hc => h c (List.mem_getLast?_cons (List.mem_getLast?_cons hc))
  | case2 text ih =>
    have hlines : ∀ z, linesOf ('\n' :: text ++ z) = [] :: linesOf (text ++ z) := by
      intro z
      rw [List.cons_append, linesOf]
    rw [hlines, hlines, kept_nil_cons_iff]
    apply ih
    exact fun c hc => h c (List.mem_getLast?_cons hc)
  | case3 c text hcrlf hlf ih =>
    have hlines : ∀ z, linesOf (c :: text ++ z) = addToFirst c (linesOf (text ++ z)) := by
      intro z
      rw [List.cons_append, linesOf]
      · intro rest hc hrest
        cases text with
        | nil => exact h c rfl hc
        | cons d text => exact hcrlf text hc (by rw [(List.cons.inj hrest).1])
      · exact hlf
    rw [hlines, hlines, kept_addToFirst_iff]
    apply ih
    exact fun c hc => h c (List.mem_getLast?_cons hc)
  | case4 => exact Iff.rfl

/-! ## The tail -/

theorem trimEnd_append_tail (s : String) : (trimEnd s).toList ++ (tail s).toList = s.toList := by
  unfold trimEnd tail
  rw [String.toList_ofList, String.toList_ofList]
  exact List.rdropWhile_append_rtakeWhile

theorem last_trimEnd (s : String) : ∀ c ∈ (trimEnd s).toList.getLast?, c ≠ '\r' := by
  unfold trimEnd
  rw [String.toList_ofList]
  intro c hc heq
  obtain ⟨hne, hlast⟩ := List.mem_getLast?_eq_getLast hc
  have hnot := List.rdropWhile_last_not isSpace s.toList hne
  rw [← hlast, heq] at hnot
  exact hnot (by decide)

theorem keptLines_eq_iff_tail {a b : String} (h : trimEnd a = trimEnd b) :
    keptLines a = keptLines b ↔ keptLines (tail a) = keptLines (tail b) := by
  unfold keptLines lines
  rw [← trimEnd_append_tail a, ← trimEnd_append_tail b, h]
  exact kept_append_iff (last_trimEnd b) _ _

theorem keptLines_trimEnd_iff (s : String) :
    keptLines s = keptLines (trimEnd s) ↔ keptLines (tail s) = [] := by
  have h := kept_append_iff (last_trimEnd s) (tail s).toList []
  rw [trimEnd_append_tail, List.append_nil] at h
  exact h

variable {close : ℚ → String → String → Bool}

/-- An output passes for both or for neither, whatever a program prints. -/
theorem same_answers_iff (a b : String) :
    (∀ got, compareOutput close a got .exact = compareOutput close b got .exact) ↔
      keptLines a = keptLines b := by
  constructor
  · intro h
    have hanswer : answer close b a .exact = .ok true := by
      rw [answer, ← h a]
      exact (answer_exact_iff a a).2 rfl
    exact ((answer_exact_iff b a).1 hanswer).symm
  · intro h got
    rw [← keptLines_eq_iff] at h
    unfold compareOutput
    rw [h]

/-- Trimming an expected output changes no answer just when the white space at its end is made
of spaces, tabs and line ends; two values for the same case have the same answers just when
that of one is that of the other, up to those. -/
theorem trimming_harmless_iff (close : ℚ → String → String → Bool) :
    (∀ v : CaseValues,
      (∀ got, compareOutput close v.expectedOutput got .exact =
        compareOutput close (normalize v).expectedOutput got .exact) ↔
      ∀ line ∈ lines (tail v.expectedOutput), ∀ c ∈ line, isBlank c = true) ∧
    ∀ a b : CaseValues, sameValues a b = true →
      ((∀ got, answer close a.expectedOutput got .exact = .ok true ↔
          answer close b.expectedOutput got .exact = .ok true) ↔
        SameLines (lines (tail a.expectedOutput)) (lines (tail b.expectedOutput))) := by
  constructor
  · intro v
    rw [same_answers_iff]
    show keptLines v.expectedOutput = keptLines (trimEnd v.expectedOutput) ↔ _
    rw [keptLines_trimEnd_iff]
    exact kept_eq_nil_iff
  · intro a b hsame
    have htrim : trimEnd a.expectedOutput = trimEnd b.expectedOutput := by
      unfold sameValues at hsame
      simp only [Bool.and_eq_true, decide_eq_true_eq] at hsame
      exact hsame.2
    rw [← keptLines_eq_iff_sameLines, ← keptLines_eq_iff_tail htrim]
    simp only [answer_exact_iff]
    constructor
    · intro h
      exact ((h a.expectedOutput).1 rfl).symm
    · intro h got
      rw [h]

/-- A program that prints the number alone, and an expected output with a no-break space. -/
theorem noBreakSpace_changes_answer :
    ¬ ((∀ (v : CaseValues) (got : String),
        compareOutput (fun _ _ _ => false) v.expectedOutput got .exact =
          compareOutput (fun _ _ _ => false) (normalize v).expectedOutput got .exact) ∧
      ∀ a b : CaseValues, sameValues a b = true → ∀ got,
        (answer (fun _ _ _ => false) a.expectedOutput got .exact = .ok true ↔
          answer (fun _ _ _ => false) b.expectedOutput got .exact = .ok true)) := by
  intro h
  have hsame := h.1 ⟨"ca1", "co_ban", "1", "5\u00a0"⟩ "5"
  have hequal := congrArg (fun r => r.toOption.map Comparison.equal) hsame
  revert hequal
  decide +kernel

end Cine.Authoring
