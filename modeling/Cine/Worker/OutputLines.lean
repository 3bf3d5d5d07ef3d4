import Cine.Worker.Comparators
import Mathlib.Data.List.Perm.Basic

/-!
# The lines of an output

What `normalizeLines` leaves of an output, said over its lines.  A line is ended
by CRLF, by LF or by the end of the output.

* `normalizeLines_eq`: each line without the spaces and tabs at its end, less
  the blank lines behind the last printed one.
* `exists_linesOf_eq`: any lines are those of some output.
* `answer_exact` and `answer_unorderedLines`: what the comparators that go by
  lines answer.
-/

namespace Cine.Worker

open Cine.Lib

/-- Before the first line. -/
def addToFirst (c : Char) : List (List Char) → List (List Char)
  | [] => [[c]]
  | line :: lines => (c :: line) :: lines

def linesOf : List Char → List (List Char)
  | '\r' :: '\n' :: text => [] :: linesOf text
  | '\n' :: text => [] :: linesOf text
  | c :: text => addToFirst c (linesOf text)
  | [] => []

def isBlank (c : Char) : Bool :=
  c = ' ' || c = '\t'

/-- `replace(/[ \t]+$/, '')`. -/
def trimLine (line : List Char) : List Char :=
  line.rdropWhile isBlank

def lines (s : String) : List (List Char) :=
  linesOf s.toList

/-- What is left of the lines, blank ones between them included. -/
def kept (l : List (List Char)) : List (List Char) :=
  (l.map trimLine).rdropWhile (· = [])

def keptLines (s : String) : List (List Char) :=
  kept (lines s)

/-- The lines that are not blank. -/
def printed (s : String) : List (List Char) :=
  ((lines s).map trimLine).filter (· ≠ [])

/-! ## What is normalised -/

theorem addToFirst_eq_modifyHead {l : List (List Char)} (c : Char) (h : l ≠ []) :
    addToFirst c l = l.modifyHead (c :: ·) := by
  cases l with
  | nil => exact absurd rfl h
  | cons line lines => rfl

theorem splitOn_newline_cons (c : Char) (text : List Char) :
    (c :: text).splitOn '\n' =
      if c = '\n' then [] :: text.splitOn '\n' else (text.splitOn '\n').modifyHead (c :: ·) := by
  show (c :: text).splitOnP (· == '\n') = _
  rw [List.splitOnP_cons_eq_if_modifyHead]
  by_cases hc : c = '\n'
  · subst hc
    rfl
  · rw [if_neg hc, if_neg (by simpa using hc)]
    rfl

theorem splitOn_joinLineEnds (text : List Char) :
    (joinLineEnds text).splitOn '\n' = linesOf text ∨
      (joinLineEnds text).splitOn '\n' = linesOf text ++ [[]] := by
  fun_induction linesOf text with
  | case1 text ih =>
    rw [joinLineEnds, splitOn_newline_cons, if_pos rfl]
    cases ih with
    | inl ih => exact Or.inl (by rw [ih])
    | inr ih => exact Or.inr (by rw [ih]; rfl)
  | case2 text ih =>
    have hjoin : joinLineEnds ('\n' :: text) = '\n' :: joinLineEnds text := by
      cases text <;> rfl
    rw [hjoin, splitOn_newline_cons, if_pos rfl]
    cases ih with
    | inl ih => exact Or.inl (by rw [ih])
    | inr ih => exact Or.inr (by rw [ih]; rfl)
  | case3 c text hcrlf hlf ih =>
    rw [joinLineEnds, splitOn_newline_cons, if_neg hlf]
    · cases ih with
      | inl ih =>
        left
        rw [ih, addToFirst_eq_modifyHead]
        intro hnil
        rw [hnil] at ih
        exact List.splitOnP_ne_nil _ _ ih
      | inr ih =>
        rw [ih]
        cases linesOf text with
        | nil => exact Or.inl rfl
        | cons line lines => exact Or.inr rfl
    · exact hcrlf
  | case4 => exact Or.inr rfl

theorem rdropWhile_map {α β : Type} (f : α → β) (p : β → Bool) (l : List α) :
    (l.map f).rdropWhile p = (l.rdropWhile (p ∘ f)).map f := by
  unfold List.rdropWhile
  rw [← List.map_reverse, List.dropWhile_map, List.map_reverse]

theorem normalizeLines_eq (s : String) :
    normalizeLines s = (keptLines s).map String.ofList := by
  have hkept : keptLines s =
      (((joinLineEnds s.toList).splitOn '\n').map trimLine).rdropWhile (· = []) := by
    cases splitOn_joinLineEnds s.toList with
    | inl h => rw [h]; rfl
    | inr h =>
      rw [h, List.map_append]
      exact (List.rdropWhile_concat_pos _ _ _ (by rfl)).symm
  have hempty : (fun line : List Char => decide (String.ofList line = "")) =
      fun line => decide (line = []) := by
    funext line
    rw [decide_eq_decide]
    exact String.ofList_eq_empty_iff
  rw [hkept]
  show (((joinLineEnds s.toList).splitOn '\n').map (String.ofList ∘ trimLine)).rdropWhile _ = _
  rw [← List.map_map, rdropWhile_map]
  show List.map String.ofList (List.rdropWhile (fun line => decide (String.ofList line = "")) _) = _
  rw [hempty]

/-! ## What is kept -/

theorem filter_rdropWhile {α : Type} (p : α → Bool) (l : List α) :
    (l.rdropWhile p).filter (!p ·) = l.filter (!p ·) := by
  conv_rhs => rw [← List.rdropWhile_append_rtakeWhile (p := p) (l := l), List.filter_append]
  have hnone : (l.rtakeWhile p).filter (!p ·) = [] := by
    apply List.filter_eq_nil_iff.2
    intro a ha
    simp [List.mem_rtakeWhile_imp ha]
  rw [hnone, List.append_nil]

theorem filter_keptLines (s : String) : (keptLines s).filter (· ≠ []) = printed s := by
  have h := filter_rdropWhile (· = []) ((lines s).map trimLine)
  simp only [← decide_not] at h
  exact h

theorem keptLines_of_no_blank {s : String} (h : ∀ line ∈ lines s, trimLine line ≠ []) :
    keptLines s = printed s := by
  have hall : printed s = (lines s).map trimLine := by
    apply List.filter_eq_self.2
    intro line hline
    obtain ⟨line, hmem, rfl⟩ := List.mem_map.1 hline
    simpa using h line hmem
  rw [hall]
  apply List.rdropWhile_eq_self_iff.2
  intro hne
  obtain ⟨line, hmem, hlast⟩ := List.mem_map.1 (List.getLast_mem hne)
  rw [← hlast]
  simpa using h line hmem

theorem keptLines_eq_nil {s : String} (h : printed s = []) : keptLines s = [] := by
  apply List.rdropWhile_eq_nil_iff.2
  intro line hline
  have := List.filter_eq_nil_iff.1 h line hline
  simpa using this

theorem keptLines_of_lines {s : String} {front back : List (List Char)}
    (hlines : lines s = front ++ back) (hback : ∀ line ∈ back, trimLine line = [])
    (hfront : ∀ h : front.map trimLine ≠ [], (front.map trimLine).getLast h ≠ []) :
    keptLines s = front.map trimLine := by
  have hself : (front.map trimLine).rdropWhile (· = []) = front.map trimLine := by
    apply List.rdropWhile_eq_self_iff.2
    intro hne
    simpa using hfront hne
  rw [keptLines, hlines, kept, List.map_append, ← hself]
  clear hlines hfront hself
  induction back using List.reverseRecOn with
  | nil => rw [List.map_nil, List.append_nil, List.rdropWhile_idempotent]
  | append_singleton back line ih =>
    have hline : trimLine line = [] := hback line (by simp)
    rw [List.map_append, ← List.append_assoc, List.map_singleton, List.rdropWhile_concat_pos]
    · exact ih fun l hl => hback l (by simp [hl])
    · simpa using hline

theorem newline_notMem_linesOf (text : List Char) : ∀ line ∈ linesOf text, '\n' ∉ line := by
  fun_induction linesOf text with
  | case1 text ih => simpa using ih
  | case2 text ih => simpa using ih
  | case3 c text _ hlf ih =>
    have hc : '\n' ≠ c := fun h => hlf h.symm
    cases hrest : linesOf text with
    | nil => simpa [addToFirst] using hc
    | cons line lines =>
      rw [hrest] at ih
      intro line' hline
      cases List.mem_cons.1 hline with
      | inl heq =>
        rw [heq, List.mem_cons, not_or]
        exact ⟨hc, ih line List.mem_cons_self⟩
      | inr hmem => exact ih line' (List.mem_cons_of_mem _ hmem)
  | case4 => simp

theorem linesOf_append_crlf {line : List Char} (h : '\n' ∉ line) (text : List Char) :
    linesOf (line ++ '\r' :: '\n' :: text) = line :: linesOf text := by
  induction line with
  | nil => rfl
  | cons c line ih =>
    rw [List.mem_cons, not_or] at h
    have hc : c ≠ '\n' := fun hc => h.1 hc.symm
    rw [List.cons_append, linesOf, ih h.2]
    · rfl
    · rintro rest rfl hrest
      cases line with
      | nil => cases hrest
      | cons d line =>
        injection hrest with hd _
        exact h.2 (by simp [hd])
    · exact hc

theorem exists_lines_eq {l : List (List Char)} (h : ∀ line ∈ l, '\n' ∉ line) :
    ∃ s, lines s = l := by
  have htext : ∃ text, linesOf text = l := by
    induction l with
    | nil => exact ⟨[], rfl⟩
    | cons line l ih =>
      obtain ⟨text, htext⟩ := ih fun line' hline => h line' (List.mem_cons_of_mem _ hline)
      refine ⟨line ++ '\r' :: '\n' :: text, ?_⟩
      rw [linesOf_append_crlf (h line List.mem_cons_self), htext]
  obtain ⟨text, htext⟩ := htext
  refine ⟨String.ofList text, ?_⟩
  rw [lines, String.toList_ofList]
  exact htext

/-! ## What is answered -/

theorem firstLineDiff_eq_none_iff {i : Nat} {expected got : List String} :
    firstLineDiff i expected got = none ↔ expected = got := by
  fun_induction firstLineDiff i expected got with
  | case1 => simp
  | case2 i e expected g got hne => simp [hne]
  | case3 i e expected g got heq ih => simp [ih, not_not.1 heq]
  | case4 => simp
  | case5 => simp

theorem isNone_firstLineDiff (expected got : List String) :
    (firstLineDiff 0 expected got).isNone = decide (expected = got) := by
  rw [Bool.eq_iff_iff, Option.isNone_iff_eq_none, firstLineDiff_eq_none_iff, decide_eq_true_iff]

variable {close : ℚ → String → String → Bool}

/-- Whether the outputs are equal; a checker does not say. -/
def answer (close : ℚ → String → String → Bool) (expected got : String) (c : Comparator) :
    Except String Bool :=
  (compareOutput close expected got c).map (·.equal)

theorem ofList_injective : Function.Injective String.ofList :=
  fun _ _ => String.ofList_injective

theorem keptLines_eq_iff {expected got : String} :
    normalizeLines expected = normalizeLines got ↔ keptLines expected = keptLines got := by
  rw [normalizeLines_eq, normalizeLines_eq]
  exact (List.map_injective_iff.2 ofList_injective).eq_iff

theorem answer_exact (expected got : String) :
    answer close expected got .exact = .ok (decide (keptLines expected = keptLines got)) := by
  show Except.ok (firstLineDiff 0 _ _).isNone = _
  rw [isNone_firstLineDiff, decide_eq_decide.2 keptLines_eq_iff]

theorem answer_unorderedLines (expected got : String) :
    answer close expected got .unorderedLines =
      .ok (decide ((keptLines expected).Perm (keptLines got))) := by
  show Except.ok (firstLineDiff 0 _ _).isNone = _
  rw [isNone_firstLineDiff, normalizeLines_eq, normalizeLines_eq]
  congr 1
  rw [decide_eq_decide, sortStrings_eq_iff]
  exact List.map_perm_map_iff ofList_injective

end Cine.Worker
