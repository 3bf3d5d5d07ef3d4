import Cine.Worker.OutputLines

/-!
# Outputs whose lines have no order

`unordered_lines` sorts the lines after the blank ones at the end are dropped.
A blank line counts where it stands before a printed line, and does not count
where it stands behind the last one, so its place is part of the answer.

* `orderBlind_iff`: when the place of a line says nothing.
* `blankLine_moved`: a blank line that does.
-/

namespace Cine.Worker

variable {close : ℚ → String → String → Bool} {expected got : String}

/-- The order of the lines says nothing about the answer, nor does the order of the outputs. -/
structure OrderBlind (close : ℚ → String → String → Bool) (expected got : String) : Prop where
  permuted : ∀ expected' got', (lines expected').Perm (lines expected) →
    (lines got').Perm (lines got) →
    answer close expected' got' .unorderedLines = answer close expected got .unorderedLines
  symmetric : answer close got expected .unorderedLines = answer close expected got .unorderedLines
  of_exact : answer close expected got .exact = .ok true →
    answer close expected got .unorderedLines = .ok true

def NoBlankLine (s : String) : Prop :=
  ∀ line ∈ lines s, trimLine line ≠ []

/-! ## What every pair of outputs has -/

theorem answer_unorderedLines_comm (expected got : String) :
    answer close got expected .unorderedLines = answer close expected got .unorderedLines := by
  rw [answer_unorderedLines, answer_unorderedLines]
  congr 1
  exact decide_eq_decide.2 List.perm_comm

theorem answer_unorderedLines_of_exact (h : answer close expected got .exact = .ok true) :
    answer close expected got .unorderedLines = .ok true := by
  rw [answer_exact] at h
  have hsame : keptLines expected = keptLines got := of_decide_eq_true (Except.ok.inj h)
  rw [answer_unorderedLines, hsame]
  congr 1
  exact decide_eq_true (List.Perm.refl _)

/-! ## What a permutation leaves -/

theorem printed_perm {s s' : String} (h : (lines s').Perm (lines s)) :
    (printed s').Perm (printed s) :=
  (h.map trimLine).filter _

theorem NoBlankLine.perm {s s' : String} (hs : NoBlankLine s) (h : (lines s').Perm (lines s)) :
    NoBlankLine s' :=
  fun line hline => hs line (h.mem_iff.1 hline)

theorem printed_perm_of_keptLines (h : (keptLines expected).Perm (keptLines got)) :
    (printed expected).Perm (printed got) := by
  rw [← filter_keptLines, ← filter_keptLines]
  exact h.filter _

theorem keptLines_perm_iff (h : ¬ (printed expected).Perm (printed got) ∨ printed expected = [] ∨
    NoBlankLine expected ∧ NoBlankLine got) :
    (keptLines expected).Perm (keptLines got) ↔ (printed expected).Perm (printed got) := by
  refine ⟨printed_perm_of_keptLines, fun hprinted => ?_⟩
  obtain h | h | ⟨h, h'⟩ := h
  · exact absurd hprinted h
  · rw [h] at hprinted
    rw [keptLines_eq_nil h, keptLines_eq_nil (List.nil_perm.1 hprinted)]
  · rw [keptLines_of_no_blank h, keptLines_of_no_blank h']
    exact hprinted

/-! ## A blank line that is moved -/

theorem map_filter_trimLine (l : List (List Char)) :
    (l.filter fun line => decide (trimLine line ≠ [])).map trimLine =
      (l.map trimLine).filter (· ≠ []) := by
  rw [List.filter_map]
  rfl

theorem getLast_filter_ne {l : List (List Char)} (h : l.filter (· ≠ []) ≠ []) :
    (l.filter (· ≠ [])).getLast h ≠ [] := by
  simpa using List.of_mem_filter (List.getLast_mem h)

theorem exists_blank_last (s : String) :
    ∃ s', (lines s').Perm (lines s) ∧ keptLines s' = printed s := by
  let isPrinted : List Char → Bool := fun line => decide (trimLine line ≠ [])
  have hperm := List.filter_append_perm isPrinted (lines s)
  obtain ⟨s', hs'⟩ := exists_lines_eq
    (fun line hline => newline_notMem_linesOf s.toList line (hperm.mem_iff.1 hline))
  refine ⟨s', by rw [hs']; exact hperm, ?_⟩
  rw [keptLines_of_lines hs']
  · exact map_filter_trimLine _
  · intro line hline
    simpa [isPrinted] using List.of_mem_filter hline
  · rw [map_filter_trimLine]
    exact fun h => getLast_filter_ne h

theorem exists_blank_first {s : String} (hprinted : printed s ≠ []) (hblank : ¬ NoBlankLine s) :
    ∃ s', (lines s').Perm (lines s) ∧ keptLines s' = [] :: printed s := by
  let isPrinted : List Char → Bool := fun line => decide (trimLine line ≠ [])
  have hperm := List.filter_append_perm isPrinted (lines s)
  cases hblanks : (lines s).filter (fun line => !isPrinted line) with
  | nil =>
    have hnone : NoBlankLine s := by
      intro line hline htrim
      have := List.filter_eq_nil_iff.1 hblanks line hline
      simp [isPrinted, htrim] at this
    exact absurd hnone hblank
  | cons blank blanks =>
    rw [hblanks] at hperm
    have hmoved : (blank :: (lines s).filter isPrinted ++ blanks).Perm (lines s) :=
      List.perm_middle.symm.trans hperm
    obtain ⟨s', hs'⟩ := exists_lines_eq
      (fun line hline => newline_notMem_linesOf s.toList line (hmoved.mem_iff.1 hline))
    have htrim : ∀ line ∈ blank :: blanks, trimLine line = [] := by
      intro line hline
      rw [← hblanks] at hline
      simpa [isPrinted] using List.of_mem_filter hline
    have hmap : (blank :: (lines s).filter isPrinted).map trimLine = [] :: printed s := by
      rw [List.map_cons, htrim blank List.mem_cons_self, map_filter_trimLine]
      rfl
    refine ⟨s', by rw [hs']; exact hmoved, ?_⟩
    rw [keptLines_of_lines hs', hmap]
    · exact fun line hline => htrim line (List.mem_cons_of_mem _ hline)
    · rw [hmap]
      intro hne
      rw [List.getLast_cons hprinted]
      exact getLast_filter_ne hprinted

theorem not_permuted_of_blank (hsame : (printed expected).Perm (printed got))
    (hprinted : printed expected ≠ []) (hblank : ¬ NoBlankLine expected) :
    ∃ first last got', (lines first).Perm (lines expected) ∧ (lines last).Perm (lines expected) ∧
      (lines got').Perm (lines got) ∧
      answer close first got' .unorderedLines ≠ answer close last got' .unorderedLines := by
  obtain ⟨first, hfirst, hkfirst⟩ := exists_blank_first hprinted hblank
  obtain ⟨last, hlast, hklast⟩ := exists_blank_last expected
  obtain ⟨got', hgot', hkgot'⟩ := exists_blank_last got
  refine ⟨first, last, got', hfirst, hlast, hgot', ?_⟩
  rw [answer_unorderedLines, answer_unorderedLines, hkfirst, hklast, hkgot']
  have hno : ¬ ([] :: printed expected).Perm (printed got) := by
    intro h
    have := (h.trans hsame.symm).length_eq
    simp at this
  rw [decide_eq_false hno, decide_eq_true hsame]
  exact fun h => Bool.false_ne_true (Except.ok.inj h)

theorem OrderBlind.noBlankLine (h : OrderBlind close expected got)
    (hsame : (printed expected).Perm (printed got)) (hprinted : printed expected ≠ []) :
    NoBlankLine expected := by
  by_contra hblank
  obtain ⟨first, last, got', hfirst, hlast, hgot', hne⟩ :=
    @not_permuted_of_blank close expected got hsame hprinted hblank
  exact hne ((h.permuted first got' hfirst hgot').trans (h.permuted last got' hlast hgot').symm)

theorem OrderBlind.symm (h : OrderBlind close expected got) : OrderBlind close got expected where
  permuted := by
    intro got' expected' hgot' hexpected'
    rw [answer_unorderedLines_comm, h.permuted expected' got' hexpected' hgot', h.symmetric]
  symmetric := h.symmetric.symm
  of_exact := answer_unorderedLines_of_exact

/-- The order of the lines says nothing if and only if the printed lines differ anyway, nothing
is printed, or no line is blank. -/
theorem orderBlind_iff (close : ℚ → String → String → Bool) (expected got : String) :
    OrderBlind close expected got ↔ ¬ (printed expected).Perm (printed got) ∨
      printed expected = [] ∨ NoBlankLine expected ∧ NoBlankLine got := by
  constructor
  · intro h
    by_contra hno
    push Not at hno
    obtain ⟨hsame, hprinted, hblank⟩ := hno
    have hgot : printed got ≠ [] := by
      intro hnil
      rw [hnil] at hsame
      exact hprinted hsame.eq_nil
    exact hblank (h.noBlankLine hsame hprinted) (h.symm.noBlankLine hsame.symm hgot)
  · intro h
    refine ⟨?_, answer_unorderedLines_comm expected got, answer_unorderedLines_of_exact⟩
    intro expected' got' hexpected hgot
    have hprinted : (printed expected').Perm (printed got') ↔
        (printed expected).Perm (printed got) :=
      (List.Perm.congr_left (printed_perm hexpected) _).trans
        (List.Perm.congr_right (printed_perm hgot) _)
    have h' : ¬ (printed expected').Perm (printed got') ∨ printed expected' = [] ∨
        NoBlankLine expected' ∧ NoBlankLine got' := by
      obtain h | h | ⟨h, h'⟩ := h
      · exact Or.inl fun hsame => h (hprinted.1 hsame)
      · have hnil := printed_perm hexpected
        rw [h] at hnil
        exact Or.inr (Or.inl hnil.eq_nil)
      · exact Or.inr (Or.inr ⟨h.perm hexpected, h'.perm hgot⟩)
    rw [answer_unorderedLines, answer_unorderedLines]
    congr 1
    rw [decide_eq_decide, keptLines_perm_iff h, keptLines_perm_iff h', hprinted]

/-- `a`, a blank line and `b`: behind `b` the blank line is dropped. -/
theorem blankLine_moved : ¬ ∀ close expected got, OrderBlind close expected got := by
  intro h
  have hmoved := (h (fun _ _ _ => false) "a\n\nb\n" "a\n\nb\n").permuted "a\nb\n\n" "a\n\nb\n"
    (by decide) (by decide)
  revert hmoved
  rw [answer_unorderedLines, answer_unorderedLines]
  decide

end Cine.Worker
