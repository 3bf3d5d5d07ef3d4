import Cine.Grading.Scoring.Marks

/-!
# A rule under another key

A rule of the table is replaced by a copy with another key and another id.
The copy has the criterion, the condition and the price of the rule, and the
exceptions of the teacher follow it.

* `RuleReplaced` relates the two computations of one paper.
* `KeyIndifferent` says of the paper, as it is before, that its marks do not
  hang on the key: the error of the rule is counted under the one key exactly
  when it is under the other, and it does not decide alone whether the paper
  has a score.
* `marks_replaced_iff`: this is exactly when the marks stay.

A rule that the machine checks is read without its key.  A rule in words is
read under its key in three places of a stored investigation: its table of
rules, its proposals and its challenge.
-/

namespace Cine.Grading

open Cine.Lib

variable {K : Type}

def RuleSnapshot.withKey (r : RuleSnapshot) (key : String) : RuleSnapshot :=
  { r with ruleKey := key }

/-- The marks of the paper do not hang on whether the rule has its key or the
key `key`. -/
def ScoreCoreInput.KeyIndifferent (input : ScoreCoreInput K) (r : RuleSnapshot) (key : String) :
    Prop :=
  input.isBlindlyFloored = true ∨
    (input.isCounted (r.withKey key) = input.isCounted r ∧
      (input.stored.result.investigation.stopReason ∈ budgetStops →
        (∀ s ∈ input.rules, s.ruleKey ≠ r.ruleKey → input.isFound s = false) →
        input.isFound (r.withKey key) = input.isFound r))

/-- `b` is the computation `a` of a paper with the rule `r'` in the place of
the rule `r`. -/
structure RuleReplaced (a b : ScoreCoreInput K) (r r' : RuleSnapshot)
    (others : List RuleSnapshot) : Prop where
  stored : b.stored = a.stored
  bundleCases : b.bundleCases = a.bundleCases
  rubric : b.rubric = a.rubric
  left : a.rules.Perm (r :: others)
  right : b.rules.Perm (r' :: others)
  criterionKey : r'.criterionKey = r.criterionKey
  predicate : r'.predicate = r.predicate
  deduction : r'.deductionHundredths = r.deductionHundredths
  exception : b.exceptions.get? r'.ruleId = a.exceptions.get? r.ruleId
  exceptions : ∀ s ∈ others, b.exceptions.get? s.ruleId = a.exceptions.get? s.ruleId

/-! ## What the marks read of the counted rules -/

theorem marksOf_perm {rubric : List RubricCriterion} {l l' : List RuleSnapshot}
    (h : l.Perm l') : marksOf rubric l = marksOf rubric l' := by
  have hlost : ∀ criterionKey, lostOn l criterionKey = lostOn l' criterionKey :=
    fun criterionKey => (h.map _).sum_eq
  unfold marksOf
  simp only [hlost, h.length_eq]

namespace RuleReplaced

variable {a b : ScoreCoreInput K} {r r' : RuleSnapshot} {others : List RuleSnapshot}

theorem isFound (h : RuleReplaced a b r r' others) (s : RuleSnapshot) :
    b.isFound s = a.isFound s := by
  unfold ScoreCoreInput.isFound ScoreCoreInput.considered ScoreCoreInput.ownModelRules
  rw [h.stored, h.bundleCases, h.rubric]

theorem isFound_copy (h : RuleReplaced a b r r' others) :
    b.isFound r' = a.isFound (r.withKey r'.ruleKey) := by
  have hconsidered : a.considered r' = a.considered (r.withKey r'.ruleKey) := by
    unfold ScoreCoreInput.considered RuleSnapshot.withKey
    rw [h.predicate]
  have herror : r'.toErrorRule = (r.withKey r'.ruleKey).toErrorRule := by
    unfold RuleSnapshot.toErrorRule RuleSnapshot.withKey
    rw [h.criterionKey, h.predicate, h.deduction]
  rw [h.isFound]
  unfold ScoreCoreInput.isFound
  rw [hconsidered, herror, h.criterionKey, h.predicate]
  rfl

theorem isCounted_copy (h : RuleReplaced a b r r' others) :
    b.isCounted r' = a.isCounted (r.withKey r'.ruleKey) := by
  unfold ScoreCoreInput.isCounted
  rw [h.isFound_copy, h.exception, h.deduction, h.predicate, h.stored]
  rfl

theorem isCounted_other (h : RuleReplaced a b r r' others) {s : RuleSnapshot} (hs : s ∈ others) :
    b.isCounted s = a.isCounted s := by
  unfold ScoreCoreInput.isCounted
  rw [h.isFound, h.exceptions s hs, h.stored]

theorem isBlindlyFloored (h : RuleReplaced a b r r' others) :
    b.isBlindlyFloored = a.isBlindlyFloored := by
  unfold ScoreCoreInput.isBlindlyFloored
  rw [h.stored, h.bundleCases]

theorem marksOf_copy (h : RuleReplaced a b r r' others) (rubric : List RubricCriterion)
    (l : List RuleSnapshot) : marksOf rubric (r' :: l) = marksOf rubric (r :: l) := by
  have hlost : ∀ criterionKey, lostOn (r' :: l) criterionKey = lostOn (r :: l) criterionKey := by
    intro criterionKey
    unfold lostOn
    rw [List.map_cons, List.map_cons, h.criterionKey, h.deduction]
  unfold marksOf
  simp only [hlost, List.length_cons]

theorem marksOf_iff (h : RuleReplaced a b r r' others) :
    marksOf b.rubric (b.rules.filter b.isCounted) = marksOf a.rubric (a.rules.filter a.isCounted) ↔
      a.isCounted (r.withKey r'.ruleKey) = a.isCounted r := by
  have hothers : others.filter b.isCounted = others.filter a.isCounted :=
    List.filter_congr fun s hs => h.isCounted_other hs
  rw [h.rubric, marksOf_perm (h.left.filter a.isCounted), marksOf_perm (h.right.filter b.isCounted),
    List.filter_cons, List.filter_cons, hothers, h.isCounted_copy]
  have hlength : ∀ s : RuleSnapshot, marksOf a.rubric (others.filter a.isCounted) ≠
      marksOf a.rubric (s :: others.filter a.isCounted) := by
    intro s heq
    have hcounted := congrArg Marks.counted heq
    simp only [marksOf, List.length_cons] at hcounted
    omega
  cases a.isCounted (r.withKey r'.ruleKey) with
  | false =>
    cases a.isCounted r with
    | false => exact iff_of_true rfl rfl
    | true => exact iff_of_false (hlength r) Bool.false_ne_true
  | true =>
    cases a.isCounted r with
    | false => exact iff_of_false (Ne.symm (hlength r')) Bool.false_ne_true.symm
    | true => exact iff_of_true (h.marksOf_copy a.rubric _) rfl

theorem isFloored_left (h : RuleReplaced a b r r' others) :
    a.isFloored = (a.isBlindlyFloored ||
      decide (a.stored.result.investigation.stopReason ∈ budgetStops) &&
        (!a.isFound r && others.all fun s => !a.isFound s)) := by
  unfold ScoreCoreInput.isFloored
  rw [h.left.all_eq, List.all_cons]

theorem isFloored_right (h : RuleReplaced a b r r' others) :
    b.isFloored = (a.isBlindlyFloored ||
      decide (a.stored.result.investigation.stopReason ∈ budgetStops) &&
        (!a.isFound (r.withKey r'.ruleKey) && others.all fun s => !a.isFound s)) := by
  unfold ScoreCoreInput.isFloored
  rw [h.right.all_eq, List.all_cons, h.isFound_copy, h.isBlindlyFloored, h.stored]
  simp only [h.isFound]

theorem others_all_iff (h : RuleReplaced a b r r' others)
    (hkeys : (a.rules.map RuleSnapshot.ruleKey).Nodup) :
    (others.all fun s => !a.isFound s) = true ↔
      ∀ s ∈ a.rules, s.ruleKey ≠ r.ruleKey → a.isFound s = false := by
  have hnodup : ((r :: others).map RuleSnapshot.ruleKey).Nodup := (h.left.map _).nodup_iff.1 hkeys
  rw [List.map_cons, List.nodup_cons] at hnodup
  simp only [List.all_eq_true, Bool.not_eq_true']
  constructor
  · intro hall s hs hne
    rcases List.mem_cons.1 (h.left.mem_iff.1 hs) with heq | hs
    · exact absurd (congrArg RuleSnapshot.ruleKey heq) hne
    · exact hall s hs
  · intro hall s hs
    refine hall s (h.left.mem_iff.2 (List.mem_cons_of_mem r hs)) fun heq => hnodup.1 ?_
    exact List.mem_map.2 ⟨s, hs, heq⟩

variable [Number K]

theorem marks_iff (h : RuleReplaced a b r r' others)
    (hkeys : (a.rules.map RuleSnapshot.ruleKey).Nodup)
    (hkeys' : (b.rules.map RuleSnapshot.ruleKey).Nodup) {out out' : ScoreCoreOutput K}
    (hout : a.computeScore = .ok out) (hout' : b.computeScore = .ok out') :
    out'.marks = out.marks ↔ a.KeyIndifferent r r'.ruleKey := by
  have hsome : ∀ l : List RuleSnapshot, ∀ rubric : List RubricCriterion,
      marksOf rubric l ≠ noMarks := by
    intro l rubric heq
    cases congrArg Marks.score heq
  have hnotCounted : ∀ s : RuleSnapshot, a.isFound s = false → a.isCounted s = false :=
    fun s hs => Bool.eq_false_iff.2 fun hc => Bool.eq_false_iff.1 hs (isFound_of_counted hc)
  rw [marks_eq hkeys hout, marks_eq hkeys' hout', h.isFloored_left, h.isFloored_right]
  unfold ScoreCoreInput.KeyIndifferent
  rw [← h.others_all_iff hkeys]
  by_cases hblind : a.isBlindlyFloored = true
  · simp only [hblind, Bool.true_or, if_true, true_or]
  · rw [Bool.eq_false_iff.2 hblind]
    simp only [Bool.false_or, Bool.false_eq_true, false_or]
    by_cases hstop : a.stored.result.investigation.stopReason ∈ budgetStops
    · by_cases hothers : (others.all fun s => !a.isFound s) = true
      · -- The rule alone decides whether the paper has a score.
        simp only [hstop, hothers, decide_true, Bool.true_and, Bool.and_true, true_imp_iff]
        cases hold : a.isFound r with
        | false =>
          cases hnew : a.isFound (r.withKey r'.ruleKey) with
          | false => simp [hnotCounted _ hold, hnotCounted _ hnew]
          | true => simp [hsome]
        | true =>
          cases hnew : a.isFound (r.withKey r'.ruleKey) with
          | false => simp [(hsome _ _).symm]
          | true =>
            simp only [Bool.not_true, Bool.false_eq_true, if_false, and_true]
            exact h.marksOf_iff
      · rw [Bool.eq_false_iff.2 hothers]
        simp only [Bool.and_false, Bool.false_eq_true, if_false, false_imp_iff, imp_true_iff,
          and_true]
        exact h.marksOf_iff
    · rw [decide_eq_false hstop]
      simp only [hstop, Bool.false_and, Bool.false_eq_true, if_false, false_imp_iff, and_true]
      exact h.marksOf_iff

theorem counted_iff (h : RuleReplaced a b r r' others)
    (hkeys : (a.rules.map RuleSnapshot.ruleKey).Nodup)
    (hkeys' : (b.rules.map RuleSnapshot.ruleKey).Nodup) {out out' : ScoreCoreOutput K}
    (hout : a.computeScore = .ok out) (hout' : b.computeScore = .ok out')
    (hmarks : out'.marks = out.marks) :
    r'.ruleKey ∈ countedKeys out'.breakdown.errors ↔ r.ruleKey ∈ countedKeys out.breakdown.errors := by
  have hr : r ∈ a.rules := h.left.mem_iff.2 List.mem_cons_self
  have hr' : r' ∈ b.rules := h.right.mem_iff.2 List.mem_cons_self
  have hfloored : b.isFloored = a.isFloored := by
    rw [marks_eq hkeys hout, marks_eq hkeys' hout'] at hmarks
    cases hb : b.isFloored with
    | false =>
      cases ha : a.isFloored with
      | false => rfl
      | true =>
        rw [hb, ha] at hmarks
        cases congrArg Marks.score hmarks
    | true =>
      cases ha : a.isFloored with
      | false =>
        rw [hb, ha] at hmarks
        cases congrArg Marks.score hmarks
      | true => rfl
  rw [mem_countedKeys_out hkeys hout hr, mem_countedKeys_out hkeys' hout' hr', hfloored,
    h.isCounted_copy]
  refine and_congr_right fun hscored => ?_
  rcases (h.marks_iff hkeys hkeys' hout hout').1 hmarks with hblind | ⟨hcounted, _⟩
  · have hall : a.isFloored = true := by
      unfold ScoreCoreInput.isFloored
      rw [hblind, Bool.true_or]
    rw [hall] at hscored
    cases hscored
  · rw [hcounted]

end RuleReplaced

end Cine.Grading
