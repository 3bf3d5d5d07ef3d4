import Cine.Grading.OneShot.EnforceScoring
import Mathlib.Data.Finset.Card

/-!
# The guards around a one-shot grading

`grading/harness/grading-guards.ts` and `grading/one-shot-grade.ts`.  Where
a quotation stands in the submission is decided by `verifyEvidence`; the
guards only count its answers, so it is a parameter.
-/

namespace Cine.Grading

inductive EvidenceCheck
  | ok
  | empty
  | unverified
deriving DecidableEq, Repr

inductive GuardStatus
  | autoApproved
  | flaggedForReview
deriving DecidableEq, Repr

structure GuardOutcome where
  confidence : ℚ
  status : GuardStatus
  needsAdvocate : Bool
  runUntrustworthy : Bool
  perCriterion : List (String × EvidenceCheck)
  reason : Option String
deriving DecidableEq, Repr

/-- `UNTRUSTWORTHY_RATIO`. -/
def untrustworthyRatio : ℚ := 1 / 2

/-- `UNTRUSTWORTHY_MIN_COUNT`. -/
def untrustworthyMinCount : Nat := 2

/-- `AUTO_APPROVE_CONFIDENCE`. -/
def autoApproveConfidence : ℚ := 85 / 100

/-- The criteria that came back are not those of the rubric, as sets. -/
def coverageBroken (criteria : List GradingRubricCriterion)
    (criterionResults : List CriterionResult) : Bool :=
  let expected := (criteria.map GradingRubricCriterion.id).dedup
  let returned := (criterionResults.map CriterionResult.criterionId).dedup
  decide (expected.length ≠ returned.length) || expected.any fun id => decide (id ∉ returned)

/-- The report of a broken coverage. -/
def coverageReason : String :=
  "AI không trả về đúng bộ tiêu chí của rubric — không tin được lượt chấm này."

def unverifiedReason (unverified total : Nat) : String :=
  "Không định vị được dẫn chứng cho " ++
    (toString unverified ++ "/" ++ toString total ++ " tiêu chí — không tin được lượt chấm này.")

def advocateReason : String :=
  "Có tiêu chí sinh viên không đạt hoặc không đề cập — cần đối chiếu với đề bài " ++
    "xem em có trả lời đúng theo hướng khác không."

def someUnverifiedReason (unverified : Nat) : String :=
  "Không định vị được dẫn chứng cho " ++ (toString unverified ++ " tiêu chí.")

section

variable (verifyEvidence : String → String → EvidenceCheck)

def applyGuards (studentText : String) (criteria : List GradingRubricCriterion)
    (criterionResults : List CriterionResult) : GuardOutcome :=
  let perCriterion := criterionResults.map fun row =>
    (row.criterionId, verifyEvidence studentText row.evidence)
  let flagged (confidence : ℚ) (needsAdvocate runUntrustworthy : Bool) (reason : String) :
      GuardOutcome :=
    { confidence, status := .flaggedForReview, needsAdvocate, runUntrustworthy, perCriterion,
      reason := some reason }
  -- G3
  if coverageBroken criteria criterionResults then flagged 0 false true coverageReason
  else
    -- G2
    let unverified := (perCriterion.filter fun r => r.2 = .unverified).length
    if untrustworthyMinCount ≤ unverified ∧
        untrustworthyRatio ≤ (unverified : ℚ) / perCriterion.length then
      flagged 0 false true (unverifiedReason unverified perCriterion.length)
    else if (criterionResults.any fun row => row.verdict = .notMet) ||
        perCriterion.any fun r => r.2 = .empty then
      flagged (3 / 10) true false advocateReason
    else if 0 < unverified then flagged (1 / 2) false false (someUnverifiedReason unverified)
    else
      { confidence := if criterionResults.all fun row => row.verdict = .met then 95 / 100
          else 85 / 100
        status := .autoApproved
        needsAdvocate := false
        runUntrustworthy := false
        perCriterion
        reason := none }

/-- What a provider answers, as far as the scoring reads it. -/
structure GradingOutcome where
  criterionResults : List CriterionResult
  confidenceCeiling : ℚ

structure OneShotResult where
  outcome : GradingOutcome
  guards : GuardOutcome
  retried : Bool
  firstGuardsReason : Option String
  finalConfidence : ℚ
  scored : EnforcedScoring
  confident : Bool

/-- `gradeOneShot`, with the answer of the provider and the one it gives
where it is asked again. -/
def gradeOneShot (first again : GradingOutcome) (content : String)
    (criteria : List GradingRubricCriterion) : OneShotResult :=
  let guard (o : GradingOutcome) := applyGuards verifyEvidence content criteria o.criterionResults
  let retried := (guard first).runUntrustworthy
  let outcome := if retried then again else first
  let guards := guard outcome
  let finalConfidence := min guards.confidence outcome.confidenceCeiling
  { outcome
    guards
    retried
    firstGuardsReason := if retried then (guard first).reason else none
    finalConfidence
    scored := enforceScoring outcome.criterionResults criteria
    confident := guards.status = .autoApproved ∧ autoApproveConfidence ≤ finalConfidence }

end

/-! ## What the coverage guard reports -/

variable {verifyEvidence : String → String → EvidenceCheck} {content : String}
  {criteria : List GradingRubricCriterion} {criterionResults : List CriterionResult}

private theorem reason_ne (rest : String) :
    "Không định vị được dẫn chứng cho " ++ rest ≠ coverageReason := by
  intro h
  have hhead := congrArg (fun s : String => s.toList.head?) h
  rw [String.toList_append, List.head?_append_of_ne_nil _ (by decide)] at hhead
  revert hhead
  decide

theorem reason_eq_coverageReason :
    (applyGuards verifyEvidence content criteria criterionResults).reason = some coverageReason ↔
      coverageBroken criteria criterionResults = true := by
  constructor
  · intro h
    by_contra hnot
    simp only [applyGuards, hnot, if_false] at h
    split_ifs at h
    · exact reason_ne _ (Option.some.inj h)
    · exact absurd (Option.some.inj h) (by decide)
    · exact reason_ne _ (Option.some.inj h)
  · intro h
    simp only [applyGuards, h, if_true]

theorem coverageBroken_eq_false :
    coverageBroken criteria criterionResults = false ↔
      ∀ id, id ∈ criterionResults.map CriterionResult.criterionId ↔
        id ∈ criteria.map GradingRubricCriterion.id := by
  unfold coverageBroken
  set expected := criteria.map GradingRubricCriterion.id
  set returned := criterionResults.map CriterionResult.criterionId
  simp only [Bool.or_eq_false_iff, decide_eq_false_iff_not, ne_eq, not_not, List.any_eq_false,
    decide_eq_true_eq, List.mem_dedup]
  rw [← List.card_toFinset, ← List.card_toFinset]
  constructor
  · rintro ⟨hcard, hsub⟩ id
    have hsubset : expected.toFinset ⊆ returned.toFinset := by
      intro id hid
      rw [List.mem_toFinset] at hid ⊢
      exact hsub id hid
    have heq := Finset.eq_of_subset_of_card_le hsubset hcard.ge
    rw [← List.mem_toFinset, ← heq, List.mem_toFinset]
  · intro h
    have heq : expected.toFinset = returned.toFinset := by
      ext id
      rw [List.mem_toFinset, List.mem_toFinset, h id]
    exact ⟨by rw [heq], fun id hid => (h id).2 hid⟩

/-! ## When a grading is confident -/

/-- Every criterion is met at least partially, on evidence that stands in the submission. -/
def AllGrounded (verifyEvidence : String → String → EvidenceCheck) (content : String)
    (criterionResults : List CriterionResult) : Prop :=
  ∀ row ∈ criterionResults, row.verdict ≠ .notMet ∧ verifyEvidence content row.evidence = .ok

theorem applyGuards_autoApproved :
    let guards := applyGuards verifyEvidence content criteria criterionResults
    (guards.status = .autoApproved ↔ coverageBroken criteria criterionResults = false ∧
        AllGrounded verifyEvidence content criterionResults) ∧
      (guards.status = .autoApproved → autoApproveConfidence ≤ guards.confidence) := by
  let checks := criterionResults.map fun row =>
    (row.criterionId, verifyEvidence content row.evidence)
  have hgrounded : AllGrounded verifyEvidence content criterionResults ↔
      (∀ row ∈ criterionResults, row.verdict ≠ .notMet) ∧ ∀ r ∈ checks, r.2 = .ok := by
    simp [AllGrounded, checks, forall_and]
  have hcount : (checks.filter fun r => r.2 = .unverified).length = 0 ↔
      ∀ r ∈ checks, r.2 ≠ .unverified := by
    simp
  have hrefused : ((criterionResults.any fun row => row.verdict = .notMet) ||
      checks.any fun r => r.2 = .empty) = true ↔
        (∃ row ∈ criterionResults, row.verdict = .notMet) ∨ ∃ r ∈ checks, r.2 = .empty := by
    simp only [Bool.or_eq_true, List.any_eq_true, decide_eq_true_eq]
  intro guards
  unfold guards applyGuards
  rw [hgrounded]
  cases hcoverage : coverageBroken criteria criterionResults with
  | true => simp
  | false =>
    dsimp only
    rw [if_neg Bool.false_ne_true]
    have hnone : (∀ r ∈ checks, r.2 = .ok) →
        ¬ 0 < (checks.filter fun r => r.2 = .unverified).length := by
      intro h
      rw [hcount.2 fun r hr => by simp [h r hr]]
      exact Nat.lt_irrefl 0
    split_ifs with hratio hnot hsome hmet
    · refine ⟨iff_of_false nofun fun h => hnone h.2.2 ?_, nofun⟩
      exact lt_of_lt_of_le (by decide) hratio.1
    · refine ⟨iff_of_false nofun fun h => ?_, nofun⟩
      rcases hrefused.1 hnot with ⟨row, hrow, hverdict⟩ | ⟨r, hr, hempty⟩
      · exact h.2.1 row hrow hverdict
      · simp [h.2.2 r hr] at hempty
    · exact ⟨iff_of_false nofun fun h => hnone h.2.2 hsome, nofun⟩
    all_goals
      refine ⟨iff_of_true rfl ⟨rfl, ?_, ?_⟩, fun _ => by norm_num [autoApproveConfidence]⟩
      · exact fun row hrow hverdict => hnot (hrefused.2 (Or.inl ⟨row, hrow, hverdict⟩))
      · intro r hr
        have hverified := hcount.1 (Nat.eq_zero_of_not_pos hsome) r hr
        have hfull : r.2 ≠ .empty := fun hempty => hnot (hrefused.2 (Or.inr ⟨r, hr, hempty⟩))
        revert hverified hfull
        cases r.2 <;> simp

/-- The one-shot path is confident just when the answer that counts has the criteria of the
rubric, each of them met at least partially on evidence found in the submission, and the provider
allows that much confidence.  It asks again just when it does not trust the first answer. -/
theorem gradeOneShot_confident_iff (first again : GradingOutcome) :
    let run := gradeOneShot verifyEvidence first again content criteria
    run.confident = true ↔
      (∀ id, id ∈ run.outcome.criterionResults.map CriterionResult.criterionId ↔
        id ∈ criteria.map GradingRubricCriterion.id) ∧
        AllGrounded verifyEvidence content run.outcome.criterionResults ∧
          autoApproveConfidence ≤ run.outcome.confidenceCeiling := by
  intro run
  obtain ⟨hstatus, hconfidence⟩ := @applyGuards_autoApproved verifyEvidence content criteria
    run.outcome.criterionResults
  rw [← coverageBroken_eq_false, ← and_assoc, ← hstatus]
  show decide (_ ∧ autoApproveConfidence ≤ min _ _) = true ↔ _
  rw [decide_eq_true_iff, le_min_iff]
  exact ⟨fun h => ⟨h.1, h.2.2⟩, fun h => ⟨h.1, hconfidence h.1, h.2⟩⟩

end Cine.Grading
