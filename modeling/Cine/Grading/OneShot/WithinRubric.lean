import Cine.Grading.OneShot.GradingGuards
import Mathlib.Algebra.Order.BigOperators.Group.List

/-!
# Does a one-shot score stay within the rubric

The coverage guard compares the ids that came back with those of the
rubric as sets, and the total is summed over the list.  An id that comes
back twice passes the guard and is counted twice.  `withinRubric_iff` says
that this is the only way out of the rubric: where the guard reports no
broken coverage, the score is within the rubric exactly when no id is
repeated.
-/

namespace Cine.Grading

/-- Every criterion contributes once, each contribution is between 0 and
the maximum of its criterion, and the total between 0 and the sum of the
maxima. -/
structure EnforcedScoring.WithinRubric (scored : EnforcedScoring) (rubric : GradingRubric) :
    Prop where
  once : ∀ c ∈ rubric.criteria,
    scored.criterionResults.countP (fun row => row.criterionId = c.id) = 1
  bounds : ∀ row ∈ scored.criterionResults, ∃ c ∈ rubric.criteria,
    row.criterionId = c.id ∧ 0 ≤ row.points ∧ row.points ≤ c.maxPoints
  nonneg : 0 ≤ scored.totalScore
  total : scored.totalScore ≤ (rubric.criteria.map GradingRubricCriterion.maxPoints).sum

variable {rubric : GradingRubric} {criterionResults : List CriterionResult}

theorem enforceScoring_criterionIds (criteria : List GradingRubricCriterion) :
    (enforceScoring criterionResults criteria).criterionResults.map CriterionResult.criterionId =
      criterionResults.map CriterionResult.criterionId := by
  simp [enforceScoring, Function.comp_def]

theorem enforceScoring_totalScore (criteria : List GradingRubricCriterion) :
    (enforceScoring criterionResults criteria).totalScore =
      ((enforceScoring criterionResults criteria).criterionResults.map
        CriterionResult.points).sum := by
  rw [List.sum_eq_foldl]
  rfl

theorem enforceScoring_bounds
    (hids : ∀ id ∈ criterionResults.map CriterionResult.criterionId,
      id ∈ rubric.criteria.map GradingRubricCriterion.id)
    {row : CriterionResult}
    (hrow : row ∈ (enforceScoring criterionResults rubric.criteria).criterionResults) :
    ∃ c ∈ rubric.criteria, row.criterionId = c.id ∧ 0 ≤ row.points ∧ row.points ≤ c.maxPoints := by
  obtain ⟨row₀, hrow₀, rfl⟩ := List.mem_map.1 hrow
  obtain ⟨c, hc, hid⟩ := List.mem_map.1 (hids _ (List.mem_map_of_mem hrow₀))
  refine ⟨c, hc, hid.symm, ?_⟩
  show 0 ≤ pointsFor row₀.verdict ((maxByCriterion rubric.criteria row₀.criterionId).getD 0) ∧
    pointsFor row₀.verdict ((maxByCriterion rubric.criteria row₀.criterionId).getD 0) ≤ c.maxPoints
  rw [← hid, rubric.maxByCriterion_of_mem hc]
  exact pointsFor_mem (rubric.points c hc)

/-- The maximum that a row of the rubric may reach. -/
def maxOf (rubric : GradingRubric) (id : String) : ℚ :=
  (maxByCriterion rubric.criteria id).getD 0

theorem sum_maxOf (rubric : GradingRubric) :
    ((rubric.criteria.map GradingRubricCriterion.id).map (maxOf rubric)).sum =
      (rubric.criteria.map GradingRubricCriterion.maxPoints).sum := by
  congr 1
  rw [List.map_map]
  refine List.map_congr_left fun c hc => ?_
  rw [Function.comp_apply, maxOf, rubric.maxByCriterion_of_mem hc, Option.getD_some]

theorem totalScore_le
    (hids : ∀ id, id ∈ criterionResults.map CriterionResult.criterionId ↔
      id ∈ rubric.criteria.map GradingRubricCriterion.id)
    (hnodup : (criterionResults.map CriterionResult.criterionId).Nodup) :
    (enforceScoring criterionResults rubric.criteria).totalScore ≤
      (rubric.criteria.map GradingRubricCriterion.maxPoints).sum := by
  have hperm : (criterionResults.map CriterionResult.criterionId).Perm
      (rubric.criteria.map GradingRubricCriterion.id) :=
    (List.perm_ext_iff_of_nodup hnodup rubric.ids).2 hids
  rw [enforceScoring_totalScore]
  calc ((enforceScoring criterionResults rubric.criteria).criterionResults.map
        CriterionResult.points).sum
      ≤ ((enforceScoring criterionResults rubric.criteria).criterionResults.map
          fun row => maxOf rubric row.criterionId).sum := by
        refine List.sum_le_sum fun row hrow => ?_
        obtain ⟨c, hc, hid, _, hle⟩ := enforceScoring_bounds (fun id => (hids id).1) hrow
        rw [maxOf, hid, rubric.maxByCriterion_of_mem hc]
        exact hle
    _ = ((criterionResults.map CriterionResult.criterionId).map (maxOf rubric)).sum := by
        rw [← enforceScoring_criterionIds rubric.criteria, List.map_map]
        rfl
    _ = ((rubric.criteria.map GradingRubricCriterion.id).map (maxOf rubric)).sum :=
        (hperm.map _).sum_eq
    _ = (rubric.criteria.map GradingRubricCriterion.maxPoints).sum := sum_maxOf rubric

theorem countP_criterionId (rows : List CriterionResult) (id : String) :
    rows.countP (fun row => row.criterionId = id) =
      (rows.map CriterionResult.criterionId).count id := by
  rw [List.count, List.countP_map]
  refine List.countP_congr fun row _ => ?_
  simp

/-- Where the guards report no broken coverage, the score is within the
rubric exactly when no criterion comes back twice. -/
theorem withinRubric_iff (verifyEvidence : String → String → EvidenceCheck) (content : String)
    (rubric : GradingRubric) (criterionResults : List CriterionResult)
    (hcoverage : (applyGuards verifyEvidence content rubric.criteria criterionResults).reason ≠
      some coverageReason) :
    (enforceScoring criterionResults rubric.criteria).WithinRubric rubric ↔
      (criterionResults.map CriterionResult.criterionId).Nodup := by
  have hids := coverageBroken_eq_false.1 (by
    rw [ne_eq, reason_eq_coverageReason] at hcoverage
    simpa using hcoverage)
  have hcount (id : String) :
      (enforceScoring criterionResults rubric.criteria).criterionResults.countP
          (fun row => row.criterionId = id) =
        (criterionResults.map CriterionResult.criterionId).count id := by
    rw [countP_criterionId, enforceScoring_criterionIds]
  constructor
  · intro h
    rw [List.nodup_iff_count_le_one]
    intro id
    by_cases hid : id ∈ criterionResults.map CriterionResult.criterionId
    · obtain ⟨c, hc, rfl⟩ := List.mem_map.1 ((hids id).1 hid)
      rw [← hcount, h.once c hc]
    · rw [List.count_eq_zero_of_not_mem hid]
      exact Nat.zero_le 1
  · intro hnodup
    have hbounds : ∀ row ∈ (enforceScoring criterionResults rubric.criteria).criterionResults, _ :=
      fun row hrow => enforceScoring_bounds (fun id => (hids id).1) hrow
    refine ⟨fun c hc => ?_, hbounds, ?_, totalScore_le hids hnodup⟩
    · rw [hcount]
      exact List.count_eq_one_of_mem hnodup ((hids c.id).2 (List.mem_map_of_mem hc))
    · rw [enforceScoring_totalScore]
      refine List.sum_nonneg fun p hp => ?_
      obtain ⟨row, hrow, rfl⟩ := List.mem_map.1 hp
      obtain ⟨_, _, _, hnonneg, _⟩ := hbounds row hrow
      exact hnonneg

/-! ## A criterion that comes back twice -/

/-- Six points for the result and four for the form. -/
def resultAndForm : GradingRubric where
  criteria := [⟨"c1", "Tính đúng", 6⟩, ⟨"c2", "Trình bày", 4⟩]
  ids := by decide
  points := by decide +kernel

def metRow (id : String) : CriterionResult :=
  ⟨id, .met, 0, "int main() { return 0; }"⟩

/-- The first criterion comes back twice: the guards approve the grading,
and the total is 16 of 10. -/
theorem repeated_exceeds_rubric :
    (applyGuards (fun _ _ => .ok) "int main() { return 0; }" resultAndForm.criteria
        [metRow "c1", metRow "c1", metRow "c2"]).status = .autoApproved ∧
      (applyGuards (fun _ _ => .ok) "int main() { return 0; }" resultAndForm.criteria
        [metRow "c1", metRow "c1", metRow "c2"]).reason ≠ some coverageReason ∧
      ¬ (enforceScoring [metRow "c1", metRow "c1", metRow "c2"]
        resultAndForm.criteria).WithinRubric resultAndForm := by
  refine ⟨by decide, by decide, fun h => ?_⟩
  exact absurd h.total (by decide +kernel)

/-- Each criterion once, in another order. -/
theorem withinRubric_reordered :
    (enforceScoring [metRow "c2", metRow "c1"] resultAndForm.criteria).WithinRubric
      resultAndForm :=
  (withinRubric_iff (fun _ _ => .ok) "int main() { return 0; }" resultAndForm
    [metRow "c2", metRow "c1"] (by decide)).2 (by decide)

end Cine.Grading
