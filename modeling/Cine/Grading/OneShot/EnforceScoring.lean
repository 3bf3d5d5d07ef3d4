import Mathlib.Data.Rat.Floor
import Mathlib.Data.List.Nodup

/-!
# The points of a one-shot grading

`grading/ai-provider/ai-grading-provider.ts`.  The model judges and the
code counts: `enforceScoring` computes the points of every row from its
verdict and forgets the points that the provider sent.

Points are exact rational numbers here; a script rounds them.
-/

namespace Cine.Grading

inductive CriterionVerdict
  | met
  | partiallyMet
  | notMet
deriving DecidableEq, Repr

structure CriterionResult where
  criterionId : String
  verdict : CriterionVerdict
  points : ℚ
  evidence : String
deriving DecidableEq, Repr

structure GradingRubricCriterion where
  id : String
  description : String
  maxPoints : ℚ
deriving DecidableEq, Repr

/-- The criteria of a stored rubric: an id is a primary key, and points are
checked when the rubric is saved. -/
structure GradingRubric where
  criteria : List GradingRubricCriterion
  ids : (criteria.map GradingRubricCriterion.id).Nodup
  points : ∀ c ∈ criteria, 0 ≤ c.maxPoints

/-- `Math.round`. -/
def mathRound (x : ℚ) : ℤ :=
  ⌊x + 1 / 2⌋

def pointsFor : CriterionVerdict → ℚ → ℚ
  | .met, maxPoints => maxPoints
  | .partiallyMet, maxPoints => mathRound (maxPoints * 50) / 100
  | .notMet, _ => 0

structure EnforcedScoring where
  criterionResults : List CriterionResult
  totalScore : ℚ
  unknownCriterionIds : List String
deriving DecidableEq, Repr

/-- `maxByCriterion.get(id)`: of two criteria with one id the last counts. -/
def maxByCriterion (criteria : List GradingRubricCriterion) (id : String) : Option ℚ :=
  (criteria.reverse.find? fun c => c.id = id).map GradingRubricCriterion.maxPoints

def enforceScoring (criterionResults : List CriterionResult)
    (criteria : List GradingRubricCriterion) : EnforcedScoring :=
  let enforced := criterionResults.map fun row =>
    { row with points := pointsFor row.verdict ((maxByCriterion criteria row.criterionId).getD 0) }
  { criterionResults := enforced
    totalScore := (enforced.map CriterionResult.points).foldl (· + ·) 0
    unknownCriterionIds :=
      (criterionResults.filter fun row => maxByCriterion criteria row.criterionId = none).map
        CriterionResult.criterionId }

/-! ## Points within the maximum -/

theorem pointsFor_mem {verdict : CriterionVerdict} {maxPoints : ℚ} (h : 0 ≤ maxPoints) :
    0 ≤ pointsFor verdict maxPoints ∧ pointsFor verdict maxPoints ≤ maxPoints := by
  cases verdict with
  | met => exact ⟨h, le_refl _⟩
  | notMet => exact ⟨le_refl _, h⟩
  | partiallyMet =>
    simp only [pointsFor, mathRound]
    have hlo : (0 : ℤ) ≤ ⌊maxPoints * 50 + 1 / 2⌋ := Int.floor_nonneg.2 (by linarith)
    have hfloor := Int.floor_le (maxPoints * 50 + 1 / 2)
    have hlo' : (0 : ℚ) ≤ (⌊maxPoints * 50 + 1 / 2⌋ : ℤ) := by exact_mod_cast hlo
    refine ⟨by linarith, ?_⟩
    by_cases hsmall : maxPoints * 50 < 1 / 2
    · have hzero : ⌊maxPoints * 50 + 1 / 2⌋ = 0 := by
        rw [Int.floor_eq_zero_iff]
        constructor <;> linarith
      rw [hzero]
      simpa using h
    · linarith

namespace GradingRubric

variable (rubric : GradingRubric)

theorem maxByCriterion_of_mem {c : GradingRubricCriterion} (hc : c ∈ rubric.criteria) :
    maxByCriterion rubric.criteria c.id = some c.maxPoints := by
  unfold maxByCriterion
  have hsome : (rubric.criteria.reverse.find? fun d => d.id = c.id).isSome := by
    simp only [List.find?_isSome, List.mem_reverse, decide_eq_true_eq]
    exact ⟨c, hc, rfl⟩
  obtain ⟨d, hd⟩ := Option.isSome_iff_exists.1 hsome
  have hid : d.id = c.id := by simpa using List.find?_some hd
  have hmem : d ∈ rubric.criteria := by simpa using List.mem_of_find?_eq_some hd
  rw [hd, Option.map_some, List.inj_on_of_nodup_map rubric.ids hmem hc hid]

end GradingRubric

end Cine.Grading
