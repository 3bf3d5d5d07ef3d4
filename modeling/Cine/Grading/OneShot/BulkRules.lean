import Cine.Grading.OneShot.EnforceScoring
import Cine.Lib.OrderedMap

/-!
# A rule for a whole class

`grading/bulk-rules.ts`, with the request of `grading/dto/bulk-review.dto.ts`
and `narrowRule` of `grading/bulk-review.service.ts`.  A rule turns the result
of a paper into the criteria of a review.  It goes through the rubric, and not
through the result.

`ruledCriterion_within` treats one criterion, and `applyRule_within` the paper.
-/

namespace Cine.Grading

open Cine.Lib

/-! ## The request -/

inductive BulkRuleKind
  | keepAi
  | applyAdvocate
  | criterionFullMarks
  | criterionBonus
deriving DecidableEq, Repr

structure BulkRuleDto where
  kind : BulkRuleKind
  criterionId : Option String
  points : Option ℚ
deriving DecidableEq, Repr

/-- The decorators of `BulkRuleDto`. -/
structure BulkRuleDto.Valid (isUuid : String → Bool) (dto : BulkRuleDto) : Prop where
  criterionId : ∀ id, dto.criterionId = some id → isUuid id = true
  twoPlaces : ∀ p, dto.points = some p → ∃ n : ℤ, p * 100 = n
  nonneg : ∀ p, dto.points = some p → 0 ≤ p

inductive BulkRule
  | keepAi
  | applyAdvocate
  | criterionFullMarks (criterionId : String)
  | criterionBonus (criterionId : String) (points : ℚ)
deriving DecidableEq, Repr

inductive NarrowFailure
  | noCriterion (kind : BulkRuleKind)
  | noPoints
deriving DecidableEq, Repr

/-- `narrowRule`.  An empty id is no id. -/
def narrowRule (dto : BulkRuleDto) : Except NarrowFailure BulkRule :=
  match dto.kind with
  | .keepAi => .ok .keepAi
  | .applyAdvocate => .ok .applyAdvocate
  | kind =>
    match dto.criterionId with
    | none => .error (.noCriterion kind)
    | some criterionId =>
      if criterionId = "" then .error (.noCriterion kind)
      else if kind = .criterionFullMarks then .ok (.criterionFullMarks criterionId)
      else
        match dto.points with
        | none => .error .noPoints
        | some points => .ok (.criterionBonus criterionId points)

theorem bonus_nonneg {isUuid : String → Bool} {dto : BulkRuleDto} (hdto : dto.Valid isUuid)
    {criterionId : String} {points : ℚ}
    (h : narrowRule dto = .ok (.criterionBonus criterionId points)) : 0 ≤ points := by
  unfold narrowRule at h
  split at h
  · cases h
  · cases h
  · split at h
    · cases h
    · split_ifs at h
      · cases h
      · split at h
        · cases h
        · rename_i hpoints
          cases h
          exact hdto.nonneg _ hpoints

/-! ## The rule -/

structure RuleCriterion where
  criterionId : String
  verdict : CriterionVerdict
  points : ℚ
deriving DecidableEq, Repr

/-- A criterion of the rubric, as a rule knows it. -/
structure RubricMaximum where
  id : String
  maxPoints : ℚ
deriving DecidableEq, Repr

structure AdvocateSuggestion where
  criterionId : String
  suggestedVerdict : CriterionVerdict
deriving DecidableEq, Repr

structure RuleInput where
  rubricCriteria : List RubricMaximum
  criterionResults : List CriterionResult
  /-- `advocateOpinion.suggestedVerdicts`. -/
  advocateOpinion : Option (List AdvocateSuggestion)

inductive RuleOutcome
  | ok (criteria : List RuleCriterion)
  | noAdvocate
deriving DecidableEq, Repr

def verdictForPoints (points maxPoints : ℚ) : CriterionVerdict :=
  if maxPoints ≤ points then .met
  else if points ≤ 0 then .notMet
  else .partiallyMet

namespace RuleInput

variable (input : RuleInput)

/-- `byId.get(id)`. -/
def resultOf (id : String) : Option CriterionResult :=
  (OrderedMap.ofList (input.criterionResults.map fun row => (row.criterionId, row))).get? id

/-- `suggested.get(id)`. -/
def suggestedOf (id : String) : Option CriterionVerdict :=
  (OrderedMap.ofList ((input.advocateOpinion.getD []).map fun s =>
    (s.criterionId, s.suggestedVerdict))).get? id

def aiPoints (id : String) : ℚ := ((input.resultOf id).map CriterionResult.points).getD 0

def aiVerdict (id : String) : CriterionVerdict :=
  ((input.resultOf id).map CriterionResult.verdict).getD .notMet

def untouched (criterion : RubricMaximum) : RuleCriterion where
  criterionId := criterion.id
  verdict := input.aiVerdict criterion.id
  points := input.aiPoints criterion.id

/-- One criterion of the rubric under a rule. -/
def ruledCriterion (rule : BulkRule) (criterion : RubricMaximum) : RuleCriterion :=
  match rule with
  | .keepAi => input.untouched criterion
  | .applyAdvocate =>
    match input.suggestedOf criterion.id with
    | none => input.untouched criterion
    | some verdict =>
      let points := max (input.aiPoints criterion.id) (pointsFor verdict criterion.maxPoints)
      { criterionId := criterion.id
        verdict := verdictForPoints points criterion.maxPoints
        points := points }
  | .criterionFullMarks criterionId =>
    if criterion.id ≠ criterionId then input.untouched criterion
    else { criterionId := criterion.id, verdict := .met, points := criterion.maxPoints }
  | .criterionBonus criterionId bonus =>
    if criterion.id ≠ criterionId then input.untouched criterion
    else
      let points := min (input.aiPoints criterion.id + bonus) criterion.maxPoints
      { criterionId := criterion.id
        verdict := verdictForPoints points criterion.maxPoints
        points := points }

end RuleInput

def applyRule (rule : BulkRule) (input : RuleInput) : RuleOutcome :=
  if rule = .applyAdvocate ∧ input.advocateOpinion = none then .noAdvocate
  else .ok (input.rubricCriteria.map (input.ruledCriterion rule))

/-! ## Points within the rubric -/

/-- The rubric has no negative maximum, and the points of the result are within
the maximum of their criterion. -/
structure RuleInput.Valid (input : RuleInput) : Prop where
  maximum : ∀ c ∈ input.rubricCriteria, 0 ≤ c.maxPoints
  points : ∀ c ∈ input.rubricCriteria, ∀ row ∈ input.criterionResults,
    row.criterionId = c.id → 0 ≤ row.points ∧ row.points ≤ c.maxPoints

/-- A rule has done to a criterion what it may do. -/
structure Ruled (input : RuleInput) (rule : BulkRule) (criterion : RubricMaximum)
    (r : RuleCriterion) : Prop where
  criterionId : r.criterionId = criterion.id
  nonneg : 0 ≤ r.points
  le_max : r.points ≤ criterion.maxPoints
  advocate : rule = .applyAdvocate → input.aiPoints criterion.id ≤ r.points

variable {input : RuleInput} {rule : BulkRule} {criterion : RubricMaximum}

theorem aiPoints_within (hinput : input.Valid) (hc : criterion ∈ input.rubricCriteria) :
    0 ≤ input.aiPoints criterion.id ∧ input.aiPoints criterion.id ≤ criterion.maxPoints := by
  unfold RuleInput.aiPoints
  cases hrow : input.resultOf criterion.id with
  | none => exact ⟨le_refl 0, hinput.maximum criterion hc⟩
  | some row =>
    obtain ⟨row', hrow', heq⟩ := List.mem_map.1 (OrderedMap.mem_of_get?_ofList hrow)
    obtain ⟨hid, rfl⟩ := Prod.mk.inj heq
    exact hinput.points criterion hc _ hrow' hid

theorem ruled_untouched (hinput : input.Valid) (hc : criterion ∈ input.rubricCriteria) :
    Ruled input rule criterion (input.untouched criterion) where
  criterionId := rfl
  nonneg := (aiPoints_within hinput hc).1
  le_max := (aiPoints_within hinput hc).2
  advocate := fun _ => le_refl _

theorem ruledCriterion_within (hinput : input.Valid) (hc : criterion ∈ input.rubricCriteria)
    (hbonus : ∀ id bonus, rule = .criterionBonus id bonus → 0 ≤ bonus) :
    Ruled input rule criterion (input.ruledCriterion rule criterion) := by
  obtain ⟨hnonneg, hle⟩ := aiPoints_within hinput hc
  have hmax := hinput.maximum criterion hc
  unfold RuleInput.ruledCriterion
  cases rule with
  | keepAi => exact ruled_untouched hinput hc
  | applyAdvocate =>
    dsimp only
    split
    · exact ruled_untouched hinput hc
    · rename_i verdict _
      exact
        { criterionId := rfl
          nonneg := le_max_of_le_left hnonneg
          le_max := max_le hle (pointsFor_mem hmax).2
          advocate := fun _ => le_max_left _ _ }
  | criterionFullMarks id =>
    dsimp only
    split_ifs
    · exact ruled_untouched hinput hc
    · exact
        { criterionId := rfl
          nonneg := hmax
          le_max := le_refl _
          advocate := nofun }
  | criterionBonus id bonus =>
    dsimp only
    split_ifs
    · exact ruled_untouched hinput hc
    · exact
        { criterionId := rfl
          nonneg := le_min (add_nonneg hnonneg (hbonus id bonus rfl)) hmax
          le_max := min_le_right _ _
          advocate := nofun }

/-- An admitted rule is refused only where there is no opinion to apply.  Else
it gives the criteria of the rubric in their order, with points between zero
and the maximum, and an opinion lowers the points of no criterion. -/
theorem applyRule_within {isUuid : String → Bool} {dto : BulkRuleDto} {rule : BulkRule}
    (hdto : dto.Valid isUuid) (hrule : narrowRule dto = .ok rule) {input : RuleInput}
    (hinput : input.Valid) :
    (applyRule rule input = .noAdvocate ↔
      rule = .applyAdvocate ∧ input.advocateOpinion = none) ∧
    (¬ (rule = .applyAdvocate ∧ input.advocateOpinion = none) →
      ∃ criteria, applyRule rule input = .ok criteria ∧
        List.Forall₂ (Ruled input rule) input.rubricCriteria criteria) := by
  have hbonus : ∀ id bonus, rule = .criterionBonus id bonus → 0 ≤ bonus := by
    rintro id bonus rfl
    exact bonus_nonneg hdto hrule
  unfold applyRule
  constructor
  · split_ifs with h
    · exact ⟨fun _ => h, fun _ => rfl⟩
    · exact ⟨nofun, fun ha => absurd ha h⟩
  · intro h
    rw [if_neg h]
    refine ⟨_, rfl, List.forall₂_map_right_iff.2 (List.forall₂_same.2 fun c hc => ?_)⟩
    exact ruledCriterion_within hinput hc hbonus

/-- A paper with two criteria, where the result has no row for the second. -/
def halfResult (advocateOpinion : Option (List AdvocateSuggestion)) : RuleInput where
  rubricCriteria := [⟨"c1", 4⟩, ⟨"c2", 6⟩]
  criterionResults := [⟨"c1", .partiallyMet, 2, "int main"⟩]
  advocateOpinion := advocateOpinion

theorem valid_halfResult (advocateOpinion : Option (List AdvocateSuggestion)) :
    (halfResult advocateOpinion).Valid where
  maximum := by
    intro c hc
    simp only [halfResult, List.mem_cons, List.not_mem_nil, or_false] at hc
    rcases hc with rfl | rfl <;> norm_num
  points := by
    intro c hc row hrow hid
    obtain rfl := List.mem_singleton.1 hrow
    simp only [halfResult, List.mem_cons, List.not_mem_nil, or_false] at hc
    rcases hc with rfl | rfl
    · norm_num
    · exact absurd hid (by decide)

/-- The request to apply the opinion. -/
def advocateDto : BulkRuleDto := ⟨.applyAdvocate, none, none⟩

theorem valid_advocateDto : advocateDto.Valid fun _ => true := ⟨nofun, nofun, nofun⟩

theorem applyRule_halfResult :
    applyRule .applyAdvocate (halfResult (some [⟨"c2", .met⟩])) ≠ .noAdvocate ∧
      ∃ criteria, applyRule .applyAdvocate (halfResult (some [⟨"c2", .met⟩])) = .ok criteria ∧
        List.Forall₂ (Ruled (halfResult (some [⟨"c2", .met⟩])) .applyAdvocate)
          (halfResult (some [⟨"c2", .met⟩])).rubricCriteria criteria := by
  obtain ⟨hrefused, hruled⟩ := applyRule_within valid_advocateDto rfl
    (valid_halfResult (some [⟨"c2", .met⟩]))
  exact ⟨fun h => (nomatch (hrefused.1 h).2), hruled fun h => (nomatch h.2)⟩

/-- Without an opinion there is nothing to apply. -/
theorem applyRule_refused :
    advocateDto.Valid (fun _ => true) ∧ narrowRule advocateDto = .ok .applyAdvocate ∧
      (halfResult none).Valid ∧
      ∀ criteria, applyRule .applyAdvocate (halfResult none) ≠ .ok criteria :=
  ⟨valid_advocateDto, rfl, valid_halfResult none, nofun⟩

end Cine.Grading
