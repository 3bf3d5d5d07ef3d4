import Cine.Grading.Rules.RubricErrors

/-!
# Rules, prices and marked criteria

`grading/rules/error-rule.service.ts`, `price.service.ts` and
`criterion-waiver.service.ts`.

* `revise` changes a rule in every rubric that uses it, and recomputes when
  the condition of the rule changed.
* `setState` retires or dismisses a rule everywhere.
* `split` gives one rubric a rule of its own, with the exceptions of its
  papers.
* `setPrice` recomputes the papers of one rubric that have the error.
-/

namespace Cine.Grading

open Cine.Lib

variable {K : Type} [Number K]

def revise (env : GradingEnv K) (ruleId : String) (changes : RuleChanges) : DbTx K String := do
  let rule ← ownedRule ruleId
  let revisionId ← freshId env fun db => db.rules.map fun r => r.current.id
  let next :=
    { changes.apply rule.current with id := revisionId, revision := rule.current.revision + 1 }
  modify fun db => db.updateRule rule.id fun r => { r with current := next }
  if next.predicate ≠ rule.current.predicate then recomputeForTeacher env .ruleRevision {}
  return revisionId

/-- The two states that take a rule out of use. -/
inductive EndState
  | dismissed
  | retired
deriving DecidableEq, Repr

def EndState.toRuleState : EndState → RuleState
  | .dismissed => .dismissed
  | .retired => .retired

def setState (env : GradingEnv K) (ruleId : String) (state : EndState) : DbTx K Unit := do
  let rule ← ownedRule ruleId
  modify fun db => db.updateRule rule.id fun r => { r with state := state.toRuleState }
  recomputeForTeacher env .ruleRevision {}

/-- The exceptions for a rule on the papers of a rubric, as exceptions for
another rule. -/
def Db.copiedExceptions (db : Db K) (rubricName ruleId newRuleId : String) : List ReviewRow :=
  (sortByKey ResultRow.id (db.results.filter fun g =>
    (db.rubric g.rubricIdVersion).any fun rb => rb.name = rubricName)).filterMap fun g =>
      ((db.exceptionsOf g.id).get? ruleId).map fun direction =>
        { gradingResultId := g.id
          kind := .errorException
          finalScore := none
          errorRuleId := some newRuleId
          direction := some direction }

def split (env : GradingEnv K) (ruleId rubricName : String) (changes : RuleChanges) :
    DbTx K (String × String) := do
  let rule ← ownedRule ruleId
  let db ← get
  match db.rubricErrors.find? fun re =>
      re.rubricName = rubricName ∧ re.errorRuleId = ruleId ∧ re.removed = false with
  | none => throw (.notFound "Không tìm thấy lỗi trong rubric")
  | some assignment =>
    let uses := ((db.rubricErrors.filter fun re =>
      re.errorRuleId = ruleId ∧ re.removed = false).map RubricErrorRow.rubricName).eraseDups
    if uses.length < 2 then
      throw (.conflict
        "Lỗi này chỉ dùng ở một rubric — sửa trực tiếp, không cần tách bản riêng")
    let merged := changes.apply rule.current
    let ruleKey ← uniqueRuleKey (env.slugifyRuleKey merged.name)
    let newRuleId ← insertRule env ruleKey merged.name merged.description merged.predicate
    modify fun db => db.updateRubricError assignment.id fun re =>
      { re with errorRuleId := newRuleId }
    modify fun db => { db with
      reviews := db.reviews ++ db.copiedExceptions rubricName ruleId newRuleId }
    recomputeRubric env rubricName
    return (newRuleId, assignment.id)

def setPrice (env : GradingEnv K) (rubricErrorId : String) (deduction : Option Int) :
    DbTx K String := do
  let assignment ← ownedRubricError rubricErrorId
  let versionId ← writeNextPriceVersion env [⟨rubricErrorId, deduction⟩]
  recomputeForTeacher env .priceChange
    { rubricName := some assignment.rubricName, ruleId := some assignment.errorRuleId }
  return versionId

/-! ## Marked criteria -/

def ownedRubric (rubricId message : String) : DbTx K RubricRow := do
  let db ← get
  match db.rubric rubricId with
  | some rubric => return rubric
  | none => throw (.notFound message)

/-- `set`: a criterion is marked as having no rule.  A second mark changes
nothing. -/
def setWaiver (env : GradingEnv K) (rubricId criterionKey : String) : DbTx K String := do
  let rubric ← ownedRubric rubricId "Không tìm thấy rubric"
  if criterionKey ∉ rubric.criteria.map RubricCriterion.key then
    throw (.badRequest ("Tiêu chí \"" ++ criterionKey ++ "\" không có trong rubric này"))
  let db ← get
  match db.waivers.find? fun w =>
      w.rubricId = rubricId ∧ w.criterionKey = criterionKey ∧ w.revoked = false with
  | some active => return active.id
  | none =>
    let id ← freshId env fun db => db.waivers.map WaiverRow.id
    modify fun db => { db with waivers := db.waivers ++ [⟨id, rubricId, criterionKey, false⟩] }
    recomputeForTeacher env .criterionWaiver { rubricId := some rubricId }
    return id

/-- `revoke`. -/
def revokeWaiver (env : GradingEnv K) (waiverId : String) : DbTx K Unit := do
  let db ← get
  match rowOf WaiverRow.id db.waivers waiverId with
  | none => throw (.notFound "Không tìm thấy đánh dấu")
  | some waiver =>
    let _ ← ownedRubric (K := K) waiver.rubricId "Không tìm thấy đánh dấu"
    if waiver.revoked then throw (.conflict "Đánh dấu này đã được gỡ")
    set { db with
      waivers := updateRow WaiverRow.id db.waivers waiverId fun w => { w with revoked := true } }
    recomputeForTeacher env .criterionWaiver { rubricId := some waiver.rubricId }

end Cine.Grading
