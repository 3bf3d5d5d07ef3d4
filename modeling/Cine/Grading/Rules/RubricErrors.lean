import Cine.Grading.Scoring.ScoreService

/-!
# The errors of a rubric

`grading/rules/rubric-error.service.ts` with `price-version.ts` and
`rule-key.ts`: a rule is put to use in a rubric, moved to another
criterion, taken out, and copied with its neighbours to another rubric.

Each operation ends with a recomputation of the rubric it changed, except
that `assign` recomputes only for a rule that the machine checks.
-/

namespace Cine.Grading

open Cine.Lib

variable {K : Type}

/-! ## Input -/

structure NewRuleInput where
  name : String
  description : String
  predicate : Option RulePredicate
  ruleKey : Option String
deriving DecidableEq, Repr

/-- The fields of a rule that a change sets. -/
structure RuleChanges where
  name : Option String := none
  description : Option String := none
  predicate : Option (Option RulePredicate) := none
deriving DecidableEq, Repr

/-- `Object.keys(changes).length > 0`. -/
def RuleChanges.any (c : RuleChanges) : Bool :=
  c.name.isSome || c.description.isSome || c.predicate.isSome

/-- A revision with the changes of `c`. -/
def RuleChanges.apply (c : RuleChanges) (r : RuleRevision) : RuleRevision :=
  { r with
    name := c.name.getD r.name
    description := c.description.getD r.description
    predicate := c.predicate.getD r.predicate }

/-- The rule that is put to use.  `parseAssignInput` asks for exactly one of
the two. -/
inductive AssignTarget
  | existing (ruleId : String) (changes : Option RuleChanges)
  | new (input : NewRuleInput)
deriving DecidableEq, Repr

structure AssignInput where
  rubricName : String
  criterionKey : String
  /-- Absent, or a price that may be `null`. -/
  deduction : Option (Option Int)
  target : AssignTarget
deriving DecidableEq, Repr

/-! ## Prices -/

/-- `writeNextPriceVersion`: a new price table with the prices of the last
one and the changed ones. -/
def writeNextPriceVersion (env : GradingEnv K) (changes : List PriceRow) : DbTx K String := do
  let id ← freshId env fun db => db.priceVersions.map PriceVersionRow.id
  modify fun db =>
    let next := (db.currentPriceVersion.map PriceVersionRow.version).getD 0 + 1
    let carried := ((db.currentPriceVersion.map PriceVersionRow.prices).getD []).filter fun p =>
      p.rubricErrorId ∉ changes.map PriceRow.rubricErrorId
    { db with priceVersions := db.priceVersions ++ [⟨id, next, carried ++ changes⟩] }
  return id

/-! ## Rules -/

/-- The first of `base`, `base_2`, … that no rule has. -/
def Db.freeRuleKey (db : Db K) (base : String) : Option String :=
  ((List.range 999).map fun n => if n = 0 then base else s!"{base}_{n + 1}").find? fun key =>
    key ∉ db.rules.map ErrorRuleRow.ruleKey

def uniqueRuleKey (base : String) : DbTx K String := do
  let db ← get
  match db.freeRuleKey base with
  | some key => return key
  | none => throw (.error "không sinh được khoá luật duy nhất")

/-- A new active rule of the teacher. -/
def insertRule (env : GradingEnv K) (ruleKey name description : String)
    (predicate : Option RulePredicate) : DbTx K String := do
  let id ← freshId env fun db => db.rules.map ErrorRuleRow.id
  let revisionId ← freshId env fun db => db.rules.map fun r => r.current.id
  modify fun db => { db with
    rules := db.rules ++
      [{ id := id
         ruleKey := ruleKey
         state := .active
         origin := .teacher
         current :=
           { id := revisionId
             revision := 1
             name := name
             description := description
             predicate := predicate } }] }
  return id

/-- The key of a new rule: the one that was asked for, or one for its name. -/
def chooseRuleKey (env : GradingEnv K) (input : NewRuleInput) : DbTx K String := do
  let db ← get
  match input.ruleKey.filter (· ≠ "") with
  | some key =>
    if key ∈ db.rules.map ErrorRuleRow.ruleKey then
      throw (.conflict s!"Luật \"{key}\" đã có trong bảng lỗi của bạn")
    else return key
  | none => uniqueRuleKey (env.slugifyRuleKey input.name)

def createRule (env : GradingEnv K) (input : NewRuleInput) :
    DbTx K (String × Option RulePredicate) := do
  let ruleKey ← chooseRuleKey env input
  let ruleId ← insertRule env ruleKey input.name input.description input.predicate
  return (ruleId, input.predicate)

/-- `UPDATE error_rule … WHERE id = …`. -/
def Db.updateRule (db : Db K) (id : String) (f : ErrorRuleRow → ErrorRuleRow) : Db K :=
  { db with rules := updateRow ErrorRuleRow.id db.rules id f }

/-- `owned` of a rule. -/
def ownedRule (ruleId : String) : DbTx K ErrorRuleRow := do
  let db ← get
  match db.rule ruleId with
  | some rule => return rule
  | none => throw (.notFound "Không tìm thấy luật")

/-- `adoptRule`: a rule that is active, or a proposal that becomes active,
with its changes. -/
def adoptRule (env : GradingEnv K) (ruleId : String) (changes : Option RuleChanges) :
    DbTx K (String × Option RulePredicate) := do
  let rule ← ownedRule ruleId
  if rule.state ≠ .active ∧ rule.state ≠ .proposed then
    throw (.conflict "Lỗi này đã bị bỏ hoặc gỡ — không thêm vào rubric được")
  let changes := changes.filter RuleChanges.any
  if changes.isSome ∧ rule.state ≠ .proposed then
    throw (.badRequest "changes chỉ dùng cho lỗi AI đề xuất")
  if rule.state = .active then return (rule.id, rule.current.predicate)
  match changes with
  | none =>
    modify fun db => db.updateRule rule.id fun r => { r with state := .active }
    return (rule.id, rule.current.predicate)
  | some c =>
    let revisionId ← freshId env fun db => db.rules.map fun r => r.current.id
    let next := { c.apply rule.current with id := revisionId, revision := rule.current.revision + 1 }
    modify fun db => db.updateRule rule.id fun r => { r with state := .active, current := next }
    return (rule.id, next.predicate)

/-- The rule that `assign` puts to use, and its condition. -/
def ruleToUse (env : GradingEnv K) : AssignTarget → DbTx K (String × Option RulePredicate)
  | .new input => createRule env input
  | .existing ruleId changes => adoptRule env ruleId changes

/-! ## Rows of a rubric -/

/-- `owned` of a row: it must be in use. -/
def ownedRubricError (rubricErrorId : String) : DbTx K RubricErrorRow := do
  let db ← get
  match rowOf RubricErrorRow.id db.rubricErrors rubricErrorId with
  | some row =>
    if row.removed then throw (.notFound "Không tìm thấy lỗi trong rubric") else return row
  | none => throw (.notFound "Không tìm thấy lỗi trong rubric")

def assertRubricExists (rubricName : String) : DbTx K RubricRow := do
  let db ← get
  match db.latestRubric rubricName with
  | some rubric => return rubric
  | none => throw (.notFound "Không tìm thấy rubric")

/-- `assertRubricCriterion`: the newest version of the rubric must have the
criterion. -/
def assertRubricCriterion (rubricName criterionKey : String) : DbTx K Unit := do
  let rubric ← assertRubricExists rubricName
  if criterionKey ∉ rubric.criteria.map RubricCriterion.key then
    throw (.badRequest
      ("Tiêu chí \"" ++ criterionKey ++ "\" không có trong rubric \"" ++ rubricName ++ "\""))

/-- `UPDATE rubric_error … WHERE id = …`. -/
def Db.updateRubricError (db : Db K) (id : String) (f : RubricErrorRow → RubricErrorRow) : Db K :=
  { db with rubricErrors := updateRow RubricErrorRow.id db.rubricErrors id f }

/-- The row of a rule in a rubric, in use or removed. -/
def Db.rubricErrorFor (db : Db K) (rubricName ruleId : String) : Option RubricErrorRow :=
  db.rubricErrors.find? fun re => re.rubricName = rubricName ∧ re.errorRuleId = ruleId

/-- A rule is put to use in a rubric: a removed row is used again under its
old id.  `none` where the rule is in use already. -/
def useRule (env : GradingEnv K) (rubricName ruleId criterionKey : String) :
    DbTx K (Option String) := do
  let db ← get
  match db.rubricErrorFor rubricName ruleId with
  | some existing =>
    if existing.removed then
      set (db.updateRubricError existing.id fun re =>
        { re with removed := false, criterionKey := criterionKey })
      return some existing.id
    else return none
  | none =>
    let id ← freshId env fun db => db.rubricErrors.map RubricErrorRow.id
    modify fun db => { db with
      rubricErrors := db.rubricErrors ++ [⟨id, rubricName, ruleId, criterionKey, false⟩] }
    return some id

/-! ## The operations -/

section Operations

variable [Number K]

/-- The recomputation that a changed rubric asks for. -/
def recomputeRubric (env : GradingEnv K) (rubricName : String) : DbTx K Unit :=
  recomputeForTeacher env .ruleRevision { rubricName := some rubricName }

/-- `assign`.  A rule in words is not applied to papers that are graded
already. -/
def assign (env : GradingEnv K) (input : AssignInput) : DbTx K (String × String) := do
  assertRubricCriterion input.rubricName input.criterionKey
  let (ruleId, predicate) ← ruleToUse env input.target
  match ← useRule env input.rubricName ruleId input.criterionKey with
  | none => throw (.conflict "Lỗi này đã có trong rubric")
  | some rubricErrorId =>
    match input.deduction with
    | some deduction => let _ ← writeNextPriceVersion env [⟨rubricErrorId, deduction⟩]
    | none => pure ()
    if isMachineChecked predicate then recomputeRubric env input.rubricName
    return (rubricErrorId, ruleId)

def move (env : GradingEnv K) (rubricErrorId criterionKey : String) : DbTx K Unit := do
  let row ← ownedRubricError rubricErrorId
  assertRubricCriterion row.rubricName criterionKey
  modify fun db => db.updateRubricError rubricErrorId fun re =>
    { re with criterionKey := criterionKey }
  recomputeRubric env row.rubricName

def remove (env : GradingEnv K) (rubricErrorId : String) : DbTx K Unit := do
  let row ← ownedRubricError rubricErrorId
  modify fun db => db.updateRubricError rubricErrorId fun re => { re with removed := true }
  recomputeRubric env row.rubricName

/-- A row to copy, with its current price. -/
structure CopySource where
  errorRuleId : String
  ruleKey : String
  criterionKey : String
  deduction : Option Int
deriving DecidableEq, Repr

/-- The rows of a rubric to copy, `ORDER BY criterion_key, rule_key`. -/
def Db.copySources (db : Db K) (rubricName : String) : List CopySource :=
  sortByKey CopySource.criterionKey <| sortByKey CopySource.ruleKey <|
    (db.rubricErrorsOf rubricName).filterMap fun re =>
      match db.rule re.errorRuleId with
      | none => none
      | some r =>
        if r.state = .active then
          some ⟨re.errorRuleId, r.ruleKey, re.criterionKey, db.currentPrice re.id⟩
        else none

structure CopyTally where
  changes : List PriceRow
  skippedNoCriterion : Nat
  skippedExisting : Nat
deriving DecidableEq, Repr

/-- The loop of `copy`. -/
def copyRows (env : GradingEnv K) (toRubricName : String) (targetKeys : List String) :
    List CopySource → DbTx K CopyTally
  | [] => return ⟨[], 0, 0⟩
  | src :: rest => do
    if src.criterionKey ∉ targetKeys then
      let tally ← copyRows env toRubricName targetKeys rest
      return { tally with skippedNoCriterion := tally.skippedNoCriterion + 1 }
    else
      match ← useRule env toRubricName src.errorRuleId src.criterionKey with
      | none =>
        let tally ← copyRows env toRubricName targetKeys rest
        return { tally with skippedExisting := tally.skippedExisting + 1 }
      | some id =>
        let tally ← copyRows env toRubricName targetKeys rest
        return { tally with changes := ⟨id, src.deduction⟩ :: tally.changes }

def copy (env : GradingEnv K) (fromRubricName toRubricName : String) : DbTx K CopyTally := do
  if fromRubricName = toRubricName then
    throw (.badRequest "Rubric nguồn và rubric đích phải khác nhau")
  let _ ← assertRubricExists fromRubricName
  let target ← assertRubricExists toRubricName
  let db ← get
  let tally ← copyRows env toRubricName (target.criteria.map RubricCriterion.key)
    (db.copySources fromRubricName)
  if tally.changes ≠ [] then
    let _ ← writeNextPriceVersion env tally.changes
    recomputeRubric env toRubricName
  return tally

end Operations

end Cine.Grading
