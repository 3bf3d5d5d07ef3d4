import Cine.Grading.Problem.ResolveProblemConfig

/-!
# What a computation reads

`grading/scoring/score-inputs.ts` and the private `compute` of
`score.service.ts`.

* `snapshots` is `loadRuleSnapshots`: the rules in use in a rubric, with
  the prices of the newest price table.
* `loadScoreContext` collects everything else that belongs to one paper.
* `compute` puts the two together and calls `computeScore`.

The source goes on to look up the default question of the session and makes
one where there is none.  No modelled function reads its id, and a session
with a result has its question 1, which `startGrading` makes.
-/

namespace Cine.Grading

open Cine.Lib

/-- What an operation throws, by the exception class of the source. -/
inductive Failure
  | notFound (message : String)
  | conflict (message : String)
  | badRequest (message : String)
  | error (message : String)
deriving DecidableEq, Repr

/-- The settings of the process. -/
structure GradingEnv (K : Type) where
  theta : K
  /-- `GRADING_AUTO_BLOCKED_RULES`. -/
  autoBlockedKeys : List String
  autoNoErrorEnabled : Bool
  samplingEnabled : Bool
  samplingPercent : Nat
  auditMinPerSession : Nat
  /-- The hash of `auditBucketByStudent`, of the seed and the student in
  lower case. -/
  auditBucket : String → String → Nat
  /-- `hashOfMssv`. -/
  hashOfMssv : String → String
  /-- `slugifyRuleKey`, a key for the name of a rule. -/
  slugifyRuleKey : String → String
  /-- `missingRuleKey`, a hash of the description. -/
  missingRuleKey : String → String
  /-- `toLowerCase` and `trim`. -/
  lower : String → String
  trim : String → String
  /-- The ids that the database draws, in their order. -/
  uuid : Nat → String

/-! ## The rules of a rubric -/

namespace Db

variable {K : Type} (db : Db K)

/-- The price of a row of a rubric in the newest price table. -/
def currentPrice (rubricErrorId : String) : Option Int :=
  db.currentPriceVersion.bind fun v =>
    (rowOf PriceRow.rubricErrorId v.prices rubricErrorId).bind PriceRow.deduction

/-- One row of `loadRuleSnapshots`. -/
def snapshotOf (re : RubricErrorRow) : Option RuleSnapshot :=
  match db.rule re.errorRuleId with
  | none => none
  | some r =>
    if r.state = .active then
      some
        { ruleId := r.id
          revisionId := r.current.id
          ruleKey := r.ruleKey
          criterionKey := re.criterionKey
          predicate := r.current.predicate
          deductionHundredths := db.currentPrice re.id }
    else none

/-- The rows of a rubric that are in use. -/
def rubricErrorsOf (rubricName : String) : List RubricErrorRow :=
  db.rubricErrors.filter fun re => re.rubricName = rubricName ∧ re.removed = false

/-- `loadRuleSnapshots`, `ORDER BY rule_key`. -/
def snapshots (rubricName : String) : List RuleSnapshot :=
  sortByKey RuleSnapshot.ruleKey ((db.rubricErrorsOf rubricName).filterMap db.snapshotOf)

end Db

/-! ## The context of a paper -/

structure ScoreContext (K : Type) where
  resultId : String
  sessionId : String
  pipeline : Pipeline
  status : ResultStatus
  ungradableClass : Option UngradableClass
  rubricId : String
  rubricName : String
  attemptId : Option String
  stored : Option (StoredInvestigation K)
  bundleId : Option String
  bundleCases : List BundleCase
  rubric : List RubricCriterion
  waivedCriteria : List String
  exceptions : OrderedMap String ErrorException
  hasManualScore : Bool
  rulerTrust : Option RulerTrust

namespace Db

variable {K : Type} (db : Db K)

/-- The investigation of the current attempt, where that attempt is graded. -/
def gradedInvestigation (r : ResultRow) : Option (StoredInvestigation K) :=
  (r.currentAttemptId.bind db.attempt).bind fun a =>
    if a.outcome = some .graded then a.investigation else none

/-- The exceptions of a paper, the newest of each rule. -/
def exceptionsOf (resultId : String) : OrderedMap String ErrorException :=
  .ofList <| (db.reviews.filter fun t =>
    t.gradingResultId = resultId ∧ t.kind = .errorException).filterMap fun t =>
      t.errorRuleId.bind fun ruleId => t.direction.map (ruleId, ·)

/-- The criteria of a rubric that are marked as having no rule. -/
def waivedCriteria (rubricId : String) : List String :=
  sortByKey id ((db.waivers.filter fun w =>
    w.rubricId = rubricId ∧ w.revoked = false).map WaiverRow.criterionKey)

def sessionOf (r : ResultRow) : Option SessionRow :=
  (db.submission r.submissionId).bind fun s => db.session s.sessionId

/-- The context of a result whose session and rubric were found. -/
def contextOf (r : ResultRow) (session : SessionRow) (rubric : RubricRow)
    (storedOverride : Option (StoredInvestigation K)) : ScoreContext K :=
  let testBundleId := (db.resolveProblemConfig session.id).bind ProblemConfig.testBundleId
  { resultId := r.id
    sessionId := session.id
    pipeline := r.pipeline
    status := r.status
    ungradableClass := r.ungradable.map Ungradable.cls
    rubricId := r.rubricIdVersion
    rubricName := rubric.name
    attemptId := r.currentAttemptId
    stored := storedOverride.or (db.gradedInvestigation r)
    bundleId := testBundleId
    bundleCases := db.bundleCases testBundleId
    rubric := rubric.criteria
    waivedCriteria := db.waivedCriteria r.rubricIdVersion
    exceptions := db.exceptionsOf r.id
    hasManualScore := db.hasManualScore r.id
    rulerTrust := session.rulerTrust }

/-- `loadScoreContext`.  The override is the investigation of an attempt
that is still running. -/
def loadScoreContext (resultId : String) (storedOverride : Option (StoredInvestigation K)) :
    Except Failure (ScoreContext K) :=
  match db.result resultId with
  | none => .error (.error s!"không có kết quả chấm {resultId}")
  | some r =>
    match db.sessionOf r, db.rubric r.rubricIdVersion with
    | some session, some rubric => .ok (db.contextOf r session rubric storedOverride)
    | _, _ => .error (.error s!"không có kết quả chấm {resultId}")

/-- What `compute` asks `computeScore`, with the rules `rules`. -/
def scoreInput (env : GradingEnv K) (ctx : ScoreContext K) (stored : StoredInvestigation K)
    (rules : List RuleSnapshot) : ScoreCoreInput K :=
  { stored := stored
    bundleCases := ctx.bundleCases
    rubric := ctx.rubric
    rules := rules
    waivedCriteria := ctx.waivedCriteria
    exceptions := ctx.exceptions
    theta := env.theta
    rulerTrust := ctx.rulerTrust
    autoBlockedRuleKeys := some (env.autoBlockedKeys ++ db.openBreakerRuleKeys)
    autoNoErrorEnabled := some (env.autoNoErrorEnabled && !db.noErrorBreakerOpen) }

/-- `compute`, with the change that a preview makes to the rules. -/
def compute [Number K] (env : GradingEnv K) (ctx : ScoreContext K)
    (transform : List RuleSnapshot → List RuleSnapshot) : Except Failure (ScoreCoreOutput K) :=
  match ctx.stored with
  | none => .error (.error s!"kết quả {ctx.resultId} không có lượt chấm graded")
  | some stored =>
    match (db.scoreInput env ctx stored (transform (db.snapshots ctx.rubricName))).computeScore with
    | .ok out => .ok out
    | .error message => .error (.error message)

end Db

end Cine.Grading
