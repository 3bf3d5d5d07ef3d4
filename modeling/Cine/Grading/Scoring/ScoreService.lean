import Cine.Grading.Scoring.ScoreInputs
import Cine.Lib.Transaction

/-!
# The score service

`grading/scoring/score.service.ts` with `lifecycle/advance.ts`,
`rules/missing-rules.ts` and `audit-sampling.ts`.  The only code that
writes a computation.

* `finishAttempt` ends a running attempt: the score decides the outcome of
  the attempt before the outcome is written.
* `recomputeForTeacher` computes again every paper of a scope that is not
  published and not graded by hand.
* `DbTx` is an operation in one database transaction.  It holds the lock of
  the teacher from its first statement on, so operations follow each other.
-/

namespace Cine.Grading

open Cine.Lib

/-- An operation on the tables of a teacher. -/
abbrev DbTx (K : Type) (α : Type) := Tx (Db K) Failure α

variable {K : Type}

/-- The next id that the database draws, for a column whose values are
distinct. -/
def freshId (env : GradingEnv K) (taken : Db K → List String) : DbTx K String := do
  let db ← get
  let id := env.uuid db.drawnIds
  if id ∈ taken db then throw (.error "duplicate key value violates unique constraint")
  set { db with drawnIds := db.drawnIds + 1 }
  return id

/-- `UPDATE grading_result … WHERE id = …`. -/
def Db.updateResult (db : Db K) (id : String) (f : ResultRow → ResultRow) : Db K :=
  { db with results := updateRow ResultRow.id db.results id f }

/-- `advanceStatus`: the step is taken only from one of the statuses in
`source`, and the answer says whether it was. -/
def advanceStatus (resultId : String) (source : List ResultStatus) (target : ResultStatus)
    (extra : ResultRow → ResultRow) : DbTx K Bool := do
  let db ← get
  if (db.result resultId).any (fun r => r.status ∈ source) then
    set (db.updateResult resultId fun r => extra { r with status := target })
    return true
  else return false

/-! ## The audit sample -/

def auditBucketByStudent (env : GradingEnv K) (seed mssv : String) : Nat :=
  env.auditBucket seed (env.lower mssv)

def drawnForStudentAudit (env : GradingEnv K) (seed mssv : String) : Bool :=
  auditBucketByStudent env seed mssv < env.samplingPercent * 100

/-- `ensureSessionMinimum`: the sampled students and as many others as the
minimum asks for, in the order of their hashes. -/
def ensureSessionMinimum (env : GradingEnv K) (sampled students : List String) (min : Nat) :
    List String :=
  let chosen := OrderedMap.ofList (sampled.map fun m => (env.lower m, m))
  let everyone := OrderedMap.ofList (students.map fun m => (env.lower m, m))
  let target := Nat.min min everyone.entries.length
  let pool := sortByKey (fun e => env.hashOfMssv e.1)
    (everyone.entries.filter fun e => !chosen.has e.1)
  chosen.values ++ (pool.take (target - chosen.entries.length)).map Prod.snd

def Db.drawnForAudit (env : GradingEnv K) (db : Db K) (resultId : String) : Bool :=
  env.samplingEnabled &&
    (db.result resultId).any fun r =>
      (db.submission r.submissionId).any fun s =>
        (db.session s.sessionId).any fun es => drawnForStudentAudit env es.gradingSeed s.studentMssv

/-- The results of a session with their students. -/
def Db.resultsOfSession (db : Db K) (sessionId : String) : List (ResultRow × String) :=
  db.results.filterMap fun r =>
    (db.submission r.submissionId).bind fun s =>
      if s.sessionId = sessionId then some (r, s.studentMssv) else none

/-- A paper enters the audit sample. -/
def drawIntoAudit (resultId : String) : DbTx K Unit := do
  let _ ← advanceStatus resultId [.autoApproved] .auditPending fun r =>
    { r with auditSampled := true }

def topUpSessionAudit (env : GradingEnv K) (sessionId : String) : DbTx K Unit := do
  if !env.samplingEnabled || env.auditMinPerSession = 0 then return
  let db ← get
  let all := db.resultsOfSession sessionId
  if all.any (fun p => p.1.status = .aiGrading ∨ p.1.status = .aiGraded) then return
  let rows := all.filter fun p => p.1.status = .autoApproved ∨ p.1.status = .auditPending
  let sampled := (rows.filter (fun p => p.1.auditSampled)).map Prod.snd
  let sampledLower := sampled.map env.lower
  let wanted := (ensureSessionMinimum env sampled (rows.map Prod.snd)
    env.auditMinPerSession).map env.lower
  (rows.filter fun p => p.1.status = .autoApproved ∧ env.lower p.2 ∉ sampledLower ∧
    env.lower p.2 ∈ wanted).forM fun p => drawIntoAudit p.1.id

/-! ## Computations -/

def insertComputation (env : GradingEnv K) (ctx : ScoreContext K) (reason : ComputationReason)
    (out : ScoreCoreOutput K) : DbTx K String := do
  let id ← freshId env fun db => db.computations.map ComputationRow.id
  modify fun db => { db with
    computations := db.computations ++
      [{ id := id
         gradingResultId := ctx.resultId
         attemptId := ctx.attemptId.getD ""
         priceTableVersionId := db.currentPriceVersion.map PriceVersionRow.id
         rubricIdVersion := ctx.rubricId
         testBundleId := ctx.bundleId
         reason := reason
         score := out.scoreHundredths
         breakdown := out.breakdown }] }
  return id

section Recompute

variable [Number K]

/-- `recomputeOne`: it computes and writes, and moves no status. -/
def recomputeOne (env : GradingEnv K) (resultId : String) (reason : ComputationReason) :
    DbTx K (ScoreCoreOutput K) := do
  let db ← get
  let ctx ← liftM (db.loadScoreContext resultId none)
  let out ← liftM (db.compute env ctx id)
  let _ ← insertComputation env ctx reason out
  return out

/-- `ruleLayerTransition`: only a recomputation moves a paper between
`flagged_for_review` and `auto_approved`. -/
def ruleLayerTransition (resultId : String) (out : ScoreCoreOutput K) : DbTx K Unit := do
  if out.outcome = .auto then
    let db ← get
    if (db.result resultId).any (fun r => r.ungradable.isSome) then return
    let _ ← advanceStatus resultId [.flaggedForReview] .autoApproved fun r =>
      { r with flagForReview := false }
  else
    let demoted ← advanceStatus resultId [.autoApproved] .flaggedForReview fun r =>
      { r with flagForReview := true }
    if demoted then return
    let _ ← advanceStatus resultId [.auditPending] .flaggedForReview fun r =>
      { r with flagForReview := true, auditSampled := false }

structure RecomputeScope where
  ruleId : Option String := none
  rubricId : Option String := none
  rubricName : Option String := none
  exceptResultId : Option String := none
  /-- Only the papers whose newest computation has no error. -/
  noErrors : Bool := false
deriving DecidableEq, Repr

/-- The statuses in which a recomputation finds a paper. -/
def recomputedStatuses : List ResultStatus :=
  [.autoApproved, .auditPending, .flaggedForReview, .teacherReviewed]

/-- The papers that a recomputation may touch: graded by the investigator,
not published and without a score by hand. -/
def Db.isRecomputable (db : Db K) (r : ResultRow) : Bool :=
  r.pipeline = .investigator ∧ r.status ∈ recomputedStatuses ∧
    ((r.currentAttemptId.bind db.attempt).any fun a => a.outcome = some .graded) ∧
      db.hasManualScore r.id = false

/-- Whether a paper is in a scope. -/
def Db.inScope (db : Db K) (scope : RecomputeScope) (r : ResultRow) : Bool :=
  (scope.rubricId.all fun id => r.rubricIdVersion = id) ∧
    (scope.rubricName.all fun name => (db.rubric r.rubricIdVersion).any fun rb => rb.name = name) ∧
      (scope.ruleId.all fun ruleId =>
        (db.latestComputation r.id).any fun c => c.breakdown.errors.any fun e => e.ruleId = ruleId) ∧
        (scope.exceptResultId.all fun id => r.id ≠ id) ∧
          (scope.noErrors → (db.latestComputation r.id).any fun c => c.breakdown.errors.isEmpty)

def recomputeForTeacher (env : GradingEnv K) (reason : ComputationReason)
    (scope : RecomputeScope) : DbTx K Unit := do
  let db ← get
  let ids := (sortByKey ResultRow.id
    (db.results.filter fun r => db.isRecomputable r ∧ db.inScope scope r)).map ResultRow.id
  ids.forM fun id => do
    let out ← recomputeOne env id reason
    ruleLayerTransition id out

end Recompute

/-! ## The end of an attempt -/

/-- The texts of the missing rules with their keys.  A text that trims to
nothing is left out, and so is a key that came before. -/
def missingTexts (env : GradingEnv K) : List String → List String → List (String × String)
  | [], _ => []
  | description :: rest, seen =>
    let text := env.trim description
    let ruleKey := env.missingRuleKey text
    if text = "" ∨ ruleKey ∈ seen then missingTexts env rest seen
    else (ruleKey, text) :: missingTexts env rest (insertLast seen ruleKey)

/-- A proposed rule for a key that no rule has yet. -/
def proposeRule (env : GradingEnv K) (ruleKey text : String) : DbTx K Unit := do
  let db ← get
  if ruleKey ∈ db.rules.map ErrorRuleRow.ruleKey then return
  let id ← freshId env fun db => db.rules.map ErrorRuleRow.id
  let revisionId ← freshId env fun db => db.rules.map fun r => r.current.id
  modify fun db => { db with
    rules := db.rules ++
      [{ id := id
         ruleKey := ruleKey
         state := .proposed
         origin := .agentReported
         current :=
           { id := revisionId
             revision := 1
             name := sliceFront text 200
             description := text
             predicate := none } }] }

/-- The sightings of a proposed rule in a paper, where there is none yet. -/
def Db.newSightings (db : Db K) (ruleKey resultId sessionId rubricName : String) :
    List SightingRow :=
  (db.rules.filter fun r => r.ruleKey = ruleKey ∧ r.state = .proposed ∧
    ¬ db.sightings.any fun s => s.errorRuleId = r.id ∧ s.gradingResultId = resultId).map fun r =>
      ⟨r.id, resultId, sessionId, rubricName⟩

/-- `recordMissingRules`: every error that no rule matches becomes a
proposed rule, once, with the paper it was seen in. -/
def recordMissingRules (env : GradingEnv K) (missing : List String)
    (resultId sessionId rubricName : String) : DbTx K Unit :=
  (missingTexts env missing []).forM fun (ruleKey, text) => do
    proposeRule env ruleKey text
    modify fun db => { db with
      sightings := db.sightings ++ db.newSightings ruleKey resultId sessionId rubricName }

/-- `lockRunning`: the attempt must be the current one of a paper that is
being graded, and still be running. -/
def lockRunning (resultId attemptId : String) (stored : Option (StoredInvestigation K)) :
    DbTx K (ScoreContext K) := do
  let db ← get
  match db.result resultId with
  | none => throw (.error s!"không có kết quả chấm {resultId}")
  | some r =>
    if r.pipeline ≠ .investigator ∨ r.status ≠ .aiGrading ∨
        r.currentAttemptId ≠ some attemptId ∨
        ((db.attempt attemptId).bind AttemptRow.outcome).isSome then
      throw (.error
        (s!"lượt chấm {attemptId} của kết quả {resultId} không còn là lượt đang chạy " ++ "— bỏ"))
    liftM (db.loadScoreContext resultId stored)

/-- The end of an attempt: an attempt that has ended stays as it is. -/
def AttemptRow.close (outcome : AttemptOutcome) (ungradable : Option Ungradable)
    (stored : Option (StoredInvestigation K)) (a : AttemptRow K) : AttemptRow K :=
  if a.outcome = none then
    { a with outcome := some outcome, ungradable := ungradable, investigation := stored }
  else a

/-- `UPDATE grading_attempt … WHERE id = … AND outcome IS NULL`. -/
def closeAttempt (attemptId : String) (outcome : AttemptOutcome) (ungradable : Option Ungradable)
    (stored : Option (StoredInvestigation K)) : DbTx K Unit :=
  modify fun db => { db with
    attempts := updateRow AttemptRow.id db.attempts attemptId
      (AttemptRow.close outcome ungradable stored) }

/-- The update of a result that must still be in `ai_grading`. -/
def leaveAiGrading (resultId : String) (f : ResultRow → ResultRow) : DbTx K Unit := do
  let db ← get
  if (db.result resultId).any (fun r => r.status = .aiGrading) then
    set (db.updateResult resultId f)
  else throw (.error s!"kết quả {resultId} đã rời ai_grading")

def closeUngradable (resultId attemptId : String) (u : Ungradable)
    (stored : Option (StoredInvestigation K)) : DbTx K Unit := do
  closeAttempt attemptId .ungradable (some u) stored
  leaveAiGrading resultId fun r =>
    { r with
      status := .flaggedForReview
      flagForReview := true
      confidence := some "0"
      ungradable := some u }

/-- How an attempt ended. -/
inductive FinishOutcome
  | scored (outcome : Outcome) (scoreHundredths : Int) (computationId : String)
  | ungradable (u : Ungradable)
deriving DecidableEq, Repr

section Finish

variable [Number K]

/-- `writeInitial`: the first computation, the columns of the machine, and
the first decision. -/
def writeInitial (env : GradingEnv K) (ctx : ScoreContext K) (stored : StoredInvestigation K)
    (out : ScoreCoreOutput K) (scoreHundredths : Int) : DbTx K FinishOutcome := do
  let computationId ← insertComputation env ctx .initial out
  let models := sliceFront ("+".intercalate stored.result.investigation.modelsUsed) 100
  leaveAiGrading ctx.resultId fun r =>
    { r with
      status := .aiGraded
      aiTotalScore := some scoreHundredths
      confidence := out.breakdown.confidence.map (Number.toFixed · 3)
      modelUsed := if models = "" then none else some models
      ungradable := none }
  let outcome := if out.outcome = .auto then Outcome.auto else .flagged
  let target : ResultStatus := if outcome = .auto then .autoApproved else .flaggedForReview
  let _ ← advanceStatus ctx.resultId [.aiGraded] target fun r =>
    { r with flagForReview := target = .flaggedForReview }
  let db ← get
  if target = .autoApproved ∧ db.drawnForAudit env ctx.resultId then
    drawIntoAudit ctx.resultId
  topUpSessionAudit env ctx.sessionId
  return .scored outcome scoreHundredths computationId

/-- What `finishAttempt` computes, or why there is no score. -/
def Db.judge (db : Db K) (env : GradingEnv K) (ctx : ScoreContext K)
    (stored : StoredInvestigation K) : Except Failure (Except Ungradable (ScoreCoreOutput K × Int)) :=
  if stored.result.kind = .ungradable then
    .ok (.error (stored.result.ungradable.getD ⟨.system, "cuộc điều tra không có kết luận"⟩))
  else
    match db.compute env ctx id with
    | .error f => .error f
    | .ok out =>
      match out.outcome, out.scoreHundredths with
      | .ungradable, _ => .ok (.error (out.ungradable.getD ⟨.system, "lượt tính ra dưới sàn"⟩))
      | _, none => .ok (.error (out.ungradable.getD ⟨.system, "lượt tính ra dưới sàn"⟩))
      | _, some score => .ok (.ok (out, score))

def finishAttempt (env : GradingEnv K) (resultId attemptId : String)
    (stored : StoredInvestigation K) : DbTx K FinishOutcome := do
  let ctx ← lockRunning resultId attemptId (some stored)
  recordMissingRules env ((stored.result.verdict.map Verdict.missingRules).getD [])
    resultId ctx.sessionId ctx.rubricName
  let db ← get
  match ← liftM (db.judge env ctx stored) with
  | .error u =>
    closeUngradable resultId attemptId u (some stored)
    return .ungradable u
  | .ok (out, score) =>
    closeAttempt attemptId .graded none (some stored)
    writeInitial env ctx stored out score

end Finish

def finishUngradable (resultId attemptId : String) (u : Ungradable) : DbTx K Unit := do
  let _ ← lockRunning (K := K) resultId attemptId none
  closeUngradable resultId attemptId u none

end Cine.Grading
