import Cine.Grading.Scoring.ScoreService

/-!
# Attempts

The operations that open, close and reopen an attempt beside those of the
score service: `startAttempt` of `pipeline/investigator-run.service.ts`,
`markUngradable` of `grading.service.ts` and `requeue` of
`regrade.service.ts`.  Each of them is one transaction that takes the lock
of the teacher first.
-/

namespace Cine.Grading

open Cine.Lib

variable {K : Type}

/-- `COALESCE(MAX(attempt_no), 0) + 1`. -/
def Db.nextAttemptNo (db : Db K) (resultId : String) : Nat :=
  ((db.attempts.filter fun a => a.gradingResultId = resultId).map AttemptRow.attemptNo).foldr
    max 0 + 1

/-- A new attempt of a result, which becomes its current one. -/
def insertAttempt (env : GradingEnv K) (resultId : String) (outcome : Option AttemptOutcome)
    (ungradable : Option Ungradable) : DbTx K String := do
  let id ← freshId env fun db => db.attempts.map AttemptRow.id
  modify fun db => { db with
    attempts := db.attempts ++
      [⟨id, resultId, db.nextAttemptNo resultId, outcome, ungradable, none⟩] }
  modify fun db => db.updateResult resultId fun r => { r with currentAttemptId := some id }
  return id

/-- The current attempt of a result, where it is still running. -/
def Db.runningAttempt (db : Db K) (r : ResultRow) : Option String :=
  r.currentAttemptId.filter fun id => ((db.attempt id).bind AttemptRow.outcome).isNone

/-- `startAttempt`: a running attempt is resumed, else a new one is opened.
`none` where the paper has left `ai_grading`. -/
def startAttempt (env : GradingEnv K) (resultId : String) : DbTx K (Option (String × Bool)) := do
  let db ← get
  match db.result resultId with
  | none => return none
  | some row =>
    if row.status ≠ .aiGrading then return none
    match db.runningAttempt row with
    | some attemptId => return some (attemptId, true)
    | none =>
      let attemptId ← insertAttempt env resultId none none
      return some (attemptId, false)

/-- The result of a submission: `uq_grading_result_submission` allows one. -/
def Db.resultOfSubmission (db : Db K) (submissionId : String) : Option ResultRow :=
  rowOf ResultRow.submissionId db.results submissionId

/-- `markUngradable`: a job that has used up its retries takes its paper out
of `ai_grading`.  A running attempt is closed, and where there is none the
reason is kept in a new one. -/
def markUngradable (env : GradingEnv K) (submissionId reason : String) : DbTx K Bool := do
  let db ← get
  if !(db.resultOfSubmission submissionId).any fun r => r.status = .aiGrading then return false
  let u : Ungradable := ⟨.system, reason⟩
  set { db with
    results := updateRow ResultRow.submissionId db.results submissionId fun r =>
      { r with
        status := .flaggedForReview
        flagForReview := true
        confidence := some "0"
        ungradable := some u } }
  match db.resultOfSubmission submissionId with
  | none => throw (.error "Could not find any entity of type \"GradingResultEntity\"")
  | some row =>
    match db.runningAttempt row with
    | some attemptId =>
      modify fun db => { db with
        attempts := updateRow AttemptRow.id db.attempts attemptId fun a =>
          { a with outcome := some .ungradable, ungradable := some u } }
      return true
    | none =>
      let _ ← insertAttempt env row.id (some .ungradable) (some u)
      return true

/-- The papers that may be graded again. -/
def ResultRow.isRequeuable (r : ResultRow) : Bool :=
  r.status = .flaggedForReview ∧ r.ungradable.map Ungradable.cls = some .system ∧
    r.aiTotalScore = none

/-- The transaction of `requeue`: back to `ai_grading`. -/
def requeue (resultId : String) : DbTx K Bool := do
  let db ← get
  if (db.result resultId).any ResultRow.isRequeuable then
    set (db.updateResult resultId fun r =>
      { r with
        status := .aiGrading
        ungradable := none
        flagForReview := false
        confidence := none })
    return true
  else return false

end Cine.Grading
