import Cine.Grading.Scoring.CurrentScore

/-!
# The student board

`grading/problem/student-total.ts` and `student-total.query.ts`, with
`grade-export/blank-reason.ts` and `grade-export/score-string.ts`: one row
for each student of the roster, with the state of each question and the
total.

A student number has letters and digits only, and two of them are the same
student where they agree in lower case.  The ids of the rows and the
columns that only the screen shows are left out.
-/

namespace Cine.Grading

open Cine.Lib

/-! ## The score of a published result -/

inductive BlankReason
  | absent
  | notFinished
  | ungradable
  | flagged
deriving DecidableEq, Repr

/-- `blankReasonOf`, for a student with a submission. -/
def blankReasonOf (status : Option ResultStatus) (ungradableClass : Option UngradableClass) :
    Option BlankReason :=
  match status with
  | none => some .notFinished
  | some .finalized => none
  | some .exported => none
  | some .flaggedForReview => some (if ungradableClass.isSome then .ungradable else .flagged)
  | some .auditPending => some .flagged
  | some _ => some .notFinished

structure PickedScore where
  hundredths : Int
  source : ScoreSource
deriving DecidableEq, Repr

/-- `pickScore`: the score of the source that `currentScore` names. -/
def pickScore (input : CurrentScoreInput) : Option PickedScore :=
  let source := (currentScore input).source
  let raw : Option Int :=
    match source with
    | .review => input.latestScoredReview
    | .ai => input.aiTotalScore
    | .manual => input.latestManualScore
    | .finalized => input.finalizedComputationScore
    | .computation => input.latestComputationScore
    | .none => none
  raw.map fun hundredths => ⟨hundredths, source⟩

/-- The columns of a result that both the board and the export select. -/
structure ScoreColumns where
  status : ResultStatus
  pipeline : Pipeline
  ungradableClass : Option UngradableClass
  aiTotalScore : Option Int
  finalizedComputationId : Option String
  reviewScore : Option Int
  manualScore : Option Int
  finalizedScore : Option Int
  latestComputationId : Option String
  latestScore : Option Int
deriving DecidableEq, Repr

/-- What `pickScore` is asked for the columns of a published result. -/
def ScoreColumns.input (c : ScoreColumns) : CurrentScoreInput :=
  { pipeline := c.pipeline
    aiTotalScore := c.aiTotalScore
    latestScoredReview := c.reviewScore
    latestManualScore := c.manualScore
    finalized := true
    finalizedComputationScore := c.finalizedScore
    latestComputationScore := c.latestScore }

/-! ## The total of a student -/

inductive ProblemStatus
  | finalized
  | exported
  | pending
  | blank
deriving DecidableEq, Repr

/-- The state of one question for one student. -/
structure ProblemState where
  ordinal : Nat
  status : ProblemStatus
  pointsHundredths : Int
  scoreHundredths : Option Int
  auditPending : Bool
deriving DecidableEq, Repr

/-- `StudentTotal`; `tentative` is `tạm`. -/
inductive StudentTotal
  | final (hundredths : Int)
  | tentative (hundredths : Int) (missing : List Nat)
  | dash
deriving DecidableEq, Repr

def ProblemState.isFinal (p : ProblemState) : Bool :=
  p.status = .finalized ∨ p.status = .exported

def aggregateStudentTotal (problems : List ProblemState) (expectedOrdinals : List Nat) :
    StudentTotal :=
  if problems.any ProblemState.auditPending then .dash
  else
    let byOrdinal := OrderedMap.ofList (problems.map fun p => (p.ordinal, p))
    let missing := expectedOrdinals.filter fun ordinal =>
      match byOrdinal.get? ordinal with
      | none => true
      | some p => p.status = .blank
    let hundredths :=
      ((problems.filter ProblemState.isFinal).map fun p => p.scoreHundredths.getD 0).sum
    if missing = [] ∧ problems.all ProblemState.isFinal then .final hundredths
    else .tentative hundredths missing

/-! ## The rows of the board -/

/-- `toLowerCase` and `lower`, on the letters and digits of a student
number. -/
def lowerCase (mssv : String) : String := .ofList (mssv.toList.map Char.toLower)

/-- `session_roster`. -/
structure RosterRow where
  sessionId : String
  mssv : String
  name : String
deriving DecidableEq, Repr

/-- A row of `ROSTER_PROBLEM_SQL`: a student, a question, and a result of the
student for the question where there is one. -/
structure RosterProblemRow where
  mssv : String
  problemId : String
  ordinal : Nat
  pointsHundredths : Int
  result : Option ScoreColumns
deriving DecidableEq, Repr

/-- `stateOf`: the state of a question from the rows of one student. -/
def stateOf (ordinal : Nat) (pointsHundredths : Int) (rows : List RosterProblemRow) :
    ProblemState :=
  let pendingState : ProblemState :=
    { ordinal, status := .pending, pointsHundredths, scoreHundredths := none,
      auditPending := false }
  match rows.filterMap RosterProblemRow.result with
  | [] => { pendingState with status := .blank }
  | [r] =>
    if r.status = .auditPending then { pendingState with auditPending := true }
    else if (blankReasonOf (some r.status) r.ungradableClass).isSome then pendingState
    else
      match pickScore r.input with
      | none => pendingState
      | some picked =>
        { pendingState with
          status := if r.status = .exported then .exported else .finalized
          scoreHundredths := some picked.hundredths }
  | results =>
    { pendingState with auditPending := results.any fun r => r.status = .auditPending }

structure StudentBoardProblem where
  problemId : String
  state : ProblemState
deriving DecidableEq, Repr

structure StudentBoardRow where
  mssv : String
  name : String
  total : StudentTotal
  problems : List StudentBoardProblem
deriving DecidableEq, Repr

namespace Db

variable {K : Type} (db : Db K)

/-- The questions of a session in their order. -/
def orderedProblems (sessionId : String) : List ProblemRow :=
  sortByKey ProblemRow.ordinal (db.problems.filter fun p => p.sessionId = sessionId)

def scoreColumns (g : ResultRow) : ScoreColumns :=
  let input := db.currentScoreInput g
  { status := g.status
    pipeline := g.pipeline
    ungradableClass := g.ungradable.map Ungradable.cls
    aiTotalScore := g.aiTotalScore
    finalizedComputationId := g.finalizedComputationId
    reviewScore := input.latestScoredReview
    manualScore := input.latestManualScore
    finalizedScore := input.finalizedComputationScore
    latestComputationId := (db.latestComputation g.id).map ComputationRow.id
    latestScore := input.latestComputationScore }

def submissionsOf (sessionId mssv : String) : List SubmissionRow :=
  db.submissions.filter fun s => s.sessionId = sessionId ∧ lowerCase s.studentMssv = lowerCase mssv

/-- The results of a submission that count for a question; a result without
a question counts for question 1. -/
def resultsOfProblem (p : ProblemRow) (s : SubmissionRow) : List ResultRow :=
  db.results.filter fun g =>
    g.submissionId = s.id ∧ (g.problemId = some p.id ∨ (g.problemId = none ∧ p.ordinal = 1))

/-- The results that a student and a question are joined with. -/
def joinedResults (sessionId mssv : String) (p : ProblemRow) : List (Option ResultRow) :=
  (leftJoin (db.submissionsOf sessionId mssv)).flatMap fun submission =>
    match submission with
    | none => [none]
    | some s => leftJoin (db.resultsOfProblem p s)

/-- The rows of `ROSTER_PROBLEM_SQL` of one student and one question. -/
def rowsOfProblem (sessionId : String) (r : RosterRow) (p : ProblemRow) : List RosterProblemRow :=
  (db.joinedResults sessionId r.mssv p).map fun g =>
    { mssv := r.mssv
      problemId := p.id
      ordinal := p.ordinal
      pointsHundredths := p.pointsHundredths
      result := g.map db.scoreColumns }

/-- The roster of a session, by student number. -/
def rosterOf (roster : List RosterRow) (sessionId : String) : List RosterRow :=
  sortByKey (fun r => lowerCase r.mssv) (roster.filter fun r => r.sessionId = sessionId)

/-- `ROSTER_PROBLEM_SQL`. -/
def rosterProblemRows (roster : List RosterRow) (sessionId : String) : List RosterProblemRow :=
  (rosterOf roster sessionId).flatMap fun r =>
    (db.orderedProblems sessionId).flatMap fun p => db.rowsOfProblem sessionId r p

def boardRow (expectedOrdinals : List Nat) (r : RosterRow) (rows : List RosterProblemRow) :
    StudentBoardRow :=
  let byOrdinal := OrderedMap.groupBy RosterProblemRow.ordinal rows
  let problems := byOrdinal.entries.map fun entry =>
    { problemId := (entry.2.head?.map RosterProblemRow.problemId).getD ""
      state := stateOf entry.1 ((entry.2.head?.map RosterProblemRow.pointsHundredths).getD 0)
        entry.2 : StudentBoardProblem }
  { mssv := r.mssv
    name := r.name
    total := aggregateStudentTotal (problems.map StudentBoardProblem.state) expectedOrdinals
    problems }

def loadStudentBoard (roster : List RosterRow) (sessionId : String) : List StudentBoardRow :=
  let expectedOrdinals := (db.orderedProblems sessionId).map ProblemRow.ordinal
  if expectedOrdinals = [] then []
  else
    let byStudent := OrderedMap.groupBy (fun row => lowerCase row.mssv)
      (db.rosterProblemRows roster sessionId)
    (rosterOf roster sessionId).map fun r =>
      boardRow expectedOrdinals r ((byStudent.get? (lowerCase r.mssv)).getD [])

def loadStudentTotals (roster : List RosterRow) (sessionId : String) :
    OrderedMap String StudentTotal :=
  .ofList ((db.loadStudentBoard roster sessionId).map fun row => (lowerCase row.mssv, row.total))

end Db

end Cine.Grading
