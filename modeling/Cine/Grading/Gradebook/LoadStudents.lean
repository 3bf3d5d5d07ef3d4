import Cine.Grading.Gradebook.StudentBoard

/-!
# The students of an export

`grade-export/grade-export.data.ts` and `grade-export/fold-student-results.ts`:
what the grade book is given for each student.  A session with several
questions that is exported as a whole takes the totals of the board;
otherwise the rows of the submissions are folded by student.
-/

namespace Cine.Grading

open Cine.Lib

/-- Where a score in the grade book comes from. -/
inductive OutcomeSource
  | current (source : ScoreSource)
  | total
deriving DecidableEq, Repr

inductive StudentOutcome
  | scored (hundredths : Int) (computationId : Option String) (source : OutcomeSource)
  | blank (reason : BlankReason)
  | conflict (reason : String)
deriving DecidableEq, Repr

structure PlanStudent where
  mssv : String
  name : String
  outcome : StudentOutcome
deriving DecidableEq, Repr

/-- `CONFLICT_REASON`. -/
def conflictReason : String := "nhiều kết quả — chưa có điểm tổng"

/-- One result in the loop of `foldStudentResults`. -/
def foldStep (acc : OrderedMap String PlanStudent × List String) (r : PlanStudent) :
    OrderedMap String PlanStudent × List String :=
  let key := lowerCase r.mssv
  let known := acc.1.get? key
  let outcome := if key ∈ acc.2 then .conflict conflictReason else r.outcome
  (acc.1.set key
      { mssv := (known.map PlanStudent.mssv).getD r.mssv
        name := (known.map PlanStudent.name).getD r.name
        outcome },
    key :: acc.2)

def foldStudentResults (roster : List RosterRow) (results : List PlanStudent) :
    List PlanStudent :=
  let start : OrderedMap String PlanStudent := .ofList <| roster.map fun r =>
    (lowerCase r.mssv, { mssv := r.mssv, name := r.name, outcome := .blank .absent })
  (results.foldl foldStep (start, [])).1.values

/-- A row of `RESULTS_SQL`: a submission, with its result where it has
one. -/
structure SubmissionResultRow where
  mssv : String
  name : String
  result : Option ScoreColumns
deriving DecidableEq, Repr

def totalOutcome (total : Option StudentTotal) (hasSubmission : Bool) : StudentOutcome :=
  if !hasSubmission then .blank .absent
  else
    match total with
    | none => .blank .absent
    | some (.final hundredths) => .scored hundredths none .total
    | some (.tentative _ _) => .blank .notFinished
    | some .dash => .blank .flagged

def outcomeOf (r : SubmissionResultRow) : StudentOutcome :=
  match blankReasonOf (r.result.map ScoreColumns.status)
      (r.result.bind ScoreColumns.ungradableClass) with
  | some reason => .blank reason
  | none =>
    match r.result.bind fun c => (pickScore c.input).map fun picked => (c, picked) with
    | none => .blank .notFinished
    | some (c, picked) =>
      .scored picked.hundredths
        (match picked.source with
          | .finalized => c.finalizedComputationId
          | .computation => c.latestComputationId
          | _ => none)
        (.current picked.source)

/-- The columns of `submission` that only the export reads, and the
roster. -/
structure GradebookTables where
  roster : List RosterRow
  /-- `submission.required_deliverable_id`. -/
  deliverableOf : String → String
  /-- `submission.student_name_input`. -/
  nameInput : String → String

namespace Db

variable {K : Type} (db : Db K) (t : GradebookTables) (sessionId : String)

/-- `RESULTS_SQL`. -/
def submissionResultRows (deliverableId : Option String) : List SubmissionResultRow :=
  (db.submissions.filter fun s =>
    s.sessionId = sessionId ∧ (deliverableId = none ∨ some (t.deliverableOf s.id) = deliverableId)
  ).flatMap fun s =>
    (leftJoin (db.results.filter fun g => g.submissionId = s.id)).map fun g =>
      { mssv := s.studentMssv
        name := t.nameInput s.id
        result := g.map db.scoreColumns }

def loadStudents (deliverableId : Option String) : List PlanStudent × Nat :=
  let roster := t.roster.filter fun r => r.sessionId = sessionId
  let results := db.submissionResultRows t sessionId deliverableId
  let publishedResults := results.countP fun r =>
    r.result.any fun c => c.status.isPublished
  let problems := (db.problems.filter fun p => p.sessionId = sessionId).length
  if deliverableId = none ∧ 1 < problems then
    let totals := db.loadStudentTotals t.roster sessionId
    let withSubmission := results.map fun r => lowerCase r.mssv
    (roster.map fun r =>
      { mssv := r.mssv
        name := r.name
        outcome := totalOutcome (totals.get? (lowerCase r.mssv))
          (lowerCase r.mssv ∈ withSubmission) },
      publishedResults)
  else
    (foldStudentResults roster (results.map fun r =>
        { mssv := r.mssv, name := r.name, outcome := outcomeOf r }),
      publishedResults)

end Db

end Cine.Grading
