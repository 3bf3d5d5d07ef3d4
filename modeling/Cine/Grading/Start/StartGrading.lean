import Cine.Grading.Pipeline.InvestigationContext
import Mathlib.Data.List.Dedup

/-!
# Starting to grade a session

`startGrading` and `assertRoutableForGrading` of
`grading/grading-run.service.ts`.  Everything is checked before the first
row is written: `planStart` reads and refuses, and what it plans is written
and queued by `StartPlan.write`.

`IntakeTables` has what only the intake reads: the required files, the
question that each belongs to, and the file and the state of each paper.
The anchors that may be frozen on the way, and the batches of a hundred in
which rows are saved, are left out.
-/

namespace Cine.Grading

open Cine.Lib

inductive DeliverableType
  | document
  | codeProject
  | image
deriving DecidableEq, Repr

inductive DeclaredLanguage
  | python
  | cpp
  | java
  | node
deriving DecidableEq, Repr

/-- `required_deliverable`: a file that the students of a session hand in. -/
structure DeliverableRow where
  id : String
  sessionId : String
  requiredFilename : String
  deliverableType : DeliverableType
  language : Option DeclaredLanguage
deriving DecidableEq, Repr

structure IntakeTables where
  deliverables : List DeliverableRow
  /-- `exam_problem.required_deliverable_id`. -/
  mapped : String → Option String
  /-- `submission.required_deliverable_id`. -/
  deliverableOf : String → String
  /-- `submission.status = 'collected'`. -/
  collected : String → Bool

def pipelineFor (deliverableType : DeliverableType) (language : Option DeclaredLanguage) :
    Pipeline :=
  if deliverableType = .codeProject ∧ (language = some .cpp ∨ language = some .python) then
    .investigator
  else .oneShot

/-- `GradeSubmissionJob`; its id in the queue is that of the submission. -/
structure GradeSubmissionJob where
  resultId : String
  submissionId : String
  requiredFilename : String
  deliverableType : DeliverableType
  rubricId : String
deriving DecidableEq, Repr

/-- The queue takes no second job with the same id. -/
def addJob (queue : List GradeSubmissionJob) (job : GradeSubmissionJob) :
    List GradeSubmissionJob :=
  if queue.any fun j => j.submissionId = job.submissionId then queue else queue ++ [job]

structure StartGradingResult where
  rubricId : String
  rubricVersion : Nat
  queued : Nat
  alreadyGraded : Nat
deriving DecidableEq, Repr

namespace Db

variable {K : Type} (db : Db K) (t : IntakeTables) (sessionId : String)

def problemsOf : List ProblemRow :=
  db.problems.filter fun p => p.sessionId = sessionId

def assertRoutableForGrading : Except Failure Unit := do
  let deliverables := t.deliverables.countP fun d => d.sessionId = sessionId
  let problems := (db.problemsOf sessionId).length
  let mapped := ((db.problemsOf sessionId).filterMap fun p => t.mapped p.id).dedup.length
  if deliverables ≤ 1 ∧ problems ≤ 1 then return
  if !(db.session sessionId).any SessionRow.blueprintConfirmed then
    throw (.conflict
      (if 1 < problems then
        s!"Phiên này có {problems} câu và {deliverables} yêu cầu nộp. Cần đề cương nhiều câu đã xác nhận, và mỗi yêu cầu nộp ghép đúng một câu — chưa bắt đầu chấm."
      else
        s!"Phiên này có {deliverables} yêu cầu nộp. Cần xác nhận đề cương trước khi bắt đầu chấm phiên nhiều yêu cầu nộp."))
  if problems ≤ 1 then return
  if problems = deliverables ∧ mapped = deliverables then return
  throw (.conflict
    s!"Phiên này có {problems} câu và {deliverables} yêu cầu nộp, nhưng chưa ghép đúng mỗi câu với một yêu cầu nộp — chưa bắt đầu chấm.")

def collectedPapers : List SubmissionRow :=
  db.submissions.filter fun s => s.sessionId = sessionId ∧ t.collected s.id = true

def isGraded (s : SubmissionRow) : Bool :=
  db.results.any fun r => r.submissionId = s.id

/-- `todo`: the collected papers without a result. -/
def todo : List SubmissionRow :=
  (db.collectedPapers t sessionId).filter fun s => !db.isGraded s

/-- `routeOf`: the question that the required file of the paper is mapped
to.  Of two the map keeps the last. -/
def routeOf (s : SubmissionRow) : Option ProblemRow :=
  (db.problemsOf sessionId).reverse.find? fun p => t.mapped p.id = some (t.deliverableOf s.id)

def rubricOf (defaultRubricId : String) (s : SubmissionRow) : String :=
  ((db.routeOf t sessionId s).bind ProblemRow.rubricId).getD defaultRubricId

/-- `deliverables.get(submission.requiredDeliverableId)`. -/
def deliverableInfo (s : SubmissionRow) : Option DeliverableRow :=
  (t.deliverables.filter fun d => d.sessionId = sessionId).reverse.find? fun d =>
    d.id = t.deliverableOf s.id

/-- The pipeline of a new row; a paper without a declared file is a text. -/
def pipelineOf (s : SubmissionRow) : Pipeline :=
  match deliverableInfo t sessionId s with
  | some d => pipelineFor d.deliverableType d.language
  | none => .oneShot

/-- Every other rubric of a paper exists and has criteria. -/
def assertRubrics (defaultRubricId : String) : List SubmissionRow → Except Failure Unit
  | [] => pure ()
  | s :: rest => do
    let rubricId := db.rubricOf t sessionId defaultRubricId s
    if rubricId ≠ defaultRubricId then
      match db.rubric rubricId with
      | none => throw (.badRequest "Rubric của một câu không còn tồn tại.")
      | some other =>
        if other.criteria = [] then
          throw (.badRequest "Rubric của một câu không có tiêu chí nào.")
    assertRubrics defaultRubricId rest

/-- `needsBundle`: some paper is to be investigated and has no bundle. -/
def needsBundle (cfg : ProblemConfig) (todo : List SubmissionRow) : Bool :=
  todo.any fun s =>
    let bundle := ((db.routeOf t sessionId s).bind ProblemRow.testBundleId).or cfg.testBundleId
    (deliverableInfo t sessionId s).isSome && decide (pipelineOf t sessionId s = .investigator) &&
      bundle.isNone

end Db

/-- What `startGrading` goes on to write. -/
structure StartPlan where
  rubric : RubricRow
  /-- The question for papers whose file is mapped to none. -/
  problemId : String
  todo : List SubmissionRow
  alreadyGraded : Nat

namespace Db

variable {K : Type} (db : Db K) (env : GradingEnv K) (t : IntakeTables) (sessionId : String)

/-- The checks of `startGrading`. -/
def planStart : Except Failure StartPlan := do
  db.assertRoutableForGrading t sessionId
  let missing :=
    Failure.badRequest "Phiên thi này chưa gắn rubric — hãy gắn rubric trước khi chấm."
  let some cfg := db.resolveProblemConfig sessionId | throw missing
  let some rubricId := cfg.rubricId | throw missing
  let some rubric := db.rubric rubricId
    | throw (.badRequest "Rubric của phiên thi này không còn tồn tại.")
  if rubric.criteria = [] then
    throw (.badRequest "Rubric đang dùng không có tiêu chí nào.")
  let todo := db.todo t sessionId
  db.assertRubrics t sessionId rubric.id todo
  if db.needsBundle t sessionId cfg todo then
    throw (.badRequest
      "Phiên này có bài chấm bằng đường điều tra (code) nhưng chưa ghim gói test — hãy tạo, duyệt và ghim một gói test trước khi bắt đầu chấm.")
  return {
    rubric
    problemId := cfg.problemId
    todo
    alreadyGraded := (db.collectedPapers t sessionId).countP db.isGraded }

/-- The new row of a paper. -/
def newResult (plan : StartPlan) (id : String) (s : SubmissionRow) : ResultRow where
  id := id
  submissionId := s.id
  problemId := some (((db.routeOf t sessionId s).map ProblemRow.id).getD plan.problemId)
  rubricIdVersion := db.rubricOf t sessionId plan.rubric.id s
  pipeline := pipelineOf t sessionId s
  status := .aiGrading
  currentAttemptId := none
  aiTotalScore := none
  confidence := none
  modelUsed := none
  flagForReview := false
  ungradable := none
  auditSampled := false
  finalizedComputationId := none

/-- The new rows, with the ids that the database draws for them. -/
def newResults (plan : StartPlan) : List ResultRow :=
  plan.todo.mapIdx fun i s => db.newResult t sessionId plan (env.uuid (db.drawnIds + i)) s

def newJob (plan : StartPlan) (s : SubmissionRow) (r : ResultRow) : GradeSubmissionJob where
  resultId := r.id
  submissionId := s.id
  requiredFilename :=
    ((deliverableInfo t sessionId s).map DeliverableRow.requiredFilename).getD ""
  deliverableType :=
    ((deliverableInfo t sessionId s).map DeliverableRow.deliverableType).getD .document
  rubricId := db.rubricOf t sessionId plan.rubric.id s

end Db

/-- `startGrading`: the answer, the rows and the queue afterwards. -/
def startGrading {K : Type} (env : GradingEnv K) (t : IntakeTables) (sessionId : String)
    (db : Db K) (queue : List GradeSubmissionJob) :
    Except Failure StartGradingResult × Db K × List GradeSubmissionJob :=
  match db.planStart t sessionId with
  | .error e => (.error e, db, queue)
  | .ok plan =>
    let rows := db.newResults env t sessionId plan
    -- the primary key of the new rows
    if ((db.results ++ rows).map ResultRow.id).Nodup then
      let jobs := List.zipWith (db.newJob t sessionId plan) plan.todo rows
      (.ok
        { rubricId := plan.rubric.id
          rubricVersion := plan.rubric.version
          queued := plan.todo.length
          alreadyGraded := plan.alreadyGraded },
        { db with
          results := db.results ++ rows
          drawnIds := db.drawnIds + rows.length },
        jobs.foldl addJob queue)
    else (.error (.error "duplicate key value violates unique constraint"), db, queue)

end Cine.Grading
