import Cine.Exam.SessionStatus
import Cine.Lib.Transaction
import Cine.Lib.Utf16
import Mathlib.Data.Rat.Floor

/-!
# Attaching an authored exam to a session

`exam-authoring/attach-exam.service.ts`, with what it calls of
`grading/grading-reference.service.ts`, `exam-session/exam-material.service.ts`,
`grading/problem/reattach-problems.ts` and `grading/problem/problem.service.ts`.
The attach makes its writes in turn: the files, the material, the grading
reference, and, for an exam of several questions, the questions in a transaction
of their own.

* The session, as far as the attach reads or writes it, and the checks that come
  before the first write (`prepare`).
* The writes, one function for each, and `attach`, which undoes the first ones
  when a later one throws.  `Faults` says which of them throws of itself.
* `write_outcome` lists what the writes can come to, and `attach_keeps_or_replaces`
  what the attach can.

The layout of the documents, the digest, the clock, the new ids and the copy of
the session's rubric are parameters of the model, in `AttachEnv`.  An object that
was written and that no row points at is left where the source leaves it.
-/

namespace Cine.Authoring

open Cine.Lib Cine.Exam

/-! ## The exam and the session -/

structure GeneratedQuestion where
  statement : String
  modelAnswer : String
  points : ℚ
deriving DecidableEq, Repr

structure GeneratedExam where
  title : String
  language : String
  questions : List GeneratedQuestion
deriving DecidableEq, Repr

inductive ModelAnswerOrigin
  | teacher
  | authoring
  | generated
deriving DecidableEq, Repr

inductive AnswerTrust
  | teacher
  | verified
  | unverified
deriving DecidableEq, Repr

/-- The row of `grading_reference` of the session. -/
structure GradingReference where
  problemId : Option String
  questionMaterialId : Option String
  modelAnswerStorageKey : Option String
  modelAnswerFilename : Option String
  modelAnswerNote : Option String
  modelAnswerUnverified : Bool
  modelAnswerOrigin : Option ModelAnswerOrigin
  modelAnswerSetAt : Option Nat
  modelAnswerSourceKey : Option String
  modelAnswerSourceSha256 : Option String
  rulerTrust : Option AnswerTrust
  rulerConfirmedBy : Option String
  rulerConfirmedAt : Option Nat
  createdBy : String
deriving DecidableEq, Repr

structure ExamMaterial where
  id : String
  storageKey : String
  fileName : String
  fileSize : Nat
deriving DecidableEq, Repr

/-- A row of `exam_problem`. -/
structure ExamProblem where
  id : String
  ordinal : Nat
  title : String
  pointsHundredths : Int
  statement : Option String
  rubricId : Option String
  language : Option String
  requiredDeliverableId : Option String
deriving DecidableEq, Repr

structure RequiredDeliverable where
  id : String
  filename : String
  language : Option String
deriving DecidableEq, Repr

/-- The session with its rows and the objects in storage. -/
structure Session (B : Type) where
  id : String
  teacherId : String
  status : ExamSessionStatus
  startTime : Nat
  rubricId : Option String
  rubricTotalHundredths : Int
  /-- `blueprint_confirmed_at` is set. -/
  blueprintConfirmed : Bool
  /-- The session has a grading result. -/
  graded : Bool
  /-- `isGradingLocked`. -/
  gradingLocked : Bool
  reference : Option GradingReference
  materials : List ExamMaterial
  /-- In the order of their ordinals. -/
  problems : List ExamProblem
  /-- In the order of their file names. -/
  deliverables : List RequiredDeliverable
  storage : String → Option B

/-- What the attach uses of other packages, of the clock and of chance. -/
structure AttachEnv (B : Type) where
  buildExamPaperDocx : GeneratedExam → Except String B
  buildAnswerKeyDocx : GeneratedExam → Except String B
  /-- The length of a file. -/
  size : B → Nat
  utf8 : String → B
  sha256 : String → String
  /-- `points * 100` in the arithmetic of the script. -/
  timesHundred : ℚ → ℚ
  now : Nat
  examMaterialId : String
  /-- The id of a new row for the question with this ordinal. -/
  newProblemId : Nat → String
  newDeliverableId : Nat → String
  /-- `cloneRubricForQuestion`, for the ordinal and the points of a question. -/
  cloneRubric : Nat → Int → Except String String

/-- Which storage or database operation throws of itself. -/
structure Faults where
  /-- Some read before the first write. -/
  reads : Bool
  putPaper : Bool
  putAnswerKey : Bool
  putSource : Bool
  createMaterial : Bool
  upsertReference : Bool
  attachProblems : Bool
deriving DecidableEq, Repr

def paperFilename : String := "de-thi.docx"

def answerKeyFilename : String := "dap-an-va-test.docx"

structure AttachResult where
  examMaterialId : String
  paperFilename : String
  answerKeyFilename : String
  nextStep : String
deriving DecidableEq, Repr

/-! ## Keys of the storage -/

/-- `buildMaterialKey`. -/
def materialKey (sessionId materialId : String) : String :=
  "materials/" ++ sessionId ++ ("/" ++ materialId)

/-- `answerKeyFor`: one key for the session, whichever exam is attached. -/
def answerKeyFor (sessionId : String) : String :=
  "grading-reference/" ++ sessionId ++ "/answer-key"

def sourceKeyFor (sessionId sha256 ext : String) : String :=
  "grading-reference/" ++ sessionId ++ ("/source-" ++ (sha256 ++ ("." ++ ext)))

structure AnswerSource where
  key : String
  sha256 : String
deriving DecidableEq, Repr

/-- `answerSourceOf`: the source of the answer and its text, for an exam of one
question in a language that can be run. -/
def answerSourceOf (sha256 : String → String) (sessionId : String) (exam : GeneratedExam) :
    Option (AnswerSource × String) :=
  match exam.questions with
  | [q] =>
    let ext := if exam.language = "cpp" then some "cpp"
      else if exam.language = "python" then some "py" else none
    match ext with
    | none => none
    | some ext =>
      if trim q.modelAnswer = "" then none
      else
        some
          ({ key := sourceKeyFor sessionId (sha256 q.modelAnswer) ext
             sha256 := sha256 q.modelAnswer }, q.modelAnswer)
  | _ => none

/-! ## The checks -/

section Checks

variable {B : Type}

/-- `canAttachExam`: only before the start of a session that is not closed. -/
def canAttachExam (s : Session B) (now : Nat) : Bool :=
  s.status ∉ [ExamSessionStatus.collecting, .completed, .cancelled, .missed] && now < s.startTime

/-- `Math.round(q.points * 100)`. -/
def roundHundredths (env : AttachEnv B) (points : ℚ) : Int :=
  ⌊env.timesHundred points + 1 / 2⌋

def assertReattachable (env : AttachEnv B) (s : Session B) (questions : List GeneratedQuestion) :
    Except String (List ExamProblem) :=
  if s.graded then
    .error "Phiên đã có bài chấm — không gắn lại đề. Muốn đổi đề, mở một phiên mới."
  else if s.blueprintConfirmed then
    .error "Đề cương đã xác nhận — không gắn lại đề. Muốn đổi đề, mở một phiên mới."
  else if s.problems.length ≠ questions.length then
    .error
      (s!"Đề mới có {questions.length} câu, phiên đang có {s.problems.length} câu — " ++
        "số câu phải giữ nguyên khi gắn lại. Muốn đổi số câu, mở một phiên mới.")
  else
    match (questions.zip s.problems).findIdx? fun (q, p) =>
        roundHundredths env q.points ≠ p.pointsHundredths with
    | some i =>
      if questions.length > 1 then
        .error
          (s!"Điểm câu {i + 1} đã đổi — " ++
            "điểm từng câu phải giữ nguyên khi gắn lại. Muốn đổi điểm, mở một phiên mới.")
      else .ok s.problems
    | none => .ok s.problems

def assertSessionRouteAllowed (s : Session B) : Except String Unit :=
  if s.problems.length > 1 then
    .error s!"phiên này có {s.problems.length} câu — sửa tài liệu chấm theo từng câu"
  else if s.blueprintConfirmed then
    .error "phiên đã xác nhận đề cương — sửa tài liệu chấm theo từng câu"
  else .ok ()

def assertNotGradedYet (s : Session B) : Except String Unit :=
  if s.gradingLocked then
    .error ("Phiên thi này đã có bài mang điểm hoặc đang chấm" ++
      " — không đổi được tài liệu tham chiếu nữa.")
  else .ok ()

/-- A question of the exam, as it will be stored. -/
structure AuthoredProblemPlan where
  ordinal : Nat
  title : String
  pointsHundredths : Int
  statement : String
  language : String
deriving DecidableEq, Repr

def toHundredths (env : AttachEnv B) (points : ℚ) (ordinal : Nat) : Except String Int :=
  if points ≤ 0 then .error s!"Câu {ordinal}: điểm phải là số dương."
  else
    let rounded := roundHundredths env points
    if |env.timesHundred points - rounded| > 1 / 1000000 then
      .error s!"Câu {ordinal}: điểm có quá hai chữ số thập phân."
    else .ok rounded

def languagesOf (deliverables : List RequiredDeliverable) : List String :=
  (deliverables.filterMap RequiredDeliverable.language).eraseDups

/-- The language of the questions of `planAuthoredProblems`. -/
def planLanguage (s : Session B) (exam : GeneratedExam) : Except String String :=
  if s.deliverables ≠ [] then
    if s.deliverables.length ≠ exam.questions.length then
      .error (s!"Phiên đã khai {s.deliverables.length} yêu cầu nộp nhưng đề có " ++
        s!"{exam.questions.length} câu — số phải bằng nhau để ghép từng câu với một file.")
    else
      match languagesOf s.deliverables with
      | [language] => .ok language
      | languages =>
        let shown := if languages = [] then "chưa khai" else ", ".intercalate languages
        .error ("Đề nhiều câu cần khai đúng một ngôn ngữ trong yêu cầu nộp của phiên " ++
          s!"(hiện: {shown}).")
  else if exam.language ≠ "cpp" ∧ exam.language ≠ "python" then
    .error s!"Đề nhiều câu cần ngôn ngữ cpp hoặc python, đề hiện khai \"{exam.language}\"."
  else .ok exam.language

def planQuestion (env : AttachEnv B) (s : Session B) (q : GeneratedQuestion × Nat) :
    Except String (String → AuthoredProblemPlan) := do
  let ordinal := q.2 + 1
  let pointsHundredths ← toHundredths env q.1.points ordinal
  if s.rubricId = none then
    throw "Phiên chưa gắn rubric mẫu: đề nhiều câu cần một rubric để tách tiêu chí cho từng câu."
  if s.rubricTotalHundredths ≤ 0 then
    throw "Rubric mẫu của phiên chưa có tiêu chí có điểm để tách cho từng câu."
  return fun language =>
    { ordinal := ordinal
      title := s!"Câu {ordinal}"
      pointsHundredths := pointsHundredths
      statement := q.1.statement
      language := language }

/-- `planAuthoredProblems`, with the context read from the session. -/
def planAuthoredProblems (env : AttachEnv B) (s : Session B) (exam : GeneratedExam) :
    Except String (List AuthoredProblemPlan) := do
  let plans ← exam.questions.zipIdx.mapM (planQuestion env s)
  let language ← planLanguage s exam
  return plans.map (· language)

/-- What is known before the first write. -/
structure Prepared (B : Type) where
  exam : GeneratedExam
  /-- An exam was attached before. -/
  reattach : Bool
  paper : B
  answerKey : B

/-- `authoring !== null`. -/
def Prepared.several (p : Prepared B) : Bool :=
  p.exam.questions.length > 1

/-- The session has an answer key on record. -/
def Session.attached (s : Session B) : Bool :=
  (s.reference.bind GradingReference.modelAnswerStorageKey).isSome

/-- Whether an exam may be attached, again or for the first time. -/
def checkRoute (env : AttachEnv B) (s : Session B) (exam : GeneratedExam) : Except String Unit :=
  if s.attached then (assertReattachable env s exam.questions).map fun _ => ()
  else assertSessionRouteAllowed s

/-- Whether the questions of the exam can be planned, where there are several. -/
def checkPlan (env : AttachEnv B) (s : Session B) (exam : GeneratedExam) : Except String Unit :=
  if exam.questions.length > 1 then (planAuthoredProblems env s exam).map fun _ => ()
  else .ok ()

/-- Everything up to the first write.  `exam` is what `parseExamJson` made of the
request. -/
def prepare (env : AttachEnv B) (faults : Faults) (teacherId : String)
    (exam : Except String GeneratedExam) (s : Session B) : Except String (Prepared B) := do
  let exam ← exam
  if s.teacherId ≠ teacherId then throw "You do not own this exam session"
  if !canAttachExam s env.now then
    throw ("Không gắn đề được vào phiên này: phiên đã bắt đầu, đã kết thúc hoặc đã huỷ. " ++
      "Đề chỉ gắn được trước giờ thi — qua giờ thi thì agent đã nhận tài liệu, " ++
      "và gắn thêm sẽ khiến mỗi em nhận một bộ khác nhau.")
  checkRoute env s exam
  checkPlan env s exam
  let paper ← env.buildExamPaperDocx exam
  let answerKey ← env.buildAnswerKeyDocx exam
  assertNotGradedYet s
  if faults.reads then throw "read failed"
  return { exam := exam, reattach := s.attached, paper := paper, answerKey := answerKey }

end Checks

/-! ## The writes -/

section Writes

variable {B : Type} (env : AttachEnv B) (faults : Faults) (p : Prepared B)

/-- `putObject`. -/
def Session.put (s : Session B) (key : String) (body : B) : Session B :=
  { s with storage := fun k => if k = key then some body else s.storage k }

def Session.deleteObject (s : Session B) (key : String) : Session B :=
  { s with storage := fun k => if k = key then none else s.storage k }

/-- The two documents of the three files. -/
def putDocuments (s : Session B) : Session B :=
  let s₁ := if faults.putPaper then s else s.put (materialKey s.id env.examMaterialId) p.paper
  if faults.putAnswerKey then s₁ else s₁.put (answerKeyFor s.id) p.answerKey

/-- The three files, written side by side: one that throws does not stop the
others. -/
def putObjects (s : Session B) : Session B :=
  let s₁ := putDocuments env faults p s
  match answerSourceOf env.sha256 s.id p.exam with
  | none => s₁
  | some (source, body) => if faults.putSource then s₁ else s₁.put source.key (env.utf8 body)

def putFails (s : Session B) : Bool :=
  faults.putPaper || faults.putAnswerKey ||
    ((answerSourceOf env.sha256 s.id p.exam).isSome && faults.putSource)

def newMaterial (sessionId : String) : ExamMaterial :=
  { id := env.examMaterialId
    storageKey := materialKey sessionId env.examMaterialId
    fileName := paperFilename
    fileSize := env.size p.paper }

/-- `ExamMaterialService.create`. -/
def createMaterial (s : Session B) : Except String (Session B) :=
  if s.status = .missed then
    .error "Phiên không diễn ra — không sửa đề được. Có thể huỷ phiên."
  else if (s.storage (materialKey s.id env.examMaterialId)).isNone then
    .error "Chưa thấy file trên kho lưu trữ — hãy tải lên trước rồi xác nhận."
  else if faults.createMaterial then .error "insert failed"
  else .ok { s with materials := s.materials ++ [newMaterial env p s.id] }

/-- `ExamMaterialService.remove`. -/
def removeMaterial (s : Session B) (examMaterialId : String) : Except String (Session B) :=
  if s.status = .missed then
    .error "Phiên không diễn ra — không sửa đề được. Có thể huỷ phiên."
  else
    match s.materials.find? fun m => m.id = examMaterialId with
    | none => .error "Exam material not found"
    | some material =>
      if isExamOver s.status then
        .error "Phiên thi đã kết thúc — đề thi được giữ lại để đối chiếu, không xoá được nữa."
      else if s.reference.bind GradingReference.questionMaterialId = some material.id then
        .error ("File này đang được chọn làm đề bài cho việc chấm điểm. " ++
          "Hãy bỏ chọn nó trong phần tài liệu chấm trước khi xoá.")
      else
        .ok ({ s with materials := s.materials.filter fun m => m.id ≠ material.id }.deleteObject
          material.storageKey)

/-- The question that `ensureDefaultProblem` inserts. -/
def defaultProblem (s : Session B) : ExamProblem :=
  let deliverable := (s.deliverables.mergeSort fun a b => a.id ≤ b.id).head?
  { id := env.newProblemId 1
    ordinal := 1
    title := "Câu 1"
    pointsHundredths := if s.rubricId = none then 0 else s.rubricTotalHundredths
    statement := none
    rubricId := s.rubricId
    language := deliverable.bind RequiredDeliverable.language
    requiredDeliverableId := deliverable.map RequiredDeliverable.id }

def ensureDefaultProblem (s : Session B) : Session B × String :=
  match s.problems.find? fun q => q.ordinal = 1 with
  | some q => (s, q.id)
  | none =>
    ({ s with problems := defaultProblem env s :: s.problems }, (defaultProblem env s).id)

def assertAnswerSource (s : Session B) (source : AnswerSource) : Except String Unit :=
  if ¬ (source.sha256.length = 64 ∧
      (source.sha256.toList.all fun c => c.isDigit || ('a' ≤ c && c ≤ 'f')) = true ∧
      (source.key = sourceKeyFor s.id source.sha256 "cpp" ∨
        source.key = sourceKeyFor s.id source.sha256 "py")) then
    .error "Khoá mã nguồn đáp án không hợp lệ."
  else if (s.storage source.key).isNone then
    .error "Chưa thấy mã nguồn đáp án trên kho lưu trữ."
  else .ok ()

/-- The row that `upsert` saves: the note of an earlier answer stays, all else is
of this exam. -/
def referenceRow (teacherId problemId : String) (existing : Option GradingReference)
    (source : Option AnswerSource) (sessionId : String) : GradingReference :=
  { problemId := some problemId
    questionMaterialId := some env.examMaterialId
    modelAnswerStorageKey := some (answerKeyFor sessionId)
    modelAnswerFilename := some answerKeyFilename
    modelAnswerNote := existing.bind GradingReference.modelAnswerNote
    modelAnswerUnverified := true
    modelAnswerOrigin := some .authoring
    modelAnswerSetAt := some env.now
    modelAnswerSourceKey := source.map AnswerSource.key
    modelAnswerSourceSha256 := source.map AnswerSource.sha256
    rulerTrust := some .unverified
    rulerConfirmedBy := none
    rulerConfirmedAt := none
    createdBy := (existing.map GradingReference.createdBy).getD teacherId }

/-- The checks of `upsert`, outside and inside its transaction. -/
def checkReference (s : Session B) : Except String Unit := do
  assertNotGradedYet s
  if ¬ (s.materials.any fun m => m.id = env.examMaterialId) then
    throw "Tài liệu được chọn làm đề bài không thuộc phiên thi này."
  if (s.storage (answerKeyFor s.id)).isNone then
    throw "Chưa thấy file đáp án mẫu trên kho lưu trữ — hãy upload trước khi xác nhận."
  match answerSourceOf env.sha256 s.id p.exam with
  | none => pure ()
  | some (source, _) => assertAnswerSource s source
  if ¬ (p.reattach ∧ p.several) then assertSessionRouteAllowed s
  if faults.upsertReference then throw "transaction failed"

/-- The writes of `upsert`. -/
def saveReference (teacherId : String) (s : Session B) : Session B :=
  let source := (answerSourceOf env.sha256 s.id p.exam).map Prod.fst
  match s.reference.bind GradingReference.problemId with
  | some problemId =>
    { s with reference := some (referenceRow env teacherId problemId s.reference source s.id) }
  | none =>
    let (s₁, problemId) := ensureDefaultProblem env s
    { s₁ with reference := some (referenceRow env teacherId problemId s.reference source s.id) }

/-- `GradingReferenceService.upsert`, with what the attach gives it. -/
def upsertReference (teacherId : String) (s : Session B) : Except String (Session B) := do
  checkReference env faults p s
  return saveReference env p teacherId s

/-! ### The questions of an exam of several questions -/

/-- One `UPDATE` of `reattachProblems`. -/
def updateStatement (problems : List ExamProblem) (u : ExamProblem × GeneratedQuestion) :
    List ExamProblem :=
  problems.map fun q => if q.id = u.1.id then { q with statement := some u.2.statement } else q

def reattachProblems (s : Session B) : Except String (Session B) := do
  let existing ← assertReattachable env s p.exam.questions
  return { s with problems := (existing.zip p.exam.questions).foldl updateStatement s.problems }

/-- The deliverable of each question: the ones of the session, or new ones. -/
def deliverablesFor (s : Session B) (plans : List AuthoredProblemPlan) :
    List RequiredDeliverable :=
  if s.deliverables ≠ [] then s.deliverables
  else
    plans.map fun plan =>
      let extension := if plan.language = "python" then "py" else "cpp"
      { id := env.newDeliverableId plan.ordinal
        filename := s!"bai{plan.ordinal}.{extension}"
        language := some plan.language }

/-- The body of the loop over the plans. -/
def addProblem (firstId : String) (deliverables : List RequiredDeliverable)
    (problems : List ExamProblem) (plan : AuthoredProblemPlan) :
    Except String (List ExamProblem) := do
  let rubricId ← env.cloneRubric plan.ordinal plan.pointsHundredths
  let deliverableId := (deliverables[plan.ordinal - 1]?).map RequiredDeliverable.id
  let planned (id : String) : ExamProblem :=
    { id := id
      ordinal := plan.ordinal
      title := plan.title
      pointsHundredths := plan.pointsHundredths
      statement := some plan.statement
      rubricId := some rubricId
      language := some plan.language
      requiredDeliverableId := deliverableId }
  if plan.ordinal = 1 then
    return problems.map fun q => if q.id = firstId then { planned q.id with ordinal := q.ordinal }
      else q
  else return problems ++ [planned (env.newProblemId plan.ordinal)]

def createProblemsFromAuthoring (s : Session B) : Except String (Session B) := do
  if s.problems.any fun q => q.ordinal > 1 then
    throw "phiên đã có nhiều câu — không gắn lại đề nhiều câu."
  let plans ← planAuthoredProblems env s p.exam
  let (s₁, firstId) := ensureDefaultProblem env s
  let deliverables := deliverablesFor env s plans
  let problems ← plans.foldlM (addProblem env firstId deliverables) s₁.problems
  return { s₁ with problems := problems, deliverables := deliverables }

/-- `attachProblems`: one transaction. -/
def attachProblems (s : Session B) : Except String (Session B) :=
  if faults.attachProblems then .error "transaction failed"
  else if p.reattach then reattachProblems env p s
  else createProblemsFromAuthoring env p s

/-! ### The attach -/

/-- The `catch` before the reference is written, once the material is. -/
def undoMaterial (s : Session B) : Session B :=
  match removeMaterial s env.examMaterialId with
  | .ok s' => s'
  | .error _ => s

def attachResult : AttachResult :=
  { examMaterialId := env.examMaterialId
    paperFilename := paperFilename
    answerKeyFilename := answerKeyFilename
    nextStep := "create_bundle" }

/-- The writes of `attach`, with its `catch`. -/
def write (teacherId : String) (s : Session B) : Except String AttachResult × Session B :=
  let s₁ := putObjects env faults p s
  let paperKey := materialKey s.id env.examMaterialId
  if putFails env faults p s then (.error "putObject failed", s₁.deleteObject paperKey)
  else
    match createMaterial env faults p s₁ with
    | .error e => (.error e, s₁.deleteObject paperKey)
    | .ok s₂ =>
      match upsertReference env faults p teacherId s₂ with
      | .error e => (.error e, undoMaterial env s₂)
      | .ok s₃ =>
        if p.several then
          match attachProblems env faults p s₃ with
          -- the reference is written: nothing is undone
          | .error e => (.error e, s₃)
          | .ok s₄ => (.ok (attachResult env), s₄)
        else (.ok (attachResult env), s₃)

def attach (teacherId : String) (exam : Except String GeneratedExam) (s : Session B) :
    Except String AttachResult × Session B :=
  match prepare env faults teacherId exam s with
  | .error e => (.error e, s)
  | .ok p => write env faults p teacherId s

end Writes

/-! ## What the keys are -/

theorem materialKey_ne (sessionId materialId : String) :
    materialKey sessionId materialId ≠ answerKeyFor sessionId := by
  intro h
  have hlist := congrArg (fun k : String => k.toList.head?) h
  unfold materialKey answerKeyFor at hlist
  simp only [String.toList_append, List.append_assoc] at hlist
  have hm : "materials/".toList = 'm' :: "aterials/".toList := rfl
  have hg : "grading-reference/".toList = 'g' :: "rading-reference/".toList := rfl
  rw [hm, hg, List.cons_append, List.cons_append, List.head?_cons, List.head?_cons,
    Option.some.injEq] at hlist
  exact absurd hlist (by decide)

theorem sourceKey_ne (sessionId sha256 ext : String) :
    sourceKeyFor sessionId sha256 ext ≠ answerKeyFor sessionId := by
  intro h
  unfold sourceKeyFor answerKeyFor at h
  have hlist := congrArg String.toList ((String.append_right_inj _).1 h)
  rw [String.toList_append] at hlist
  have hs : "/source-".toList = '/' :: 's' :: "ource-".toList := rfl
  have ha : "/answer-key".toList = '/' :: 'a' :: "nswer-key".toList := rfl
  rw [hs, ha, List.cons_append, List.cons_append, List.cons.injEq, List.cons.injEq] at hlist
  exact absurd hlist.2.1 (by decide)

theorem sourceKey_ne_materialKey (sessionId materialId sha256 ext : String) :
    sourceKeyFor sessionId sha256 ext ≠ materialKey sessionId materialId := by
  intro h
  have hlist := congrArg (fun k : String => k.toList.head?) h
  unfold materialKey sourceKeyFor at hlist
  simp only [String.toList_append, List.append_assoc] at hlist
  have hm : "materials/".toList = 'm' :: "aterials/".toList := rfl
  have hg : "grading-reference/".toList = 'g' :: "rading-reference/".toList := rfl
  rw [hm, hg, List.cons_append, List.cons_append, List.head?_cons, List.head?_cons,
    Option.some.injEq] at hlist
  exact absurd hlist (by decide)

theorem answerSourceOf_key {sha256 : String → String} {sessionId : String} {exam : GeneratedExam}
    {source : AnswerSource} {body : String}
    (h : answerSourceOf sha256 sessionId exam = some (source, body)) :
    ∃ digest ext, source.key = sourceKeyFor sessionId digest ext := by
  unfold answerSourceOf at h
  split at h
  · dsimp only at h
    split at h
    · cases h
    · split_ifs at h
      cases h
      exact ⟨_, _, rfl⟩
  · cases h

/-! ## What each write leaves -/

section Steps

variable {B : Type} {env : AttachEnv B} {faults : Faults} {p : Prepared B} {s : Session B}

theorem putObjects_eq (env : AttachEnv B) (faults : Faults) (p : Prepared B) (s : Session B) :
    ∃ storage, putObjects env faults p s = { s with storage := storage } ∧
      (faults.putAnswerKey = true → storage (answerKeyFor s.id) = s.storage (answerKeyFor s.id)) ∧
      (faults.putAnswerKey = false → storage (answerKeyFor s.id) = some p.answerKey) ∧
      (faults.putPaper = false →
        storage (materialKey s.id env.examMaterialId) = some p.paper) := by
  have hne := materialKey_ne s.id env.examMaterialId
  have hdocx : ∃ storage, putDocuments env faults p s = { s with storage := storage } ∧
      (faults.putAnswerKey = true → storage (answerKeyFor s.id) = s.storage (answerKeyFor s.id)) ∧
      (faults.putAnswerKey = false → storage (answerKeyFor s.id) = some p.answerKey) ∧
      (faults.putPaper = false →
        storage (materialKey s.id env.examMaterialId) = some p.paper) := by
    unfold putDocuments Session.put
    cases faults.putPaper <;> cases faults.putAnswerKey <;>
      exact ⟨_, rfl, by simp [Ne.symm hne], by simp, by simp [hne]⟩
  obtain ⟨storage, heq, hold, hnew, hpaper⟩ := hdocx
  unfold putObjects
  dsimp only
  rw [heq]
  cases hsource : answerSourceOf env.sha256 s.id p.exam with
  | none => exact ⟨storage, rfl, hold, hnew, hpaper⟩
  | some sb =>
    obtain ⟨source, body⟩ := sb
    obtain ⟨digest, ext, hkey⟩ := answerSourceOf_key hsource
    dsimp only
    split_ifs with hf
    · exact ⟨storage, rfl, hold, hnew, hpaper⟩
    · refine ⟨fun k => if k = source.key then some (env.utf8 body) else storage k, rfl, ?_, ?_, ?_⟩
      · intro h
        dsimp only
        rw [hkey, if_neg (sourceKey_ne s.id digest ext).symm]
        exact hold h
      · intro h
        dsimp only
        rw [hkey, if_neg (sourceKey_ne s.id digest ext).symm]
        exact hnew h
      · intro h
        dsimp only
        rw [hkey, if_neg (sourceKey_ne_materialKey s.id env.examMaterialId digest ext).symm]
        exact hpaper h

theorem createMaterial_ok {s' : Session B} (h : createMaterial env faults p s = .ok s') :
    s.status ≠ .missed ∧ s' = { s with materials := s.materials ++ [newMaterial env p s.id] } := by
  unfold createMaterial at h
  split_ifs at h with hstatus
  exact ⟨hstatus, (Except.ok.inj h).symm⟩

theorem ensureDefaultProblem_cases (env : AttachEnv B) (s : Session B) :
    (∃ q ∈ s.problems, q.ordinal = 1 ∧ ensureDefaultProblem env s = (s, q.id)) ∨
      (∀ q ∈ s.problems, q.ordinal ≠ 1) ∧ ensureDefaultProblem env s =
        ({ s with problems := defaultProblem env s :: s.problems },
          (defaultProblem env s).id) := by
  unfold ensureDefaultProblem
  cases hfind : s.problems.find? fun q => q.ordinal = 1 with
  | some q =>
    refine Or.inl ⟨q, List.mem_of_find?_eq_some hfind, ?_, rfl⟩
    exact of_decide_eq_true (List.find?_some hfind :)
  | none =>
    refine Or.inr ⟨fun q hq h => ?_, rfl⟩
    exact List.find?_eq_none.1 hfind q hq (decide_eq_true h)

/-- The questions are the same, up to a default question that was missing. -/
def SameProblems (env : AttachEnv B) (s s' : Session B) : Prop :=
  s'.problems = s.problems ∨
    (∀ q ∈ s.problems, q.ordinal ≠ 1) ∧ s'.problems = defaultProblem env s :: s.problems

theorem saveReference_eq (env : AttachEnv B) (p : Prepared B) (teacherId : String)
    (s : Session B) :
    ∃ problemId, (saveReference env p teacherId s).reference =
        some (referenceRow env teacherId problemId s.reference
          ((answerSourceOf env.sha256 s.id p.exam).map Prod.fst) s.id) ∧
      (saveReference env p teacherId s).materials = s.materials ∧
      (saveReference env p teacherId s).storage = s.storage ∧
      (saveReference env p teacherId s).id = s.id ∧
      SameProblems env s (saveReference env p teacherId s) := by
  unfold saveReference
  dsimp only
  cases hid : s.reference.bind GradingReference.problemId with
  | some problemId => exact ⟨problemId, rfl, rfl, rfl, rfl, Or.inl rfl⟩
  | none =>
    dsimp only
    rcases ensureDefaultProblem_cases env s with ⟨q, _, _, heq⟩ | ⟨hno, heq⟩
    · rw [heq]
      exact ⟨q.id, rfl, rfl, rfl, rfl, Or.inl rfl⟩
    · rw [heq]
      exact ⟨_, rfl, rfl, rfl, rfl, Or.inr ⟨hno, rfl⟩⟩

theorem upsertReference_ok {teacherId : String} {s' : Session B}
    (h : upsertReference env faults p teacherId s = .ok s') :
    s' = saveReference env p teacherId s := by
  unfold upsertReference at h
  obtain ⟨_, _, h⟩ := bind_eq_ok.1 h
  exact (pure_eq_ok.1 h).symm

/-- What an attach that got this far has written: the reference, the material and
the files, all of this exam. -/
structure FromExam (env : AttachEnv B) (p : Prepared B) (s s' : Session B) : Prop where
  reference : ∃ r, s'.reference = some r ∧ r.questionMaterialId = some env.examMaterialId ∧
    r.modelAnswerStorageKey = some (answerKeyFor s.id) ∧
    r.modelAnswerFilename = some answerKeyFilename ∧ r.modelAnswerUnverified = true ∧
    r.modelAnswerOrigin = some .authoring ∧ r.rulerTrust = some .unverified ∧
    r.modelAnswerSourceKey =
      (answerSourceOf env.sha256 s.id p.exam).map (AnswerSource.key ∘ Prod.fst)
  answerKey : s'.storage (answerKeyFor s.id) = some p.answerKey
  paper : s'.storage (materialKey s.id env.examMaterialId) = some p.paper
  materials : s'.materials = s.materials ++ [newMaterial env p s.id]

/-- The rows that the session can have: the new id is new, the reference points at
the key of the session and at a material that exists, and the questions have
different ids and rising ordinals. -/
structure Session.Valid (env : AttachEnv B) (s : Session B) : Prop where
  fresh : ∀ m ∈ s.materials, m.id ≠ env.examMaterialId
  key : ∀ k, s.reference.bind GradingReference.modelAnswerStorageKey = some k →
    k = answerKeyFor s.id
  question : ∀ k, s.reference.bind GradingReference.questionMaterialId = some k →
    ∃ m ∈ s.materials, m.id = k
  ids : (s.problems.map ExamProblem.id).Nodup
  ordinals : (s.problems.map ExamProblem.ordinal).Pairwise (· < ·)
  positive : ∀ q ∈ s.problems, 1 ≤ q.ordinal

theorem undoMaterial_eq (hvalid : s.Valid env) (hstatus : s.status ≠ .missed)
    (hopen : isExamOver s.status = false) (storage : String → Option B) :
    undoMaterial env { s with
        storage := storage
        materials := s.materials ++ [newMaterial env p s.id] } =
      ({ s with storage := storage }.deleteObject (materialKey s.id env.examMaterialId)) := by
  have hfind : (s.materials ++ [newMaterial env p s.id]).find?
      (fun m => m.id = env.examMaterialId) = some (newMaterial env p s.id) := by
    rw [List.find?_append, List.find?_eq_none.2, Option.none_or]
    · exact List.find?_cons_of_pos (by simp [newMaterial])
    · intro m hm
      simpa using hvalid.fresh m hm
  have hfilter : (s.materials ++ [newMaterial env p s.id]).filter
      (fun m => m.id ≠ env.examMaterialId) = s.materials := by
    rw [List.filter_append, List.filter_eq_self.2, List.filter_cons_of_neg (by simp [newMaterial]),
      List.filter_nil, List.append_nil]
    intro m hm
    simpa using hvalid.fresh m hm
  have href : s.reference.bind GradingReference.questionMaterialId ≠
      some env.examMaterialId := by
    intro h
    obtain ⟨m, hm, hid⟩ := hvalid.question _ h
    exact hvalid.fresh m hm hid
  unfold undoMaterial removeMaterial
  dsimp only
  rw [if_neg hstatus, hfind]
  dsimp only
  rw [hopen, if_neg Bool.false_ne_true]
  have hid : (newMaterial env p s.id).id = env.examMaterialId := rfl
  rw [hid, if_neg href, hfilter]
  rfl

end Steps

/-! ## The questions afterwards -/

section Problems

variable {B : Type} {env : AttachEnv B} {faults : Faults} {p : Prepared B} {s : Session B}

/-- The text and the points of a question of the session. -/
def ExamProblem.asked (q : ExamProblem) : Option String × Int :=
  (q.statement, q.pointsHundredths)

def GeneratedQuestion.asks (env : AttachEnv B) (q : GeneratedQuestion) : Option String × Int :=
  (some q.statement, roundHundredths env q.points)

/-- A question that can be updated in place. -/
def SamePoints (env : AttachEnv B) (e : ExamProblem) (q : GeneratedQuestion) : Prop :=
  roundHundredths env q.points = e.pointsHundredths

variable {problems problems' : List ExamProblem} {questions : List GeneratedQuestion}
    {deliverables : List RequiredDeliverable}

theorem samePoints_of_findIdx? (hlength : problems.length = questions.length)
    (h : (questions.zip problems).findIdx? (fun (q, e) =>
      decide (roundHundredths env q.points ≠ e.pointsHundredths)) = none) :
    List.Forall₂ (SamePoints env) problems questions := by
  induction questions generalizing problems with
  | nil =>
    rw [List.length_nil, List.length_eq_zero_iff] at hlength
    rw [hlength]
    exact .nil
  | cons q questions ih =>
    cases problems with
    | nil => cases hlength
    | cons e problems =>
      have hall := List.findIdx?_eq_none_iff.1 h
      refine .cons ?_ (ih (Nat.succ.inj hlength) ?_)
      · show roundHundredths env q.points = e.pointsHundredths
        exact not_not.1 (of_decide_eq_false (hall (q, e) List.mem_cons_self))
      · exact List.findIdx?_eq_none_iff.2 fun x hx => hall x (List.mem_cons_of_mem _ hx)

theorem assertReattachable_ok {existing : List ExamProblem}
    (h : assertReattachable env s questions = .ok existing) :
    existing = s.problems ∧ s.problems.length = questions.length ∧
      (questions.length > 1 → List.Forall₂ (SamePoints env) s.problems questions) := by
  unfold assertReattachable at h
  rw [ite_eq_iff, ite_eq_iff, ite_eq_iff] at h
  obtain ⟨_, h⟩ | ⟨_, ⟨_, h⟩ | ⟨_, ⟨_, h⟩ | ⟨hlength, h⟩⟩⟩ := h
  · cases h
  · cases h
  · cases h
  have hlength := not_not.1 hlength
  cases hfind : (questions.zip s.problems).findIdx? fun (q, e) =>
      decide (roundHundredths env q.points ≠ e.pointsHundredths) with
  | some i =>
    rw [hfind] at h
    dsimp only at h
    split_ifs at h with hseveral
    exact ⟨(Except.ok.inj h).symm, hlength, fun hgt => absurd hgt hseveral⟩
  | none =>
    rw [hfind] at h
    exact ⟨(Except.ok.inj h).symm, hlength, fun _ => samePoints_of_findIdx? hlength hfind⟩

theorem updateStatement_append {done rest : List ExamProblem} {e : ExamProblem}
    (hids : ((done ++ e :: rest).map ExamProblem.id).Nodup) (q : GeneratedQuestion) :
    updateStatement (done ++ e :: rest) (e, q) =
      done ++ { e with statement := some q.statement } :: rest := by
  rw [List.map_append, List.map_cons, List.nodup_append] at hids
  obtain ⟨_, hright, hdisjoint⟩ := hids
  have hrest := (List.nodup_cons.1 hright).1
  unfold updateStatement
  rw [List.map_append, List.map_cons, if_pos rfl]
  congr 1
  · refine (List.map_congr_left fun x hx => ?_).trans (List.map_id done)
    exact if_neg (hdisjoint x.id (List.mem_map_of_mem hx) e.id List.mem_cons_self)
  · congr 1
    refine (List.map_congr_left fun x hx => ?_).trans (List.map_id rest)
    exact if_neg fun heq : x.id = e.id => hrest (heq ▸ List.mem_map_of_mem hx)

theorem foldl_updateStatement (done : List ExamProblem) {rest : List ExamProblem}
    (hids : ((done ++ rest).map ExamProblem.id).Nodup)
    (hpoints : List.Forall₂ (SamePoints env) rest questions) :
    ((rest.zip questions).foldl updateStatement (done ++ rest)).map ExamProblem.asked =
      done.map ExamProblem.asked ++ questions.map (GeneratedQuestion.asks env) := by
  induction hpoints generalizing done with
  | nil => rw [List.append_nil, List.map_nil, List.append_nil]; rfl
  | @cons e q rest questions he _ ih =>
    rw [List.zip_cons_cons, List.foldl_cons, updateStatement_append hids]
    have hsplit : ∀ x : ExamProblem, done ++ x :: rest = (done ++ [x]) ++ rest := by
      intro x
      rw [List.append_assoc]
      rfl
    rw [hsplit, ih]
    · rw [List.map_append, List.append_assoc, List.map_cons, List.map_cons, List.map_nil,
        List.singleton_append]
      have hasked : ExamProblem.asked { e with statement := some q.statement } =
          q.asks env := by
        unfold ExamProblem.asked GeneratedQuestion.asks
        rw [show roundHundredths env q.points = e.pointsHundredths from he]
      rw [hasked]
    · rw [← hsplit]
      simpa using hids

theorem planQuestion_ok {x : GeneratedQuestion × Nat} {plan : String → AuthoredProblemPlan}
    (h : planQuestion env s x = .ok plan) (language : String) :
    (plan language).ordinal = x.2 + 1 ∧ (plan language).statement = x.1.statement ∧
      (plan language).pointsHundredths = roundHundredths env x.1.points := by
  unfold planQuestion at h
  obtain ⟨points, hpoints, h⟩ := bind_eq_ok.1 h
  have hrounded : points = roundHundredths env x.1.points := by
    unfold toHundredths at hpoints
    dsimp only at hpoints
    split_ifs at hpoints
    exact (Except.ok.inj hpoints).symm
  obtain ⟨_, h⟩ := ite_throw_eq_ok.1 h
  obtain ⟨_, h⟩ := ite_throw_eq_ok.1 h
  rw [← pure_eq_ok.1 h]
  exact ⟨rfl, rfl, hrounded⟩

def AuthoredProblemPlan.asks (plan : AuthoredProblemPlan) : Option String × Int :=
  (some plan.statement, plan.pointsHundredths)

theorem planAuthoredProblems_ok {exam : GeneratedExam} {plans : List AuthoredProblemPlan}
    (h : planAuthoredProblems env s exam = .ok plans) :
    plans.map AuthoredProblemPlan.asks = exam.questions.map (GeneratedQuestion.asks env) ∧
      plans.map AuthoredProblemPlan.ordinal = List.range' 1 exam.questions.length := by
  unfold planAuthoredProblems at h
  obtain ⟨made, hmade, h⟩ := bind_eq_ok.1 h
  obtain ⟨language, _, h⟩ := bind_eq_ok.1 h
  rw [← pure_eq_ok.1 h]
  have hall := forall₂_of_mapM hmade
  clear hmade h
  suffices hfrom : ∀ (questions : List GeneratedQuestion) (n : Nat)
      (made : List (String → AuthoredProblemPlan)),
      List.Forall₂ (fun x plan => planQuestion env s x = .ok plan) (questions.zipIdx n) made →
      (made.map (· language)).map AuthoredProblemPlan.asks =
          questions.map (GeneratedQuestion.asks env) ∧
        (made.map (· language)).map AuthoredProblemPlan.ordinal =
          List.range' (n + 1) questions.length from hfrom _ 0 _ hall
  intro questions
  induction questions with
  | nil =>
    intro n made hall
    cases hall
    exact ⟨rfl, rfl⟩
  | cons q questions ih =>
    intro n made hall
    rw [List.zipIdx_cons] at hall
    cases hall with
    | cons hq hall =>
      obtain ⟨hasks, hordinals⟩ := ih _ _ hall
      obtain ⟨hordinal, hstatement, hpoints⟩ := planQuestion_ok hq language
      rw [List.map_cons, List.map_cons, List.map_cons, List.map_cons, hasks, hordinals, hordinal,
        List.length_cons, List.range'_succ]
      refine ⟨?_, rfl⟩
      unfold AuthoredProblemPlan.asks GeneratedQuestion.asks
      rw [hstatement, hpoints]

theorem addProblem_ok {firstId : String} {plan : AuthoredProblemPlan} (hordinal : plan.ordinal ≠ 1)
    (h : addProblem env firstId deliverables problems plan = .ok problems') :
    problems'.map ExamProblem.asked = problems.map ExamProblem.asked ++ [plan.asks] := by
  unfold addProblem at h
  obtain ⟨rubricId, _, h⟩ := bind_eq_ok.1 h
  dsimp only at h
  rw [if_neg hordinal] at h
  rw [← pure_eq_ok.1 h, List.map_append]
  rfl

theorem addProblem_first {q : ExamProblem} {plan : AuthoredProblemPlan}
    (hordinal : plan.ordinal = 1) (h : addProblem env q.id deliverables [q] plan = .ok problems') :
    problems'.map ExamProblem.asked = [plan.asks] := by
  unfold addProblem at h
  obtain ⟨rubricId, _, h⟩ := bind_eq_ok.1 h
  dsimp only at h
  rw [if_pos hordinal, List.map_singleton, if_pos rfl] at h
  rw [← pure_eq_ok.1 h]
  rfl

theorem foldlM_addProblem {firstId : String} {plans : List AuthoredProblemPlan}
    (hordinals : ∀ plan ∈ plans, plan.ordinal ≠ 1)
    (h : plans.foldlM (addProblem env firstId deliverables) problems = .ok problems') :
    problems'.map ExamProblem.asked =
      problems.map ExamProblem.asked ++ plans.map AuthoredProblemPlan.asks := by
  induction plans generalizing problems with
  | nil =>
    cases h
    rw [List.map_nil, List.append_nil]
  | cons plan plans ih =>
    rw [List.foldlM_cons] at h
    obtain ⟨next, hnext, h⟩ := bind_eq_ok.1 h
    have hplan := addProblem_ok (hordinals plan List.mem_cons_self) hnext
    rw [ih (fun x hx => hordinals x (List.mem_cons_of_mem _ hx)) h, hplan, List.append_assoc]
    rfl

theorem problems_of_ordinals (hrising : (problems.map ExamProblem.ordinal).Pairwise (· < ·))
    (hpositive : ∀ q ∈ problems, 1 ≤ q.ordinal)
    (hone : (problems.any fun q => q.ordinal > 1) = false) :
    problems = [] ∨ ∃ q, problems = [q] ∧ q.ordinal = 1 := by
  have hle : ∀ q ∈ problems, q.ordinal = 1 := by
    intro q hq
    have hnot := List.any_eq_false.1 hone q hq
    have hpos := hpositive q hq
    simp only [gt_iff_lt, decide_eq_true_eq] at hnot
    omega
  rcases problems with _ | ⟨q, _ | ⟨r, rest⟩⟩
  · exact Or.inl rfl
  · exact Or.inr ⟨q, rfl, hle q List.mem_cons_self⟩
  · have hlt : q.ordinal < r.ordinal := by
      rw [List.map_cons, List.map_cons, List.pairwise_cons] at hrising
      exact hrising.1 _ List.mem_cons_self
    have hq := hle q List.mem_cons_self
    have hr := hle r (List.mem_cons_of_mem _ List.mem_cons_self)
    omega

theorem SameProblems.ordinals {s' : Session B} (hvalid : s.Valid env)
    (hsame : SameProblems env s s') :
    (s'.problems.map ExamProblem.ordinal).Pairwise (· < ·) ∧
      ∀ q ∈ s'.problems, 1 ≤ q.ordinal := by
  rcases hsame with heq | ⟨hno, heq⟩
  · rw [heq]
    exact ⟨hvalid.ordinals, hvalid.positive⟩
  · rw [heq, List.map_cons, List.pairwise_cons]
    refine ⟨⟨?_, hvalid.ordinals⟩, ?_⟩
    · intro n hn
      obtain ⟨q, hq, rfl⟩ := List.mem_map.1 hn
      have hpos := hvalid.positive q hq
      have hne := hno q hq
      have hfirst : (defaultProblem env s).ordinal = 1 := rfl
      omega
    · intro q hq
      rcases List.mem_cons.1 hq with rfl | hq
      · exact Nat.le_refl 1
      · exact hvalid.positive q hq

theorem attachProblems_ok {s₃ s₄ : Session B} (hvalid : s.Valid env)
    (hsame : SameProblems env s s₃) (hseveral : p.exam.questions.length > 1)
    (hcount : p.reattach = true → s.problems.length = p.exam.questions.length)
    (h : attachProblems env faults p s₃ = .ok s₄) :
    (∃ problems deliverables,
      s₄ = { s₃ with problems := problems, deliverables := deliverables }) ∧
      s₄.problems.map ExamProblem.asked =
        p.exam.questions.map (GeneratedQuestion.asks env) := by
  unfold attachProblems at h
  split_ifs at h with _ hreattach
  · unfold reattachProblems at h
    obtain ⟨existing, hassert, h⟩ := bind_eq_ok.1 h
    obtain ⟨rfl, hlength, hpoints⟩ := assertReattachable_ok hassert
    have hproblems : s₃.problems = s.problems := by
      rcases hsame with heq | ⟨_, heq⟩
      · exact heq
      · rw [heq, List.length_cons, hcount hreattach] at hlength
        omega
    rw [← pure_eq_ok.1 h]
    refine ⟨⟨_, s₃.deliverables, rfl⟩, ?_⟩
    have hids := hvalid.ids
    rw [← hproblems] at hids
    exact foldl_updateStatement [] hids (hpoints hseveral)
  · unfold createProblemsFromAuthoring at h
    obtain ⟨hone, h⟩ := ite_throw_eq_ok.1 h
    obtain ⟨plans, hplans, h⟩ := bind_eq_ok.1 h
    obtain ⟨hasks, hordinals⟩ := planAuthoredProblems_ok hplans
    obtain ⟨hrising, hpositive⟩ := hsame.ordinals hvalid
    -- one question is left, the default one, whether it was there or not
    have hfirst : ∃ q : ExamProblem, ensureDefaultProblem env s₃ =
        ({ s₃ with problems := [q] }, q.id) := by
      have hleft := problems_of_ordinals hrising hpositive (Bool.eq_false_iff.2 hone)
      rcases ensureDefaultProblem_cases env s₃ with ⟨q, hq, _, heq⟩ | ⟨hno, heq⟩
      · rcases hleft with hnil | ⟨q', hq', _⟩
        · exact absurd (hnil ▸ hq) List.not_mem_nil
        · rw [hq', List.mem_singleton] at hq
          exact ⟨q, by rw [heq, hq, ← hq']⟩
      · rcases hleft with hnil | ⟨q', hq', hordinal⟩
        · exact ⟨defaultProblem env s₃, by rw [heq, hnil]⟩
        · exact absurd hordinal (hno q' (hq' ▸ List.mem_singleton_self q'))
    obtain ⟨q, hq⟩ := hfirst
    rw [hq] at h
    obtain ⟨problems, hproblems, h⟩ := bind_eq_ok.1 h
    rw [← pure_eq_ok.1 h]
    refine ⟨⟨problems, _, rfl⟩, ?_⟩
    show problems.map ExamProblem.asked = _
    rw [← hasks]
    cases plans with
    | nil =>
      rw [List.map_nil] at hordinals
      have hzero := congrArg List.length hordinals
      rw [List.length_range', List.length_nil] at hzero
      omega
    | cons plan plans =>
      obtain ⟨n, hn⟩ : ∃ n, p.exam.questions.length = n + 1 := ⟨_, (Nat.succ_pred (by omega)).symm⟩
      rw [hn, List.range'_succ, List.map_cons, List.cons.injEq] at hordinals
      rw [List.foldlM_cons] at hproblems
      obtain ⟨next, hnext, hproblems⟩ := bind_eq_ok.1 hproblems
      have hrest : ∀ x ∈ plans, x.ordinal ≠ 1 := by
        intro x hx
        have hmem := List.mem_map_of_mem (f := AuthoredProblemPlan.ordinal) hx
        rw [hordinals.2, List.mem_range'_1] at hmem
        omega
      rw [foldlM_addProblem hrest hproblems, addProblem_first hordinals.1 hnext]
      rfl

end Problems

/-! ## What an attach comes to -/

section Outcome

variable {B : Type} {env : AttachEnv B} {faults : Faults} {p : Prepared B} {s : Session B}

/-- The earlier attachment, as far as the database has it. -/
structure Untouched (s s' : Session B) : Prop where
  reference : s'.reference = s.reference
  materials : s'.materials = s.materials
  problems : s'.problems = s.problems

/-- The earlier answer key: the bytes that the reference points at. -/
def SameAnswer (s s' : Session B) : Prop :=
  ∀ k, s.reference.bind GradingReference.modelAnswerStorageKey = some k →
    s'.storage k = s.storage k

theorem sameAnswer_deleteObject {storage : String → Option B} (hvalid : s.Valid env)
    (h : storage (answerKeyFor s.id) = s.storage (answerKeyFor s.id)) :
    SameAnswer s ({ s with storage := storage }.deleteObject
      (materialKey s.id env.examMaterialId)) := by
  intro k hk
  rw [hvalid.key k hk]
  unfold Session.deleteObject
  dsimp only
  rw [if_neg (materialKey_ne s.id env.examMaterialId).symm]
  exact h

theorem prepare_ok {teacherId : String} {exam : Except String GeneratedExam}
    (h : prepare env faults teacherId exam s = .ok p) :
    exam = .ok p.exam ∧ canAttachExam s env.now = true ∧
      (p.reattach = true → s.problems.length = p.exam.questions.length) := by
  unfold prepare at h
  obtain ⟨made, hmade, h⟩ := bind_eq_ok.1 h
  obtain ⟨_, h⟩ := ite_throw_eq_ok.1 h
  obtain ⟨hcan, h⟩ := ite_throw_eq_ok.1 h
  obtain ⟨_, hroute, h⟩ := bind_eq_ok.1 h
  obtain ⟨_, _, h⟩ := bind_eq_ok.1 h
  obtain ⟨paper, _, h⟩ := bind_eq_ok.1 h
  obtain ⟨answerKey, _, h⟩ := bind_eq_ok.1 h
  obtain ⟨_, _, h⟩ := bind_eq_ok.1 h
  obtain ⟨_, h⟩ := ite_throw_eq_ok.1 h
  obtain rfl := pure_eq_ok.1 h
  refine ⟨hmade, by simpa using hcan, fun hattached => ?_⟩
  unfold checkRoute at hroute
  rw [if_pos hattached] at hroute
  obtain ⟨existing, hexisting, _⟩ := map_eq_ok.1 hroute
  exact (assertReattachable_ok hexisting).2.1

theorem open_of_canAttachExam {now : Nat} (h : canAttachExam s now = true) :
    s.status ≠ .missed ∧ isExamOver s.status = false := by
  unfold canAttachExam at h
  have hstatus := of_decide_eq_true (Bool.and_eq_true_iff.1 h).1
  unfold isExamOver
  cases hs : s.status <;> rw [hs] at hstatus <;> simp_all

theorem fromExam_saveReference (teacherId : String) {storage : String → Option B}
    (hkey : storage (answerKeyFor s.id) = some p.answerKey)
    (hpaper : storage (materialKey s.id env.examMaterialId) = some p.paper) :
    FromExam env p s (saveReference env p teacherId { s with
      storage := storage
      materials := s.materials ++ [newMaterial env p s.id] }) ∧
    SameProblems env s (saveReference env p teacherId { s with
      storage := storage
      materials := s.materials ++ [newMaterial env p s.id] }) := by
  obtain ⟨problemId, href, hmaterials, hstorage, _, hsame⟩ := saveReference_eq env p teacherId
    { s with storage := storage, materials := s.materials ++ [newMaterial env p s.id] }
  refine ⟨⟨⟨_, href, rfl, rfl, rfl, rfl, rfl, rfl, ?_⟩, ?_, ?_, hmaterials⟩, hsame⟩
  · show Option.map AnswerSource.key _ = _
    rw [Option.map_map]
  · rw [hstorage]
    exact hkey
  · rw [hstorage]
    exact hpaper

theorem FromExam.problems {s₃ : Session B} (h : FromExam env p s s₃)
    (problems : List ExamProblem) (deliverables : List RequiredDeliverable) :
    FromExam env p s { s₃ with problems := problems, deliverables := deliverables } :=
  ⟨h.reference, h.answerKey, h.paper, h.materials⟩

theorem write_outcome (hvalid : s.Valid env) (teacherId : String)
    (hopen : s.status ≠ .missed ∧ isExamOver s.status = false)
    (hcount : p.reattach = true → s.problems.length = p.exam.questions.length)
    {result : Except String AttachResult} {s' : Session B}
    (h : write env faults p teacherId s = (result, s')) :
    (∃ e, result = .error e ∧ Untouched s s' ∧ (faults.putAnswerKey = true → SameAnswer s s')) ∨
    (∃ e, result = .error e ∧ p.several = true ∧ attachProblems env faults p s' = .error e ∧
      FromExam env p s s' ∧ SameProblems env s s') ∨
    (result = .ok (attachResult env) ∧ FromExam env p s s' ∧
      (p.several = true → s'.problems.map ExamProblem.asked =
        p.exam.questions.map (GeneratedQuestion.asks env)) ∧
      (p.several = false → SameProblems env s s')) := by
  obtain ⟨storage, hput, hold, hnew, hpaper⟩ := putObjects_eq env faults p s
  unfold write at h
  dsimp only at h
  rw [hput] at h
  -- before the material is there, only the paper is taken back
  have hdelete : Untouched s ({ s with storage := storage }.deleteObject
      (materialKey s.id env.examMaterialId)) := ⟨rfl, rfl, rfl⟩
  by_cases hfails : putFails env faults p s = true
  · rw [if_pos hfails] at h
    obtain ⟨rfl, rfl⟩ := Prod.mk.inj h
    exact Or.inl ⟨_, rfl, hdelete, fun hkey => sameAnswer_deleteObject hvalid (hold hkey)⟩
  rw [if_neg hfails] at h
  have hfails := Bool.eq_false_iff.2 hfails
  unfold putFails at hfails
  rw [Bool.or_eq_false_iff, Bool.or_eq_false_iff] at hfails
  have hkey := hnew hfails.1.2
  have hpaper := hpaper hfails.1.1
  have hput : faults.putAnswerKey ≠ true := Bool.eq_false_iff.1 hfails.1.2
  split at h
  · obtain ⟨rfl, rfl⟩ := Prod.mk.inj h
    exact Or.inl ⟨_, rfl, hdelete, fun hf => absurd hf hput⟩
  · rename_i s₂ hcreate
    obtain ⟨_, rfl⟩ := createMaterial_ok hcreate
    split at h
    · obtain ⟨rfl, rfl⟩ := Prod.mk.inj h
      refine Or.inl ⟨_, rfl, ?_, fun hf => absurd hf hput⟩
      have hundo := undoMaterial_eq (p := p) hvalid hopen.1 hopen.2 storage
      dsimp only at hundo ⊢
      rw [hundo]
      exact hdelete
    · rename_i s₃ hupsert
      obtain rfl := upsertReference_ok hupsert
      obtain ⟨hfrom, hsame⟩ := fromExam_saveReference teacherId hkey hpaper
      by_cases hseveral : p.several = true
      · rw [if_pos hseveral] at h
        split at h
        · rename_i hproblems
          obtain ⟨rfl, rfl⟩ := Prod.mk.inj h
          exact Or.inr (Or.inl ⟨_, rfl, hseveral, hproblems, hfrom, hsame⟩)
        · rename_i s₄ hproblems
          obtain ⟨rfl, rfl⟩ := Prod.mk.inj h
          obtain ⟨⟨problems, deliverables, rfl⟩, hasked⟩ := attachProblems_ok hvalid hsame
            (of_decide_eq_true hseveral) hcount hproblems
          refine Or.inr (Or.inr ⟨rfl, hfrom.problems problems deliverables, fun _ => hasked, ?_⟩)
          intro hone
          exact absurd hseveral (Bool.eq_false_iff.1 hone)
      · rw [if_neg hseveral] at h
        obtain ⟨rfl, rfl⟩ := Prod.mk.inj h
        exact Or.inr (Or.inr ⟨rfl, hfrom, fun hf => absurd hf hseveral, fun _ => hsame⟩)

end Outcome

/-! ## An exam attached again -/

/-- Documents that are texts, and a rubric that can be copied. -/
def textEnv : AttachEnv String where
  buildExamPaperDocx exam := .ok exam.title
  buildAnswerKeyDocx exam := .ok (exam.title ++ "!")
  size := String.length
  utf8 := id
  sha256 := id
  timesHundred points := points * 100
  now := 5
  examMaterialId := "m2"
  newProblemId n := if n = 1 then "q1" else "q2"
  newDeliverableId n := if n = 1 then "d1" else "d2"
  cloneRubric _ _ := .ok "r"

def twoQuestions (title : String) : GeneratedExam where
  title := title
  language := "cpp"
  questions := [⟨"A", "", 4⟩, ⟨"B", "", 6⟩]

def attachedReference : GradingReference where
  problemId := some "p1"
  questionMaterialId := some "m1"
  modelAnswerStorageKey := some (answerKeyFor "s")
  modelAnswerFilename := some answerKeyFilename
  modelAnswerNote := none
  modelAnswerUnverified := true
  modelAnswerOrigin := some .authoring
  modelAnswerSetAt := some 1
  modelAnswerSourceKey := none
  modelAnswerSourceSha256 := none
  rulerTrust := some .unverified
  rulerConfirmedBy := none
  rulerConfirmedAt := none
  createdBy := "t"

/-- A session with the first version of an exam. -/
def attachedSession : Session String where
  id := "s"
  teacherId := "t"
  status := .scheduled
  startTime := 10
  rubricId := some "r"
  rubricTotalHundredths := 1000
  blueprintConfirmed := false
  graded := false
  gradingLocked := false
  reference := some attachedReference
  materials := [⟨"m1", "materials/s/m1", paperFilename, 2⟩]
  problems :=
    [⟨"p1", 1, "Câu 1", 400, some "a", some "r", some "cpp", some "d1"⟩,
      ⟨"p2", 2, "Câu 2", 600, some "b", some "r", some "cpp", some "d2"⟩]
  deliverables := [⟨"d1", "bai1.cpp", some "cpp"⟩, ⟨"d2", "bai2.cpp", some "cpp"⟩]
  storage k := if k = answerKeyFor "s" then some "v1!" else none

def noFaults : Faults := ⟨false, false, false, false, false, false, false⟩

theorem attachedSession_valid : attachedSession.Valid textEnv where
  fresh := by decide
  key := by
    intro k hk
    exact (Option.some.inj hk).symm
  question := by
    intro k hk
    exact ⟨_, List.mem_singleton_self _, Option.some.inj hk⟩
  ids := by decide
  ordinals := by decide
  positive := by decide

/-- The second version, with these faults. -/
def attachAgain (faults : Faults) : Except String AttachResult × Session String :=
  attach textEnv faults "t" (.ok (twoQuestions "v2")) attachedSession

end Cine.Authoring
