import Cine.Grading.Rules.ErrorRules
import Cine.Grading.Scoring.CurrentScore

/-!
# Exceptions for one paper, and the pinned bundle

`grading/review/error-exception.service.ts`, and `pin` of
`test-bundle/test-bundle.service.ts` with `setProblemTestBundle`.

An exception or a score by hand is one row of `teacher_review` and moves the
paper to `teacher_reviewed`.  Pinning a bundle recomputes nothing.
-/

namespace Cine.Grading

open Cine.Lib

variable {K : Type}

/-- `EDITABLE`. -/
def editableStatuses : List ResultStatus := [.autoApproved, .flaggedForReview, .teacherReviewed]

/-- `PUBLISHED`. -/
def publishedStatuses : List ResultStatus := [.finalized, .exported]

/-- The texts of the statuses in the database. -/
def ResultStatus.text : ResultStatus → String
  | .aiGrading => "ai_grading"
  | .aiGraded => "ai_graded"
  | .autoApproved => "auto_approved"
  | .auditPending => "audit_pending"
  | .flaggedForReview => "flagged_for_review"
  | .teacherReviewed => "teacher_reviewed"
  | .finalized => "finalized"
  | .exported => "exported"

def findResultForOwner (resultId : String) : DbTx K ResultRow := do
  let db ← get
  match db.result resultId with
  | some row => return row
  | none => throw (.notFound "Grading result not found")

def lockEditable (resultId : String) (alsoAllowed : List ResultStatus) : DbTx K ResultRow := do
  let row ← findResultForOwner resultId
  if row.status ∉ editableStatuses ∧ row.status ∉ alsoAllowed then
    throw (.conflict
      (if row.status = .auditPending then
        "Bài đang trong mẫu kiểm — hãy ghi nhận xét kiểm mẫu trước"
      else s!"Bài đang ở trạng thái {row.status.text} — không sửa điểm được ở đây"))
  return row

def writeReview (row : ReviewRow) : DbTx K Unit :=
  modify fun db => { db with reviews := db.reviews ++ [row] }

/-- A teacher has looked at a paper. -/
def markReviewed (resultId : String) : DbTx K Unit := do
  let _ ← advanceStatus resultId [.autoApproved, .flaggedForReview] .teacherReviewed fun r =>
    { r with flagForReview := false }

/-- `setErrorException`: an error is left out of one paper, or kept. -/
def setErrorException [Number K] (env : GradingEnv K) (resultId ruleId : String)
    (direction : ErrorException) : DbTx K (Option Int) := do
  let _ ← findResultForOwner (K := K) resultId
  let _ ← ownedRule (K := K) ruleId
  let row ← lockEditable (K := K) resultId []
  if row.pipeline ≠ .investigator then
    throw (.conflict "Chỉ bài chấm theo bảng lỗi mới bỏ hay giữ được một lỗi")
  let db ← get
  if (db.latestComputation resultId).all fun c =>
      c.breakdown.errors.all fun e => e.ruleId ≠ ruleId then
    throw (.badRequest "Lỗi này không có trong lượt tính mới nhất của bài")
  writeReview ⟨resultId, .errorException, none, some ruleId, some direction⟩
  let out ← recomputeOne env resultId .errorException
  markReviewed resultId
  return out.scoreHundredths

/-- `setManualScore`: the teacher sets the score of a paper, which `readScore`
has read.  On a published paper the change goes to the audit log. -/
def setManualScore (resultId : String) (hundredths : Int) : DbTx K Unit := do
  let _ ← findResultForOwner (K := K) resultId
  let row ← lockEditable (K := K) resultId publishedStatuses
  let db ← get
  let max := ((db.rubric row.rubricIdVersion).map fun rb =>
    (rb.criteria.map RubricCriterion.maxHundredths).sum).getD 0
  if max < hundredths then
    throw (.badRequest s!"Điểm vượt trần của rubric ({formatHundredths max})")
  let review : ReviewRow := ⟨resultId, .manualScore, some hundredths, none, none⟩
  if row.status ∈ publishedStatuses then
    let before ← liftM (db.loadCurrentScore resultId)
    writeReview review
    modify fun db => { db with
      auditLog := db.auditLog ++
        [⟨"grading_result.manual_score_after_finalize", resultId, before.value,
          some hundredths⟩] }
  else
    writeReview review
    markReviewed resultId

/-! ## The pinned bundle -/

/-- `setProblemTestBundle`; for question 1 the session keeps a second copy. -/
def setProblemTestBundle (sessionId problemId bundleId : String) : DbTx K Unit := do
  let db ← get
  match db.problems.find? fun p => p.id = problemId ∧ p.sessionId = sessionId with
  | none => throw (.error s!"câu {problemId} không thuộc phiên {sessionId}")
  | some problem =>
    modify fun db => { db with
      problems := updateRow ProblemRow.id db.problems problemId fun p =>
        { p with testBundleId := some bundleId } }
    if problem.ordinal = 1 then
      modify fun db => { db with
        sessions := updateRow SessionRow.id db.sessions sessionId fun s =>
          { s with testBundleId := some bundleId } }

/-- `pin`: only an approved bundle of the session, and only before the
blueprint is confirmed. -/
def pin (sessionId bundleId : String) : DbTx K Unit := do
  let db ← get
  match db.bundles.find? fun b => b.id = bundleId ∧ b.sessionId = sessionId with
  | none => throw (.notFound s!"Gói test {bundleId} không thuộc phiên {sessionId}")
  | some bundle =>
    if bundle.approved = false then
      throw (.badRequest
        s!"Gói test {bundleId} chưa được duyệt — chỉ gói đã duyệt mới ghim được.")
    match db.session sessionId with
    | none => throw (.notFound "Không tìm thấy phiên thi.")
    | some session =>
      if session.blueprintConfirmed then
        throw (.conflict "phiên đã xác nhận đề cương — sửa tài liệu chấm theo từng câu")
      setProblemTestBundle sessionId bundle.problemId bundleId

end Cine.Grading
