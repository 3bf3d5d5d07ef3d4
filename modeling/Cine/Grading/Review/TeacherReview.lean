import Cine.Grading.Review.ErrorExceptions

/-!
# Reviews of one-shot papers

`review` and `reviewWithin` of `teacher-review.service.ts`.  A review is one
row of `teacher_review` with a score for the whole paper; on a published
paper the change goes to the audit log.

A criterion is named by its key here, where the request has its id.
-/

namespace Cine.Grading

open Cine.Lib

variable {K : Type}

/-- `ReviewCriterionDto`: the points that the teacher gives for a criterion. -/
structure ReviewCriterion where
  criterionKey : String
  points : Int
deriving DecidableEq, Repr

/-- `REVIEWABLE`. -/
def reviewableStatuses : List ResultStatus :=
  [.autoApproved, .flaggedForReview, .teacherReviewed, .finalized, .exported]

def ResultRow.isReviewable (r : ResultRow) : Bool :=
  r.pipeline ≠ .investigator ∧ r.status ∈ reviewableStatuses

/-- `currentFinalScore`: the newest review with a score, or the score of the
machine. -/
def Db.currentFinalScore (db : Db K) (r : ResultRow) : Option Int :=
  (db.latestReviewScore r.id fun t => t.finalScore.isSome).or r.aiTotalScore

/-- The loop of `validateAndTotal`: every entry names a criterion of the
rubric, none is named twice, and no points are over the maximum. -/
def totalOf (criteria : List RubricCriterion) : List ReviewCriterion → List String → Int →
    Except Failure (List String × Int)
  | [], seen, total => .ok (seen, total)
  | entry :: rest, seen, total =>
    match criteria.find? fun c => c.key = entry.criterionKey with
    | none =>
      .error (.badRequest "Có tiêu chí không thuộc rubric đã dùng để chấm bài này.")
    | some c =>
      if entry.criterionKey ∈ seen then
        .error (.badRequest "Một tiêu chí bị khai hai lần.")
      else if c.maxHundredths < entry.points then
        .error (.badRequest
          s!"Điểm của một tiêu chí vượt quá điểm tối đa ({formatHundredths c.maxHundredths}).")
      else totalOf criteria rest (seen ++ [entry.criterionKey]) (total + entry.points)

def Db.validateAndTotal (db : Db K) (r : ResultRow) (dto : List ReviewCriterion) :
    Except Failure Int := do
  let criteria := ((db.rubric r.rubricIdVersion).map RubricRow.criteria).getD []
  let (seen, total) ← totalOf criteria dto [] 0
  if seen.length ≠ criteria.length then
    throw (.badRequest
      "Phải chấm đủ mọi tiêu chí của rubric — thiếu một tiêu chí là tổng bị tính hụt.")
  return total

/-- `reviewWithin`, for the row as its caller has read it. -/
def reviewWithin (r : ResultRow) (dto : List ReviewCriterion) (kind : ReviewKind) :
    DbTx K (Int × Bool) := do
  let db ← get
  let finalScore ← liftM (db.validateAndTotal r dto)
  let published := r.status ∈ publishedStatuses
  let previousScore := if published then db.currentFinalScore r else none
  writeReview ⟨r.id, kind, some finalScore, none, none⟩
  let _ ← advanceStatus r.id [.autoApproved, .flaggedForReview] .teacherReviewed id
  if published then
    modify fun db => { db with
      auditLog := db.auditLog ++
        [⟨"grading_result.score_edited_after_finalize", r.id, previousScore, some finalScore⟩] }
  return (finalScore, decide published)

/-- `review`, where nothing happens to the paper between its read and the
transaction. -/
def review (resultId : String) (dto : List ReviewCriterion) : DbTx K Int := do
  let r ← findResultForOwner resultId
  if r.pipeline = .investigator then
    throw (.conflict
      "Bài chấm theo bảng lỗi — sửa điểm bằng bỏ lỗi hoặc chấm tay, không bằng sửa tiêu chí")
  if !r.isReviewable then
    throw (.conflict "Bài này chưa chấm xong — chưa duyệt được. Hãy đợi AI chấm xong.")
  let (finalScore, _) ← reviewWithin r dto .review
  return finalScore

end Cine.Grading
