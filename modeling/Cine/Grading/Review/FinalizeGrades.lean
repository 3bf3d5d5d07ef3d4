import Cine.Grading.Review.ErrorExceptions

/-!
# Publishing the grades of a session

`finalizeGrades` of `teacher-review.service.ts`.  Nothing is published while
a paper of the session waits for somebody, or while a paper of the
investigator has no score.  The stamp of the publication and the price table
that the session pins are left out: no modelled function reads them.
-/

namespace Cine.Grading

open Cine.Lib

variable {K : Type}

structure FinalizeGradesOutcome where
  reviewedByHand : Nat
  acceptedAsProposed : Nat
  finalizedDirectly : Nat
deriving DecidableEq, Repr

def FinalizeGradesOutcome.add (a b : FinalizeGradesOutcome) : FinalizeGradesOutcome :=
  ⟨a.reviewedByHand + b.reviewedByHand, a.acceptedAsProposed + b.acceptedAsProposed,
    a.finalizedDirectly + b.finalizedDirectly⟩

/-- A step that must find the paper where it was read. -/
def advanceOrConflict (resultId : String) (source : List ResultStatus) (target : ResultStatus)
    (extra : ResultRow → ResultRow) : DbTx K Unit := do
  let moved ← advanceStatus resultId source target extra
  if !moved then
    throw (.conflict "Một bài vừa đổi trạng thái — hãy tải lại và chốt lại.")

/-- The statuses in which a paper of the investigator is published. -/
def finalizableStatuses : List ResultStatus := [.autoApproved, .teacherReviewed]

/-- The newest computation of a paper, where it has a score. -/
def Db.publishedComputation (db : Db K) (resultId : String) : Option String :=
  (db.latestComputation resultId).bind fun c => c.score.map fun _ => c.id

/-- The publication of one paper, as it was read. -/
def finalizeOne (r : ResultRow) (computationId : Option String) :
    DbTx K FinalizeGradesOutcome := do
  match r.pipeline with
  | .investigator =>
    if r.status ∉ finalizableStatuses then return ⟨0, 0, 0⟩
    advanceOrConflict r.id [r.status] .finalized fun r =>
      { r with finalizedComputationId := computationId }
    return if r.status = .autoApproved then ⟨0, 0, 1⟩ else ⟨1, 0, 0⟩
  | .oneShot =>
    if r.status = .autoApproved then
      writeReview ⟨r.id, .bulkAccept, some (r.aiTotalScore.getD 0), none, none⟩
      advanceOrConflict r.id [.autoApproved] .teacherReviewed id
      advanceOrConflict r.id [.teacherReviewed] .finalized id
      return ⟨0, 1, 0⟩
    else if r.status = .teacherReviewed then
      advanceOrConflict r.id [.teacherReviewed] .finalized id
      return ⟨1, 0, 0⟩
    else return ⟨0, 0, 0⟩

/-- The loop over the papers of a session, each with its newest computation. -/
def finalizeAll : List (ResultRow × Option String) → DbTx K FinalizeGradesOutcome
  | [] => return ⟨0, 0, 0⟩
  | p :: rest => do
    let one ← finalizeOne p.1 p.2
    let others ← finalizeAll rest
    return one.add others

/-- A paper of the investigator that is ready but has no score. -/
def Db.lacksScore (db : Db K) (r : ResultRow) : Bool :=
  r.pipeline = .investigator ∧ r.status ∈ finalizableStatuses ∧
    (db.latestComputation r.id).bind ComputationRow.score = none ∧ db.hasManualScore r.id = false

def finalizeGrades (sessionId : String) : DbTx K FinalizeGradesOutcome := do
  let db ← get
  let all := sortByKey ResultRow.id ((db.resultsOfSession sessionId).map Prod.fst)
  if all = [] then
    throw (.badRequest "Phiên thi này chưa chấm bài nào — chưa có điểm để chốt.")
  let blocking := (all.filter fun r => r.status ∈ blocksFinalize).length
  if 0 < blocking then
    throw (.conflict
      s!"Còn {blocking} bài chưa duyệt xong — hãy duyệt hết trước khi chốt điểm.")
  let withoutScore := (all.filter db.lacksScore).length
  if 0 < withoutScore then
    throw (.conflict
      (s!"{withoutScore} bài không còn điểm theo bảng lỗi hiện hành (dưới sàn) " ++
        "— hãy chấm tay trước khi chốt điểm."))
  finalizeAll (all.map fun r => (r, db.publishedComputation r.id))

end Cine.Grading
