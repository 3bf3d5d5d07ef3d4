import Cine.Grading.Scoring.ScoreService

/-!
# The writes of the one-shot pipeline

The end of `gradeOne` of `grading.service.ts`: the score is one statement,
and the flag that puts the paper before the teacher another.  Neither is in
a transaction with the other, and neither takes the lock of the teacher.
-/

namespace Cine.Grading

open Cine.Lib

variable {K : Type}

/-- The score of a paper, where it is still being graded. -/
def writeOneShotScore (resultId : String) (score : Int) (confidence modelUsed : Option String) :
    DbTx K Bool := do
  let db ← get
  if (db.result resultId).any fun r => r.pipeline = .oneShot then
    advanceStatus resultId [.aiGrading] .aiGraded fun r =>
      { r with aiTotalScore := some score, confidence := confidence, modelUsed := modelUsed }
  else return false

/-- A one-shot paper is never approved by the machine. -/
def writeOneShotFlag (resultId : String) (confident : Bool) : DbTx K Bool := do
  let db ← get
  if (db.result resultId).any fun r => r.pipeline = .oneShot then
    advanceStatus resultId [.aiGraded] .flaggedForReview fun r =>
      { r with flagForReview := !confident }
  else return false

end Cine.Grading
