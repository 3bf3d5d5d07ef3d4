import Cine.Grading.Scoring.ScoreInputs

/-!
# The current score

`grading/scoring/current-score.ts` and `loadCurrentScore`: the one function
behind every score that a teacher or a student sees.
-/

namespace Cine.Grading

open Cine.Lib

def formatHundredths (value : Int) : String :=
  s!"{value / 100}.{value % 100 / 10}{value % 10}"

structure CurrentScoreInput where
  pipeline : Pipeline
  aiTotalScore : Option Int
  latestScoredReview : Option Int
  latestManualScore : Option Int
  finalized : Bool
  finalizedComputationScore : Option Int
  latestComputationScore : Option Int
deriving DecidableEq, Repr

inductive ScoreSource
  | manual
  | review
  | finalized
  | computation
  | ai
  | none
deriving DecidableEq, Repr

structure CurrentScore where
  value : Option Int
  source : ScoreSource
deriving DecidableEq, Repr

def currentScore (x : CurrentScoreInput) : CurrentScore :=
  match x.pipeline with
  | .oneShot =>
    match x.latestScoredReview, x.aiTotalScore with
    | some score, _ => ⟨some score, .review⟩
    | none, some score => ⟨some score, .ai⟩
    | none, none => ⟨none, .none⟩
  | .investigator =>
    match x.latestManualScore with
    | some score => ⟨some score, .manual⟩
    | none =>
      match (if x.finalized then x.finalizedComputationScore else none) with
      | some score => ⟨some score, .finalized⟩
      | none =>
        match x.latestComputationScore with
        | some score => ⟨some score, .computation⟩
        | none => ⟨none, .none⟩

namespace Db

variable {K : Type} (db : Db K)

/-- The score of the newest review of a paper that `p` selects. -/
def latestReviewScore (resultId : String) (p : ReviewRow → Bool) : Option Int :=
  ((db.reviews.filter fun t => t.gradingResultId = resultId ∧ p t).getLast?).bind
    ReviewRow.finalScore

/-- What the current score of a result is computed from. -/
def currentScoreInput (r : ResultRow) : CurrentScoreInput :=
  { pipeline := r.pipeline
    aiTotalScore := r.aiTotalScore
    latestScoredReview := db.latestReviewScore r.id fun t => t.finalScore.isSome
    latestManualScore := db.latestReviewScore r.id fun t => t.kind = .manualScore
    finalized := r.status.isPublished
    finalizedComputationScore :=
      (r.finalizedComputationId.bind (rowOf ComputationRow.id db.computations)).bind
        ComputationRow.score
    latestComputationScore := (db.latestComputation r.id).bind ComputationRow.score }

def loadCurrentScore (resultId : String) : Except Failure CurrentScore :=
  match db.result resultId with
  | none => .error (.error s!"không có kết quả chấm {resultId}")
  | some r => .ok (currentScore (db.currentScoreInput r))

end Db

end Cine.Grading
