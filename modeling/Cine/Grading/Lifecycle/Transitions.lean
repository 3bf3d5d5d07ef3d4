import Mathlib.Init

/-!
# The lifecycle of a grading result

`grading/lifecycle/grading-transitions.ts`: the eight statuses of a result
and the edges between them.  The table is the one place that says which
status may follow which.
-/

namespace Cine.Grading

/-- `GradingResultStatus`, in the order of `GRADING_STATUSES`. -/
inductive ResultStatus
  | aiGrading
  | aiGraded
  | autoApproved
  | auditPending
  | flaggedForReview
  | teacherReviewed
  | finalized
  | exported
deriving DecidableEq, Repr, Inhabited

/-- `GRADING_TRANSITIONS`. -/
def gradingTransitions : List (ResultStatus × ResultStatus) :=
  [ (.aiGrading, .aiGraded)
  , (.aiGrading, .flaggedForReview)
  , (.aiGraded, .autoApproved)
  , (.aiGraded, .flaggedForReview)
  , (.autoApproved, .auditPending)
  , (.auditPending, .teacherReviewed)
  , (.autoApproved, .flaggedForReview)
  , (.auditPending, .flaggedForReview)
  , (.flaggedForReview, .autoApproved)
  , (.flaggedForReview, .aiGrading)
  , (.autoApproved, .teacherReviewed)
  , (.flaggedForReview, .teacherReviewed)
  , (.autoApproved, .finalized)
  , (.teacherReviewed, .finalized)
  , (.finalized, .exported) ]

def canTransition (s t : ResultStatus) : Bool := (s, t) ∈ gradingTransitions

/-- `BLOCKS_FINALIZE`. -/
def blocksFinalize : List ResultStatus :=
  [.aiGrading, .aiGraded, .flaggedForReview, .auditPending]

/-- The statuses whose score is public. -/
def ResultStatus.isPublished (s : ResultStatus) : Bool := s = .finalized ∨ s = .exported

end Cine.Grading
