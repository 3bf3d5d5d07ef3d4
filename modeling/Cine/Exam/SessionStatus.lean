/-!
# The states of an exam session

`exam-session/entities/exam-session.entity.ts` and the predicates of
`exam-session/exam-session.types.ts`.
-/

namespace Cine.Exam

inductive ExamSessionStatus
  | draft
  | scheduled
  | notReady
  | missed
  | active
  | collecting
  | completed
  | cancelled
deriving DecidableEq, Repr

def isExamOver (status : ExamSessionStatus) : Bool :=
  status = .collecting ∨ status = .completed

def isCollectionOpen (status : ExamSessionStatus) : Bool :=
  status = .active ∨ status = .collecting ∨ status = .completed

def canCancelExamSession (status : ExamSessionStatus) : Bool :=
  status = .draft ∨ status = .scheduled ∨ status = .notReady ∨ status = .missed

def isAwaitingOpen (status : ExamSessionStatus) : Bool :=
  status = .scheduled ∨ status = .notReady

end Cine.Exam
