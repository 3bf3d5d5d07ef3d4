import Cine.Exam.SessionStatus
import Cine.Lib.LockedRow
import Cine.Lib.Machine

/-!
# The life cycle of a session

The operations that write `exam_session.status`: `cancel`,
`finalizeExamSession` and `transitionUnopened` of
`exam-session/exam-session.service.ts`, `freeze` of
`session-roster.service.ts`, `advanceAutoOpen` of
`exam-session.scheduler.ts`, `confirmEnd` and `completeExpired` of
`collection-phase.service.ts`.

Any number of calls is under way, and every read and every write of the row
is a move of its own.  What the other tables say to `freeze` is part of the
move.  Times are milliseconds.
-/

namespace Cine.Exam

open Cine.Lib

/-- `exam_session`, as far as its life cycle reads and writes it. -/
structure SessionColumns where
  status : ExamSessionStatus
  classId : Option String
  startTime : Int
  endTime : Int
  completedAt : Option Int
  completedBy : Option String
deriving DecidableEq, Repr

/-- The states that `transitionUnopened` writes. -/
inductive Unopened
  | notReady
  | missed
deriving DecidableEq, Repr

def Unopened.status : Unopened → ExamSessionStatus
  | notReady => .notReady
  | missed => .missed

def SUBMISSION_GRACE_PERIOD_MS : Int := 30 * 60000

/-! ## The calls -/

/-- Who calls `freeze`: the teacher, or the sweep with its clock. -/
inductive Opener
  | teacher
  | sweep (now : Int)
deriving DecidableEq, Repr

inductive OpenError
  | badRequest
  | conflict
deriving DecidableEq, Repr

inductive SessionCall
  | idle
  /-- `cancel` has its session -/
  | cancel (session : SessionColumns)
  /-- `advanceAutoOpen` has its session -/
  | advance (now : Int) (session : SessionColumns)
  /-- `freeze` has its session -/
  | freeze (opener : Opener) (session : SessionColumns)
  /-- the transaction of `freeze` has read the row again -/
  | freezeRead (opener : Opener) (session current : SessionColumns)
  /-- the checks of `freeze` are passed -/
  | freezeChecked
  /-- `freeze` has written -/
  | freezeWritten
  | transitionUnopened (status : Unopened)
  | confirmEnd (teacherId : String)
  /-- `confirmEnd` has written -/
  | confirmWritten
deriving DecidableEq, Repr

/-- What follows an error of `freeze`. -/
def onOpenError (session : SessionColumns) : Opener → OpenError → SessionCall
  | .teacher, _ => .idle
  | .sweep _, .conflict => .idle
  | .sweep now, .badRequest =>
    let next : Unopened := if session.startTime ≤ now then .missed else .notReady
    if session.status = next.status then .idle else .transitionUnopened next

/-- The checks of `freeze` before its transaction. -/
def freezeEntry (session : SessionColumns) : Except OpenError Unit :=
  if session.status = .missed then throw .conflict
  else if session.classId = none then throw .badRequest
  else pure ()

/-- The checks in the transaction of `freeze`: whether it writes. -/
def freezeChecks (current : SessionColumns) (deliverableCount existingRows enrolled : Nat) :
    Except OpenError Bool :=
  if deliverableCount = 0 then throw .badRequest
  else if 0 < existingRows then
    if current.status = .active then pure false
    else if isAwaitingOpen current.status then pure true
    else throw .conflict
  else if current.status = .missed then throw .conflict
  else if ¬ isAwaitingOpen current.status then throw .conflict
  else if enrolled = 0 then throw .badRequest
  else pure true

/-- What `advanceAutoOpen` does with its session. -/
def advanceAutoOpen (now : Int) (session : SessionColumns) : SessionCall :=
  if ¬ isAwaitingOpen session.status then .idle
  else if session.endTime ≤ now then .transitionUnopened .missed
  else .freeze (.sweep now) session

/-! ## The statements -/

/-- The `WHERE` of `transitionUnopened`. -/
def isUnopened (row : SessionColumns) : Bool :=
  row.status = .scheduled ∨ row.status = .notReady

/-- The `WHERE` of `confirmEnd`. -/
def isConfirmable (now : Int) (row : SessionColumns) : Bool :=
  row.status = .collecting ∨
    (row.status = .completed ∧ row.completedBy = none ∧
      now ≤ row.endTime + SUBMISSION_GRACE_PERIOD_MS)

def SessionColumns.to (status : ExamSessionStatus) (row : SessionColumns) : SessionColumns :=
  { row with status := status }

/-- The `SET` of `confirmEnd`. -/
def SessionColumns.confirm (teacherId : String) (now : Int) (row : SessionColumns) :
    SessionColumns :=
  { row with status := .completed, completedAt := some now, completedBy := some teacherId }

/-- The `SET` of `completeExpired`. -/
def SessionColumns.expire (now : Int) (row : SessionColumns) : SessionColumns :=
  { row with status := .completed, completedAt := some now }

/-! ## The moves -/

/-- The row of the session and the calls under way. -/
structure SessionWorld where
  row : LockedRow Nat SessionColumns
  calls : Nat → SessionCall

inductive SessionMove
  | readToCancel
  | readToOpen
  | readToAdvance (now : Int)
  | callTransition (status : Unopened)
  | callConfirm (teacherId : String)
  | cancel
  | advance
  | freezeEnter
  | freezeCheck (deliverableCount existingRows enrolled : Nat)
  | freezeWrite
  | transitionUnopened
  | finalizeExamSession
  | confirmEnd (now : Int)
  | completeExpired (now : Int)
  | commit
  /-- the call fails or its process dies -/
  | fail
deriving DecidableEq, Repr

namespace SessionWorld

/-- No call is under way. -/
def start (row : SessionColumns) : SessionWorld := ⟨⟨row, none⟩, fun _ => .idle⟩

def setCall (s : SessionWorld) (i : Nat) (call : SessionCall) : SessionWorld :=
  { s with calls := Function.update s.calls i call }

/-- An answer of an `UPDATE`, or the call waits. -/
def afterUpdate (s : SessionWorld) (i : Nat)
    (answer : Option (Bool × LockedRow Nat SessionColumns)) (call : SessionCall) : SessionWorld :=
  match answer with
  | none => s
  | some (_, row) => { s with row := row }.setCall i call

def moveOf (s : SessionWorld) (i : Nat) : SessionMove → SessionCall → SessionWorld
  | .readToCancel, .idle => s.setCall i (.cancel s.row.committed)
  | .readToOpen, .idle => s.setCall i (.freeze .teacher s.row.committed)
  | .readToAdvance now, .idle => s.setCall i (.advance now s.row.committed)
  | .callTransition status, .idle => s.setCall i (.transitionUnopened status)
  | .callConfirm teacherId, .idle => s.setCall i (.confirmEnd teacherId)
  | .cancel, .cancel session =>
    if canCancelExamSession session.status then
      s.afterUpdate i (s.row.statement i (fun _ => true) (.to .cancelled)) .idle
    else s.setCall i .idle
  | .advance, .advance now session => s.setCall i (advanceAutoOpen now session)
  | .freezeEnter, .freeze opener session =>
    match freezeEntry session with
    | .error e => s.setCall i (onOpenError session opener e)
    | .ok () => s.setCall i (.freezeRead opener session s.row.committed)
  | .freezeCheck deliverableCount existingRows enrolled, .freezeRead opener session current =>
    match freezeChecks current deliverableCount existingRows enrolled with
    | .error e => s.setCall i (onOpenError session opener e)
    | .ok true => s.setCall i .freezeChecked
    | .ok false => s.setCall i .idle
  | .freezeWrite, .freezeChecked =>
    s.afterUpdate i (s.row.update i (fun _ => true) (.to .active)) .freezeWritten
  | .transitionUnopened, .transitionUnopened status =>
    s.afterUpdate i (s.row.statement i isUnopened (.to status.status)) .idle
  | .finalizeExamSession, .idle =>
    s.afterUpdate i (s.row.statement i (fun row => row.status = .active) (.to .collecting)) .idle
  | .confirmEnd now, .confirmEnd teacherId =>
    s.afterUpdate i (s.row.update i (isConfirmable now) (.confirm teacherId now)) .confirmWritten
  | .completeExpired now, .idle =>
    s.afterUpdate i (s.row.statement i (fun row => row.status = .collecting) (.expire now)) .idle
  | .commit, .freezeWritten => { s with row := s.row.commit i }.setCall i .idle
  | .commit, .confirmWritten => { s with row := s.row.commit i }.setCall i .idle
  | .fail, _ => { s with row := s.row.rollback i }.setCall i .idle
  | _, _ => s

def move (s : SessionWorld) (m : Nat × SessionMove) : SessionWorld :=
  s.moveOf m.1 m.2 (s.calls m.1)

/-- The status that everybody reads. -/
def status (s : SessionWorld) : ExamSessionStatus := s.row.committed.status

end SessionWorld

/-! ## The declared life cycle -/

/-- The edges of the comment on `ExamSessionStatus`. -/
def declared : ExamSessionStatus → ExamSessionStatus → Bool
  | .draft, .scheduled => true
  | .draft, .cancelled => true
  | .scheduled, .notReady => true
  | .scheduled, .missed => true
  | .scheduled, .active => true
  | .scheduled, .cancelled => true
  | .notReady, .missed => true
  | .notReady, .active => true
  | .notReady, .cancelled => true
  | .missed, .cancelled => true
  | .active, .collecting => true
  | .collecting, .completed => true
  | _, _ => false

/-- Where a session can come that has this status. -/
def StaysIn : ExamSessionStatus → ExamSessionStatus → Prop
  | .active, later => later = .active ∨ later = .collecting ∨ later = .completed
  | .collecting, later => later = .collecting ∨ later = .completed
  | .completed, later => later = .completed
  | .missed, later => later = .missed ∨ later = .cancelled
  | .cancelled, later => later = .cancelled
  | .draft, _ => True
  | .scheduled, _ => True
  | .notReady, _ => True

theorem StaysIn.refl (status : ExamSessionStatus) : StaysIn status status := by
  cases status <;> simp [StaysIn]

theorem StaysIn.edge {first status next : ExamSessionStatus} (h : StaysIn first status)
    (hedge : declared status next = true) : StaysIn first next := by
  cases first <;> cases status <;> cases next <;> simp_all [StaysIn, declared]

/-- A change of the row along the life cycle. -/
def Follows (row row' : SessionColumns) : Prop :=
  row'.status = row.status ∨ declared row.status row'.status = true

theorem Follows.refl (row : SessionColumns) : Follows row row := .inl rfl

variable {row : SessionColumns}

theorem follows_cancelled (h : canCancelExamSession row.status = true ∨ row.status = .cancelled) :
    Follows row (row.to .cancelled) := by
  unfold Follows SessionColumns.to
  revert h
  cases row.status <;> simp [canCancelExamSession, declared]

theorem follows_active (h : isAwaitingOpen row.status = true ∨ row.status = .active) :
    Follows row (row.to .active) := by
  unfold Follows SessionColumns.to
  revert h
  cases row.status <;> simp [isAwaitingOpen, declared]

theorem follows_unopened (status : Unopened) (h : isUnopened row = true) :
    Follows row (row.to status.status) := by
  unfold isUnopened at h
  unfold Follows SessionColumns.to
  revert h
  cases status <;> cases row.status <;> simp [Unopened.status, declared]

theorem follows_collecting (h : row.status = .active) : Follows row (row.to .collecting) := by
  right
  rw [h]
  rfl

theorem follows_expired {now : Int} (h : row.status = .collecting) :
    Follows row (row.expire now) := by
  right
  rw [h]
  rfl

theorem follows_confirmed {now : Int} {teacherId : String} (h : isConfirmable now row = true) :
    Follows row (row.confirm teacherId now) := by
  obtain hcollecting | ⟨hcompleted, _⟩ := of_decide_eq_true h
  · right
    rw [hcollecting]
    rfl
  · left
    rw [hcompleted]
    rfl

namespace SessionWorld

/-! ## What a move keeps -/

/-- The two writes without a `WHERE` on the status find the row in a status
that their checks accept, or already in the one they write. -/
def FindsChecked (s : SessionWorld) (m : Nat × SessionMove) : Prop :=
  s.row.pending = none →
    match m.2, s.calls m.1 with
    | .cancel, .cancel session => canCancelExamSession session.status = true →
        canCancelExamSession s.status = true ∨ s.status = .cancelled
    | .freezeWrite, .freezeChecked => isAwaitingOpen s.status = true ∨ s.status = .active
    | _, _ => True

/-- The row keeps to the life cycle from one state to the next. -/
structure Kept (s s' : SessionWorld) : Prop where
  within : s'.row.Within Follows
  follows : Follows s.row.committed s'.row.committed

variable {s : SessionWorld} {i : Nat}

theorem Kept.setCall (h : s.row.Within Follows) (call : SessionCall) :
    Kept s (s.setCall i call) :=
  ⟨h, .refl _⟩

variable {call : SessionCall}

theorem Kept.afterUpdate {answer : Option (Bool × LockedRow Nat SessionColumns)}
    (h : s.row.Within Follows) (hanswer : ∀ affected row, answer = some (affected, row) →
      row.Within Follows ∧ Follows s.row.committed row.committed) :
    Kept s (s.afterUpdate i answer call) := by
  cases answer with
  | none => exact ⟨h, .refl _⟩
  | some answer =>
    obtain ⟨hwithin, hfollows⟩ := hanswer answer.1 answer.2 rfl
    exact ⟨hwithin, hfollows⟩

theorem Kept.statement {guard : SessionColumns → Bool} {change : SessionColumns → SessionColumns}
    (h : s.row.Within Follows) (hchange : s.row.pending = none → guard s.row.committed = true →
      Follows s.row.committed (change s.row.committed)) :
    Kept s (s.afterUpdate i (s.row.statement i guard change) call) := by
  refine .afterUpdate h fun affected row hrow => ?_
  refine LockedRow.Within.statement Follows.refl h hrow fun hguard => ?_
  obtain ⟨answer, hupdate, _⟩ := Option.map_eq_some_iff.1 hrow
  exact hchange (LockedRow.update_free hupdate) hguard

theorem Kept.update {guard : SessionColumns → Bool} {change : SessionColumns → SessionColumns}
    (h : s.row.Within Follows) (hchange : s.row.pending = none → guard s.row.committed = true →
      Follows s.row.committed (change s.row.committed)) :
    Kept s (s.afterUpdate i (s.row.update i guard change) call) := by
  refine .afterUpdate h fun affected row hrow => ⟨?_, ?_⟩
  · exact h.update hrow (hchange (LockedRow.update_free hrow))
  · rw [LockedRow.update_committed hrow]
    exact .refl _

theorem Kept.move {m : Nat × SessionMove} (h : s.row.Within Follows) (hm : s.FindsChecked m) :
    Kept s (s.move m) := by
  obtain ⟨i, m⟩ := m
  unfold FindsChecked at hm
  unfold SessionWorld.move
  dsimp only at hm ⊢
  generalize s.calls i = call at hm
  unfold moveOf
  split
  · exact .setCall h _
  · exact .setCall h _
  · exact .setCall h _
  · exact .setCall h _
  · exact .setCall h _
  · split
    · rename_i session hcheck
      exact .statement h fun hfree _ => follows_cancelled (hm hfree hcheck)
    · exact .setCall h _
  · exact .setCall h _
  · split <;> exact .setCall h _
  · split <;> exact .setCall h _
  · exact .update h fun hfree _ => follows_active (hm hfree)
  · exact .statement h fun _ hguard => follows_unopened _ hguard
  · exact .statement h fun _ hguard => follows_collecting (of_decide_eq_true hguard)
  · exact .update h fun _ hguard => follows_confirmed hguard
  · exact .statement h fun _ hguard => follows_expired (of_decide_eq_true hguard)
  · exact ⟨h.commit, h.commit_rel Follows.refl⟩
  · exact ⟨h.commit, h.commit_rel Follows.refl⟩
  · refine ⟨h.rollback, ?_⟩
    show Follows _ (s.row.rollback i).committed
    rw [LockedRow.rollback_committed]
    exact .refl _
  · exact ⟨h, .refl _⟩

theorem within_of_reach {row : SessionColumns}
    (hs : Reach move FindsChecked (start row) s) : s.row.Within Follows :=
  hs.invariant (I := fun s => s.row.Within Follows) (.free Follows row)
    fun _ _ hwithin hm => (Kept.move hwithin hm).within

theorem staysIn_of_reach {s' : SessionWorld} (h : s.row.Within Follows)
    (hrun : Reach move FindsChecked s s') : StaysIn s.status s'.status := by
  have hkept : s'.row.Within Follows ∧ StaysIn s.status s'.status := by
    refine hrun.invariant (I := fun s' => s'.row.Within Follows ∧ StaysIn s.status s'.status)
      ⟨h, .refl _⟩ fun t m ht hm => ?_
    have hmove := Kept.move ht.1 hm
    refine ⟨hmove.within, ?_⟩
    obtain hsame | hedge := hmove.follows
    · show StaysIn s.status (t.move m).row.committed.status
      rw [hsame]
      exact ht.2
    · exact ht.2.edge hedge
  exact hkept.2

end SessionWorld

/-- Where the writes without a `WHERE` find what their calls checked, every
change of the status is an edge of the life cycle, in any interleaving. -/
theorem lifeCycle_kept (row : SessionColumns) (s : SessionWorld)
    (hs : Reach SessionWorld.move SessionWorld.FindsChecked (.start row) s) :
    (∀ m, s.FindsChecked m →
      (s.move m).status = s.status ∨ declared s.status (s.move m).status = true) ∧
    ∀ s', Reach SessionWorld.move SessionWorld.FindsChecked s s' →
      (s.status = .active →
        s'.status ≠ .cancelled ∧ s'.status ≠ .notReady ∧ s'.status ≠ .missed) ∧
      (s.status = .cancelled ∨ s.status = .missed → s'.status ≠ .active) ∧
      (s.status = .completed → s'.status = .completed) := by
  have hwithin := SessionWorld.within_of_reach hs
  refine ⟨fun m hm => (SessionWorld.Kept.move hwithin hm).follows, fun s' hrun => ?_⟩
  have hstays := SessionWorld.staysIn_of_reach hwithin hrun
  refine ⟨fun hactive => ?_, ?_, fun hcompleted => ?_⟩
  · rw [hactive] at hstays
    obtain h | h | h := hstays <;> simp [h]
  · rintro (hcancelled | hmissed)
    · rw [hcancelled] at hstays
      simp [show s'.status = .cancelled from hstays]
    · rw [hmissed] at hstays
      obtain h | h := hstays <;> simp [h]
  · rw [hcompleted] at hstays
    exact hstays

/-! ## A cancellation and an opening -/

/-- A session that has not begun. -/
def comingSession : SessionColumns := ⟨.scheduled, some "c1", 10, 20, none, none⟩

def runCalls (moves : List (Nat × SessionMove)) : SessionWorld :=
  moves.foldl SessionWorld.move (.start comingSession)

def opening (i : Nat) : List (Nat × SessionMove) :=
  [(i, .readToOpen), (i, .freezeEnter), (i, .freezeCheck 1 0 30), (i, .freezeWrite), (i, .commit)]

/-- A teacher opens, and a cancellation that comes later does nothing. -/
theorem opened_not_cancelled :
    (runCalls (opening 0)).status = .active ∧
      (((runCalls (opening 0)).move (1, .readToCancel)).move (1, .cancel)).status ≠
        .cancelled := by
  have hopen : Reach SessionWorld.move SessionWorld.FindsChecked (.start comingSession)
      (runCalls (opening 0)) :=
    reach_foldl ⟨fun _ => trivial, fun _ => trivial, fun _ => trivial, fun _ => .inl rfl,
      fun _ => trivial, trivial⟩
  have hactive : (runCalls (opening 0)).status = .active := by decide
  have hread : Reach SessionWorld.move SessionWorld.FindsChecked (runCalls (opening 0))
      ((runCalls (opening 0)).move (1, .readToCancel)) :=
    .move _ .start fun _ => trivial
  have hcancel : Reach SessionWorld.move SessionWorld.FindsChecked (runCalls (opening 0))
      (((runCalls (opening 0)).move (1, .readToCancel)).move (1, .cancel)) :=
    .move _ hread fun _ hcheck => absurd hcheck (by decide)
  exact ⟨hactive, (((lifeCycle_kept comingSession _ hopen).2 _ hcancel).1 hactive).1⟩

/-- A cancellation reads, a teacher opens, and the cancellation writes; and
the other way round. -/
theorem stale_writes :
    (∀ moves, Reach SessionWorld.move (fun _ _ => True) (.start comingSession)
      (runCalls moves)) ∧
    ((runCalls ((1, .readToCancel) :: opening 0)).status = .active ∧
      ((runCalls ((1, .readToCancel) :: opening 0)).move (1, .cancel)).status = .cancelled) ∧
    ((runCalls ((opening 0).take 3 ++ [(1, .readToCancel), (1, .cancel)])).status = .cancelled ∧
      (runCalls ((opening 0).take 3 ++ [(1, .readToCancel), (1, .cancel), (0, .freezeWrite),
        (0, .commit)])).status = .active) := by
  refine ⟨fun moves => reach_foldl ?_, by decide, by decide⟩
  generalize SessionWorld.start comingSession = s
  induction moves generalizing s with
  | nil => trivial
  | cons m moves ih => exact ⟨trivial, ih _⟩

end Cine.Exam
