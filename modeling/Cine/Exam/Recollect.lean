import Cine.Exam.HeadCount
import Cine.Exam.SessionRoster
import Cine.Submission.ArchiveCheck
import Mathlib.Data.List.Dedup

/-!
# Collecting again

`exam-session/recollect.service.ts` and `requestRecollect` of
`exam-session.gateway.ts`, and the number on the button: `buildSubmissionRows`
and `countRecollectTargets` of `lib/submission-rows.ts`.

The two are meant to be one definition.  The server joins the log of connections
with the enrolment of the session's class and asks for the verdict on the
archive.  The page starts from the lobby's groups, so from who is connected now,
compares numbers as they are spelled, and does not ask for the verdict.

* The tables, the server and the page.
* `Targets`: who is to be collected again, in the terms of the tables.
* The page as a count over the lobby's groups (`countRecollectTargets_eq`).
* `recollects_iff`: when the two answers are right.

What the page shows of a file and does not count is left out.  The order of names
is a parameter, and times stay milliseconds.
-/

namespace Cine.Exam

open Cine.Lib
open Cine.Grading (lowerCase)
open Cine.Exam.SessionRoster (SubmissionStatus)
open Cine.Submission.ArchiveCheck (ArchiveCheckStatus)

/-! ## Tables -/

/-- `submission`. -/
structure SubmissionFileRow where
  examSessionId : String
  requiredDeliverableId : String
  studentMssv : String
  studentNameInput : String
  homeClassId : String
  status : SubmissionStatus
  submittedAt : Option Int
  archiveCheckStatus : ArchiveCheckStatus
deriving DecidableEq

/-- The number of the student, as `citext` compares it. -/
def SubmissionFileRow.key (row : SubmissionFileRow) : String := lowerCase row.studentMssv

/-- `required_deliverable`. -/
structure RequiredFileRow where
  id : String
  examSessionId : String
deriving DecidableEq

def submissionStatusName : SubmissionStatus → String
  | .notSubmitted => "not_submitted"
  | .received => "received"
  | .validated => "validated"
  | .collected => "collected"
  | .invalid => "invalid"
  | .absent => "absent"

/-- The tables, with the unique indexes.  A submission is of a file of its session, which
`resolveTarget` sees to. -/
structure RecollectTables where
  enrollments : List EnrollmentRow
  classes : List ClassRow
  sessionRoster : List SessionRosterRow
  events : List AgentEvent
  submissions : List SubmissionFileRow
  deliverables : List RequiredFileRow
  enrolled_once : (enrollments.map fun row => (row.homeClassId, row.key)).Nodup
  submitted_once : (submissions.map fun row =>
    (row.examSessionId, row.requiredDeliverableId, row.key)).Nodup
  deliverable_once : (deliverables.map RequiredFileRow.id).Nodup
  submission_of : ∀ row ∈ submissions,
    (⟨row.requiredDeliverableId, row.examSessionId⟩ : RequiredFileRow) ∈ deliverables

namespace RecollectTables

variable (t : RecollectTables) (session : ExamSessionRow)

/-- The tables that the lobby is built from. -/
def attendance : AttendanceTables where
  enrollments := t.enrollments
  classes := t.classes
  sessionRoster := t.sessionRoster
  submissions := t.submissions.map fun row =>
    ⟨row.examSessionId, row.studentMssv, submissionStatusName row.status⟩

def required : List RequiredFileRow :=
  t.deliverables.filter fun d => d.examSessionId = session.id

def submissionsOf : List SubmissionFileRow :=
  t.submissions.filter fun row => row.examSessionId = session.id

/-! ## The server -/

/-- A row that the query counts: the verdict on the archive is not bad. -/
def isCollected (row : SubmissionFileRow) : Bool :=
  row.status = .collected && row.archiveCheckStatus ∉ [.failed, .unreadable]

def attended (key : String) : Bool :=
  t.events.any fun e => e.examSessionId = session.id && e.key = key

def collected (key : String) : Nat :=
  (t.submissionsOf session).countP fun row => row.key = key && isCollected row

def findMissing (before : String → String → Bool) : List EnrollmentRow :=
  (t.enrollments.filter fun row => some row.homeClassId = session.classId &&
    t.attended session row.key && t.collected session row.key < (t.required session).length
    ).insertionSort fun a b => before a.studentName b.studentName

end RecollectTables

/-- A socket of the session's room. -/
structure AgentSocket where
  studentId : String
  /-- The agent answers in time. -/
  acks : Bool
deriving DecidableEq, Repr

/-- `requestRecollect` of the gateway. -/
def ackedMssv (sockets : List AgentSocket) (mssvs : List String) : List String :=
  (sockets.filter fun socket =>
    lowerCase socket.studentId ∈ mssvs.map lowerCase && socket.acks).map AgentSocket.studentId

structure RecollectResult where
  missing : Nat
  acknowledged : Nat
  unreachable : Nat
  unreachableNames : List String
deriving DecidableEq, Repr

/-- `requestRecollect`, with the numbers that the gateway is asked to address. -/
def requestRecollect (t : RecollectTables) (session : ExamSessionRow)
    (before : String → String → Bool) (sockets : List AgentSocket) :
    Except String (List String × RecollectResult) :=
  if session.status ≠ .collecting then
    .error "Chỉ thu lại được khi phiên đang ở trạng thái Đang thu bài"
  else
    let missing := t.findMissing session before
    let mssvs := missing.map EnrollmentRow.studentMssv
    let acked := (ackedMssv sockets mssvs).map lowerCase
    let unreachable := missing.filter fun student => lowerCase student.studentMssv ∉ acked
    .ok (mssvs,
      { missing := missing.length
        acknowledged := missing.length - unreachable.length
        unreachable := unreachable.length
        unreachableNames := unreachable.map EnrollmentRow.studentName })

/-! ## The page -/

structure SubmissionStatusItem where
  studentMssv : String
  studentNameInput : String
  requiredDeliverableId : String
  status : SubmissionStatus
  submittedAt : Option Int
  homeClassId : String
  homeClassName : Option String
  archiveCheckStatus : ArchiveCheckStatus
deriving DecidableEq

/-- One row of `listForSession`. -/
def RecollectTables.itemOf (t : RecollectTables) (row : SubmissionFileRow) :
    SubmissionStatusItem where
  studentMssv := row.studentMssv
  studentNameInput := row.studentNameInput
  requiredDeliverableId := row.requiredDeliverableId
  status := row.status
  submittedAt := row.submittedAt
  homeClassId := row.homeClassId
  homeClassName := (t.classes.find? fun c => c.id = row.homeClassId).map ClassRow.name
  archiveCheckStatus := row.archiveCheckStatus

/-- What `listForSession` may answer.  Its order by the time says nothing of rows of one
time, and the page does not depend on it. -/
def RecollectTables.Lists (t : RecollectTables) (session : ExamSessionRow)
    (items : List SubmissionStatusItem) : Prop :=
  items.Perm ((t.submissionsOf session).map t.itemOf)

inductive DeliverableState
  | collected
  | invalid
  | absent
deriving DecidableEq, Repr

structure DeliverableEntry where
  state : DeliverableState
  submittedAt : Option Int
  archiveCheckStatus : ArchiveCheckStatus
deriving DecidableEq

structure SubmissionRowStudent where
  studentMssv : String
  fullName : String
  makeupFromClass : Option String
  byDeliverable : OrderedMap String DeliverableEntry

/-- The row that `ensure` leaves, from the one that is there. -/
def ensuredRow (existing : Option SubmissionRowStudent) (mssv fullName : String) :
    SubmissionRowStudent :=
  match existing with
  | none => ⟨mssv, fullName, none, .empty⟩
  | some row =>
    if row.fullName = mssv ∧ fullName ≠ mssv then { row with fullName := fullName } else row

def ensure (rows : OrderedMap String SubmissionRowStudent) (mssv fullName : String) :
    OrderedMap String SubmissionRowStudent :=
  rows.set mssv (ensuredRow (rows.get? mssv) mssv fullName)

def isMakeupSubmission (submissionHomeClassId : String) (sessionClassId : Option String) : Bool :=
  match sessionClassId with
  | none => false
  | some classId =>
    submissionHomeClassId ≠ "" && classId ≠ "" && submissionHomeClassId ≠ classId

/-- The states that are shown. -/
def stateOfStatus : SubmissionStatus → Option DeliverableState
  | .collected => some .collected
  | .invalid => some .invalid
  | .absent => some .absent
  | .notSubmitted | .received | .validated => none

/-- What an item writes into the row of its student. -/
def SubmissionRowStudent.withItem (row : SubmissionRowStudent) (classId : Option String)
    (item : SubmissionStatusItem) : SubmissionRowStudent :=
  { row with
    makeupFromClass :=
      if isMakeupSubmission item.homeClassId classId then
        some (item.homeClassName.getD item.homeClassId)
      else row.makeupFromClass
    byDeliverable :=
      match stateOfStatus item.status with
      | none => row.byDeliverable
      | some state => row.byDeliverable.set item.requiredDeliverableId
          { state := state
            submittedAt := item.submittedAt
            archiveCheckStatus := item.archiveCheckStatus } }

def addItem (classId : Option String) (rows : OrderedMap String SubmissionRowStudent)
    (item : SubmissionStatusItem) : OrderedMap String SubmissionRowStudent :=
  let fullName := if item.studentNameInput = "" then item.studentMssv else item.studentNameInput
  rows.set item.studentMssv
    ((ensuredRow (rows.get? item.studentMssv) item.studentMssv fullName).withItem classId item)

def attendanceRows (view : AttendanceView) : OrderedMap String SubmissionRowStudent :=
  (view.present ++ view.absent ++ view.makeup).foldl
    (fun rows student => ensure rows student.mssv student.name) .empty

def buildSubmissionRows (before : String → String → Bool) (view : AttendanceView)
    (items : List SubmissionStatusItem) : List SubmissionRowStudent :=
  (items.foldl (addItem view.classId) (attendanceRows view)).values.insertionSort fun a b =>
    before a.studentMssv b.studentMssv

/-- The file is collected, in the row. -/
def SubmissionRowStudent.has (row : SubmissionRowStudent) (id : String) : Bool :=
  (row.byDeliverable.get? id).any fun entry => entry.state = .collected

/-- `attendedMssv` of the page: who is in the room. -/
def attendedMssv (view : AttendanceView) : List String :=
  (view.present ++ view.makeup).map AttendanceStudentView.mssv

def countRecollectTargets (rows : List SubmissionRowStudent) (attendedMssv : List String)
    (deliverables : List RequiredFileRow) : Nat :=
  if deliverables.length = 0 then 0
  else rows.countP fun row => row.studentMssv ∈ attendedMssv && !deliverables.all fun d => row.has d.id

/-! ## The rows of the page -/

theorem has_ensuredRow (existing : Option SubmissionRowStudent) (mssv fullName id : String) :
    (ensuredRow existing mssv fullName).has id = existing.any fun row => row.has id := by
  unfold ensuredRow
  cases existing with
  | none => rfl
  | some row =>
    dsimp only
    split_ifs <;> rfl

theorem mssv_ensuredRow {existing : Option SubmissionRowStudent} {mssv fullName : String}
    (h : ∀ row, existing = some row → row.studentMssv = mssv) :
    (ensuredRow existing mssv fullName).studentMssv = mssv := by
  unfold ensuredRow
  cases existing with
  | none => rfl
  | some row =>
    dsimp only
    split_ifs <;> exact h row rfl

theorem has_withItem (row : SubmissionRowStudent) (classId : Option String)
    (item : SubmissionStatusItem) (id : String) :
    (row.withItem classId item).has id =
      match stateOfStatus item.status with
      | none => row.has id
      | some state => if id = item.requiredDeliverableId then decide (state = .collected)
        else row.has id := by
  unfold SubmissionRowStudent.withItem SubmissionRowStudent.has
  cases stateOfStatus item.status with
  | none => rfl
  | some state =>
    dsimp only
    rw [OrderedMap.get?_set]
    split_ifs <;> rfl

/-- The rows are kept under their numbers, and a file is collected in a row if an item
says so. -/
structure RowsOf (rows : OrderedMap String SubmissionRowStudent)
    (items : List SubmissionStatusItem) : Prop where
  named : ∀ s row, rows.get? s = some row → row.studentMssv = s
  has : ∀ s id, ((rows.get? s).any fun row => row.has id) = true ↔
    ∃ item ∈ items, item.studentMssv = s ∧ item.requiredDeliverableId = id ∧
      item.status = .collected

variable {items : List SubmissionStatusItem}

theorem RowsOf.ensure {rows : OrderedMap String SubmissionRowStudent} (h : RowsOf rows items)
    (mssv fullName : String) : RowsOf (ensure rows mssv fullName) items := by
  constructor
  · intro s row hrow
    unfold Exam.ensure at hrow
    rw [OrderedMap.get?_set] at hrow
    split_ifs at hrow with hs
    · obtain rfl := Option.some.inj hrow
      subst hs
      exact mssv_ensuredRow (h.named s)
    · exact h.named s row hrow
  · intro s id
    rw [← h.has s id]
    unfold Exam.ensure
    rw [OrderedMap.get?_set]
    split_ifs with hs
    · subst hs
      rw [Option.any_some, has_ensuredRow]
    · exact Iff.rfl

theorem RowsOf.addItem {rows : OrderedMap String SubmissionRowStudent} (h : RowsOf rows items)
    (classId : Option String) (item : SubmissionStatusItem)
    (hnew : ∀ i ∈ items, i.studentMssv = item.studentMssv →
      i.requiredDeliverableId ≠ item.requiredDeliverableId) :
    RowsOf (addItem classId rows item) (items ++ [item]) := by
  constructor
  · intro s row hrow
    unfold Exam.addItem at hrow
    generalize (if item.studentNameInput = "" then _ else _) = fullName at hrow
    rw [OrderedMap.get?_set] at hrow
    split_ifs at hrow with hs
    · obtain rfl := Option.some.inj hrow
      subst hs
      exact mssv_ensuredRow (h.named item.studentMssv)
    · exact h.named s row hrow
  · intro s id
    have hbefore := h.has s id
    unfold Exam.addItem
    generalize (if item.studentNameInput = "" then _ else _) = fullName
    rw [OrderedMap.get?_set]
    simp only [List.mem_append, List.mem_singleton, or_and_right, exists_or, exists_eq_left]
    rw [← hbefore]
    split_ifs with hs
    · subst hs
      rw [Option.any_some, has_withItem, has_ensuredRow]
      by_cases hid : id = item.requiredDeliverableId
      · have hnone : ¬ (rows.get? item.studentMssv).any (fun row => row.has id) = true := by
          rw [hbefore]
          rintro ⟨i, hi, hmssv, hsame, _⟩
          exact hnew i hi hmssv (hsame.trans hid)
        rw [Bool.not_eq_true] at hnone
        rw [hnone]
        cases hstatus : item.status <;> simp [stateOfStatus, hid]
      · cases hstatus : item.status <;> simp [stateOfStatus, hid, Ne.symm hid]
    · simp [Ne.symm hs]

theorem rowsOf_attendance (view : AttendanceView) : RowsOf (attendanceRows view) [] := by
  unfold attendanceRows
  generalize view.present ++ view.absent ++ view.makeup = students
  have hempty : RowsOf .empty [] := by
    refine ⟨(fun s row h => nomatch h), fun s id => ?_⟩
    simp
  induction students using List.reverseRecOn with
  | nil => exact hempty
  | append_singleton students student ih =>
    rw [List.foldl_append]
    exact ih.ensure student.mssv student.name

theorem rowsOf_items (view : AttendanceView)
    (h : (items.map fun item => (item.studentMssv, item.requiredDeliverableId)).Nodup) :
    RowsOf (items.foldl (addItem view.classId) (attendanceRows view)) items := by
  induction items using List.reverseRecOn with
  | nil => exact rowsOf_attendance view
  | append_singleton items item ih =>
    rw [List.map_append, List.nodup_append'] at h
    obtain ⟨hitems, _, hdisjoint⟩ := h
    rw [List.foldl_append]
    refine (ih hitems).addItem view.classId item fun i hi hmssv hid => ?_
    exact hdisjoint (List.mem_map_of_mem hi) (List.mem_singleton.2 (Prod.ext hmssv hid))

theorem isSome_row {view : AttendanceView} {s : String}
    (h : s ∈ (view.present ++ view.absent ++ view.makeup).map AttendanceStudentView.mssv) :
    ((items.foldl (addItem view.classId) (attendanceRows view)).get? s).isSome = true := by
  have hset : ∀ (rows : OrderedMap String SubmissionRowStudent) (k : String)
      (row : SubmissionRowStudent), (rows.get? s).isSome = true →
        ((rows.set k row).get? s).isSome = true := by
    intro rows k row hrow
    rw [OrderedMap.get?_set]
    split_ifs
    · rfl
    · exact hrow
  have hattendance : ((attendanceRows view).get? s).isSome = true := by
    unfold attendanceRows
    revert h
    generalize view.present ++ view.absent ++ view.makeup = students
    intro h
    induction students using List.reverseRecOn with
    | nil => exact absurd h List.not_mem_nil
    | append_singleton students student ih =>
      rw [List.foldl_append]
      rw [List.map_append, List.mem_append] at h
      rcases h with h | h
      · exact hset _ _ _ (ih h)
      · obtain rfl := List.mem_singleton.1 h
        show ((OrderedMap.set _ student.mssv _).get? student.mssv).isSome = true
        rw [OrderedMap.get?_set_self]
        rfl
  induction items using List.reverseRecOn with
  | nil => exact hattendance
  | append_singleton items item ih =>
    rw [List.foldl_append]
    exact hset _ _ _ ih

/-- The items leave a file out. -/
def itemsLack (items : List SubmissionStatusItem) (deliverables : List RequiredFileRow)
    (s : String) : Bool :=
  !deliverables.all fun d => items.any fun item =>
    item.studentMssv = s && item.requiredDeliverableId = d.id && item.status = .collected

theorem countRecollectTargets_eq {before : String → String → Bool} {view : AttendanceView}
    {deliverables : List RequiredFileRow}
    (h : (items.map fun item => (item.studentMssv, item.requiredDeliverableId)).Nodup) :
    countRecollectTargets (buildSubmissionRows before view items) (attendedMssv view)
      deliverables = ((attendedMssv view).dedup.filter (itemsLack items deliverables)).length := by
  have hrows := rowsOf_items view h
  unfold countRecollectTargets buildSubmissionRows
  by_cases hnone : deliverables.length = 0
  · obtain rfl := List.length_eq_zero_iff.1 hnone
    rw [if_pos hnone]
    exact (congrArg List.length (List.filter_eq_nil_iff.2 fun s _ => Bool.false_ne_true)).symm
  rw [if_neg hnone, (List.perm_insertionSort _ _).countP_eq]
  have hsome : ∀ s ∈ attendedMssv view,
      ((items.foldl (addItem view.classId) (attendanceRows view)).get? s).isSome = true := by
    intro s hs
    refine isSome_row ?_
    obtain ⟨student, hstudent, rfl⟩ := List.mem_map.1 hs
    refine List.mem_map_of_mem ?_
    simp only [List.mem_append] at hstudent ⊢
    tauto
  generalize items.foldl (addItem view.classId) (attendanceRows view) = m at hrows hsome
  have hlack : ∀ s row, m.get? s = some row →
      (!deliverables.all fun d => row.has d.id) = itemsLack items deliverables s := by
    intro s row hrow
    unfold itemsLack
    refine congrArg Bool.not (List.all_congr rfl fun d => ?_)
    have hfile := hrows.has s d.id
    rw [hrow, Option.any_some] at hfile
    rw [Bool.eq_iff_iff, hfile, List.any_eq_true]
    simp only [Bool.and_eq_true, decide_eq_true_eq, and_assoc]
  unfold OrderedMap.values
  rw [List.countP_map, List.countP_eq_length_filter, ← List.length_map (f := Prod.fst)]
  refine (List.Perm.length_eq ?_)
  refine (List.perm_ext_iff_of_nodup (m.nodup.sublist (List.filter_sublist.map _))
    ((List.nodup_dedup _).filter _)).2 fun s => ?_
  simp only [List.mem_map, List.mem_filter, List.mem_dedup, Function.comp_apply, Bool.and_eq_true,
    decide_eq_true_eq, Prod.exists, exists_and_right, exists_eq_right]
  constructor
  · rintro ⟨row, hmem, hattended, hrow⟩
    have hget := OrderedMap.get?_eq_some_iff.2 hmem
    rw [hrows.named s row hget] at hattended
    exact ⟨hattended, (hlack s row hget) ▸ hrow⟩
  · rintro ⟨hattended, hitems⟩
    obtain ⟨row, hget⟩ := Option.isSome_iff_exists.1 (hsome s hattended)
    refine ⟨row, OrderedMap.get?_eq_some_iff.1 hget, ?_, (hlack s row hget).symm ▸ hitems⟩
    rw [hrows.named s row hget]
    exact hattended

/-! ## Who is to be collected again -/

namespace RecollectTables

section Targets

variable (t : RecollectTables) (session : ExamSessionRow) (events : List AgentEvent)

/-- The student is on the session's list. -/
def Admitted (key : String) : Prop :=
  ∃ row ∈ t.attendance.rosterOf session, lowerCase row.studentMssv = key

/-- The student has been in the room. -/
def HasConnected (key : String) : Prop :=
  ∃ e ∈ t.events, e.examSessionId = session.id ∧ e.key = key

/-- A required file is not there, or its archive is bad. -/
def Lacks (key : String) : Prop :=
  ∃ d ∈ t.required session, ¬ ∃ row ∈ t.submissionsOf session,
    row.key = key ∧ row.requiredDeliverableId = d.id ∧ isCollected row = true

structure Target (key : String) : Prop where
  admitted : t.Admitted session key
  connected : t.HasConnected session key
  lacks : t.Lacks session key

/-- A required file is not collected under this spelling. -/
def PageLacks (s : String) : Prop :=
  ∃ d ∈ t.required session, ¬ ∃ row ∈ t.submissionsOf session,
    row.studentMssv = s ∧ row.requiredDeliverableId = d.id ∧ row.status = .collected

instance (key : String) : Decidable (t.Admitted session key) := by
  unfold Admitted
  infer_instance

instance (key : String) : Decidable (t.HasConnected session key) := by
  unfold HasConnected
  infer_instance

instance (key : String) : Decidable (t.Lacks session key) := by
  unfold Lacks
  infer_instance

instance (s : String) : Decidable (t.PageLacks session s) := by
  unfold PageLacks
  infer_instance

/-- The enrolment of the session's class. -/
def classRows : List EnrollmentRow :=
  t.enrollments.filter fun row => some row.homeClassId = session.classId

/-- The connected students that are enrolled, last, in another class of the session. -/
def guests : List EnrollmentRow :=
  ((connectedKeys events).filterMap fun key => (t.attendance.rowsOf session key).getLast?).filter
    fun row => some row.homeClassId ≠ session.classId

/-- Students of the class who have to be collected again and are not in the room now, or
have every file under their spelling, one with a bad archive. -/
def overlooked : List EnrollmentRow :=
  (t.classRows session).filter fun row =>
    (t.HasConnected session row.key ∧ t.Lacks session row.key) ∧
      ¬ (isConnected events row.key = true ∧ t.PageLacks session row.studentMssv)

/-- Students of the class who have every file, under another spelling. -/
def respelled : List EnrollmentRow :=
  (t.classRows session).filter fun row =>
    (isConnected events row.key = true ∧ t.PageLacks session row.studentMssv) ∧
      ¬ (t.HasConnected session row.key ∧ t.Lacks session row.key)

/-- Guests without a file, who are not of the class as well. -/
def extraGuests : List EnrollmentRow :=
  (t.guests session events).filter fun guest => t.PageLacks session guest.studentMssv ∧
    ∀ row ∈ t.classRows session, row.studentMssv ≠ guest.studentMssv

/-- The students who have connected and lack a file are on the session's list just where
they are of its class, and the page overlooks as many students as it counts too many. -/
structure Balanced : Prop where
  admitted : ∀ e ∈ t.events, e.examSessionId = session.id → t.Lacks session e.key →
    (t.Admitted session e.key ↔ ∃ row ∈ t.classRows session, row.key = e.key)
  counted : (t.overlooked session events).length =
    (t.respelled session events).length + (t.extraGuests session events).length

end Targets

section Server

variable {t : RecollectTables} {session : ExamSessionRow} {events : List AgentEvent}

theorem attended_iff {key : String} :
    t.attended session key = true ↔ t.HasConnected session key := by
  unfold attended HasConnected
  rw [List.any_eq_true]
  simp only [Bool.and_eq_true, decide_eq_true_eq]

theorem collected_lt_iff {key : String} :
    t.collected session key < (t.required session).length ↔ t.Lacks session key := by
  let rows := (t.submissionsOf session).filter fun row => row.key = key && isCollected row
  let ids := rows.map SubmissionFileRow.requiredDeliverableId
  let wanted := (t.required session).map RequiredFileRow.id
  have hcount : t.collected session key = ids.length := by
    show List.countP _ _ = _
    rw [List.countP_eq_length_filter, List.length_map]
  have hwanted : (t.required session).length = wanted.length := (List.length_map _).symm
  have hids : ids.Nodup := by
    refine List.pairwise_map.2 ?_
    have hrows : rows.Pairwise fun a b =>
        (a.examSessionId, a.requiredDeliverableId, a.key) ≠
          (b.examSessionId, b.requiredDeliverableId, b.key) :=
      (List.pairwise_map.1 t.submitted_once).sublist
        (List.filter_sublist.trans List.filter_sublist)
    refine hrows.imp_of_mem fun {a b} ha hb hne hid => hne ?_
    obtain ⟨ha, hakey⟩ := List.mem_filter.1 ha
    obtain ⟨hb, hbkey⟩ := List.mem_filter.1 hb
    rw [Bool.and_eq_true, decide_eq_true_eq] at hakey hbkey
    rw [of_decide_eq_true (List.mem_filter.1 ha).2, of_decide_eq_true (List.mem_filter.1 hb).2,
      hid, hakey.1, hbkey.1]
  have hsubset : ids ⊆ wanted := by
    intro id hid
    obtain ⟨row, hrow, rfl⟩ := List.mem_map.1 hid
    obtain ⟨hmem, hsession⟩ := List.mem_filter.1 (List.mem_filter.1 hrow).1
    refine List.mem_map.2 ⟨_, List.mem_filter.2 ⟨t.submission_of row hmem, hsession⟩, rfl⟩
  have hsub := List.subperm_of_subset hids hsubset
  have hmem : ∀ id, id ∈ ids ↔ ∃ row ∈ t.submissionsOf session,
      row.key = key ∧ row.requiredDeliverableId = id ∧ isCollected row = true := by
    intro id
    show id ∈ List.map _ (List.filter _ _) ↔ _
    simp only [List.mem_map, List.mem_filter, Bool.and_eq_true, decide_eq_true_eq]
    constructor
    · rintro ⟨row, ⟨hrow, hkey, hcollected⟩, rfl⟩
      exact ⟨row, hrow, hkey, rfl, hcollected⟩
    · rintro ⟨row, hrow, hkey, rfl, hcollected⟩
      exact ⟨row, ⟨hrow, hkey, hcollected⟩, rfl⟩
  unfold Lacks
  rw [hcount, hwanted]
  simp only [← hmem]
  constructor
  · intro hlt
    by_contra hall
    have hback : wanted ⊆ ids := by
      intro id hid
      obtain ⟨d, hd, rfl⟩ := List.mem_map.1 hid
      by_contra hnot
      exact hall ⟨d, hd, hnot⟩
    have hnodup : wanted.Nodup :=
      t.deliverable_once.sublist (List.filter_sublist.map _)
    have := (List.subperm_of_subset hnodup hback).length_le
    omega
  · rintro ⟨d, hd, hnot⟩
    refine lt_of_le_of_ne hsub.length_le fun hlength => hnot ?_
    exact (hsub.perm_of_length_le hlength.ge).mem_iff.2 (List.mem_map_of_mem hd)

theorem findMissing_perm {before : String → String → Bool} :
    (t.findMissing session before).Perm ((t.classRows session).filter fun row =>
      t.HasConnected session row.key ∧ t.Lacks session row.key) := by
  unfold findMissing classRows
  refine (List.perm_insertionSort _ _).trans ?_
  rw [List.filter_filter]
  refine List.Perm.of_eq (List.filter_congr fun row _ => ?_)
  rw [Bool.eq_iff_iff]
  simp only [Bool.and_eq_true, decide_eq_true_eq, attended_iff, collected_lt_iff]
  tauto

theorem classRows_pairwise : (t.classRows session).Pairwise fun a b => a.key ≠ b.key := by
  have hrows : (t.classRows session).Pairwise fun a b =>
      (a.homeClassId, a.key) ≠ (b.homeClassId, b.key) :=
    (List.pairwise_map.1 t.enrolled_once).sublist List.filter_sublist
  refine hrows.imp_of_mem fun ha hb hne hkey => hne ?_
  have hclass := (of_decide_eq_true (List.mem_filter.1 ha).2).trans
    (of_decide_eq_true (List.mem_filter.1 hb).2).symm
  rw [Option.some.inj hclass, hkey]

theorem classRoster_eq : t.attendance.classRoster session = t.classRows session := by
  unfold AttendanceTables.classRoster AttendanceTables.enrolled classRows
  rw [List.filter_filter]
  refine List.filter_congr fun row _ => ?_
  rw [Bool.eq_iff_iff, Bool.and_eq_true, decide_eq_true_eq, decide_eq_true_eq]
  refine and_iff_left_of_imp fun hclass => ?_
  rw [hclass]
  exact List.mem_cons_self

end Server

section Page

variable {t : RecollectTables} {session : ExamSessionRow} {events : List AgentEvent}
  {before : String → String → Bool}

/-- The students of the class that are in the room. -/
def presentRows (t : RecollectTables) (session : ExamSessionRow) (events : List AgentEvent) :
    List EnrollmentRow :=
  (t.classRows session).filter fun row => isConnected events row.key

theorem present_mssv :
    ((t.attendance.buildView session before events).present.map AttendanceStudentView.mssv).Perm
      ((t.presentRows session events).map EnrollmentRow.studentMssv) := by
  have hviews : ((t.attendance.classViews session events).filter
      AttendanceStudentView.connected).map AttendanceStudentView.mssv =
        (t.presentRows session events).map EnrollmentRow.studentMssv := by
    unfold AttendanceTables.classViews presentRows
    rw [classRoster_eq, List.filter_map, List.map_map]
    rfl
  rw [← hviews]
  exact (List.perm_insertionSort _ _).map _

theorem makeupView_mssv (entry : String × StudentState) :
    (t.attendance.makeupView session events entry).map AttendanceStudentView.mssv =
      if entry.2.connected then
        (((t.attendance.rowsOf session entry.1).getLast?).filter fun row =>
          some row.homeClassId ≠ session.classId).map EnrollmentRow.studentMssv
      else none := by
  unfold AttendanceTables.makeupView
  rw [AttendanceTables.byMssv_get?_eq]
  cases (t.attendance.rowsOf session entry.1).getLast? with
  | none => simp
  | some row =>
    by_cases hclass : some row.homeClassId = session.classId
    · simp [hclass, Option.filter]
    · cases entry.2.connected with
      | false => simp
      | true =>
        simp only [hclass, not_true_eq_false, or_self, if_false, Option.map_some, if_true,
          Option.filter, ne_eq, not_false_eq_true, decide_true]
        rfl

theorem makeup_mssv :
    ((t.attendance.buildView session before events).makeup.map AttendanceStudentView.mssv).Perm
      ((t.guests session events).map EnrollmentRow.studentMssv) := by
  have hviews : (t.attendance.makeupViews session events).map AttendanceStudentView.mssv =
      (t.guests session events).map EnrollmentRow.studentMssv := by
    unfold AttendanceTables.makeupViews guests connectedKeys
    rw [List.map_filterMap, List.filterMap_map, List.filterMap_filter, List.filter_filterMap,
      List.map_filterMap]
    refine List.filterMap_congr fun entry _ => ?_
    rw [makeupView_mssv]
    cases entry.2.connected <;> rfl
  rw [← hviews]
  exact (List.perm_insertionSort _ _).map _

theorem presentRows_nodup :
    ((t.presentRows session events).map EnrollmentRow.studentMssv).Nodup :=
  List.pairwise_map.2 ((classRows_pairwise.sublist List.filter_sublist).imp fun hne heq =>
    hne (congrArg lowerCase heq))

theorem guests_nodup : ((t.guests session events).map EnrollmentRow.studentMssv).Nodup := by
  have hkeys : ((t.guests session events).map EnrollmentRow.key).Nodup := by
    have hsub : List.Sublist (((connectedKeys events).filterMap fun key =>
        (t.attendance.rowsOf session key).getLast?).map EnrollmentRow.key)
          (connectedKeys events) := by
      rw [List.map_filterMap]
      have hsome : ∀ key, (((t.attendance.rowsOf session key).getLast?).map EnrollmentRow.key) =
          ((t.attendance.rowsOf session key).getLast?).map fun _ => key := by
        intro key
        cases hlast : (t.attendance.rowsOf session key).getLast? with
        | none => rfl
        | some row =>
          exact congrArg some (of_decide_eq_true (List.mem_filter.1 (List.mem_of_getLast? hlast)).2)
      simp only [hsome]
      induction connectedKeys events with
      | nil => exact List.Sublist.slnil
      | cons key keys ih =>
        cases hlast : (t.attendance.rowsOf session key).getLast? with
        | none =>
          rw [List.filterMap_cons_none (by rw [hlast]; rfl)]
          exact ih.cons key
        | some row =>
          rw [List.filterMap_cons_some (b := key) (by rw [hlast]; rfl)]
          exact ih.cons_cons key
    exact (connectedKeys_nodup events).sublist ((List.filter_sublist.map _).trans hsub)
  refine List.pairwise_map.2 ((List.pairwise_map.1 hkeys).imp fun hne heq => ?_)
  exact hne (congrArg lowerCase heq)

theorem guest_connected {guest : EnrollmentRow} (h : guest ∈ t.guests session events) :
    isConnected events guest.key = true := by
  obtain ⟨key, hkey, hlast⟩ := List.mem_filterMap.1 (List.mem_filter.1 h).1
  have hrow := of_decide_eq_true (List.mem_filter.1 (List.mem_of_getLast? hlast)).2
  rw [hrow]
  exact mem_connectedKeys.1 hkey

end Page

end RecollectTables

theorem length_dedup_append {a b : List String} (ha : a.Nodup) (hb : b.Nodup)
    (p : String → Bool) : ((a ++ b).dedup.filter p).length =
      (a.filter p).length + (b.filter fun s => p s && decide (s ∉ a)).length := by
  rw [← List.length_append]
  refine List.Perm.length_eq ((List.perm_ext_iff_of_nodup ((List.nodup_dedup _).filter p) ?_).2 ?_)
  · refine List.nodup_append'.2 ⟨ha.filter p, hb.filter _, fun s hs hs' => ?_⟩
    have hnot := (List.mem_filter.1 hs').2
    rw [Bool.and_eq_true, decide_eq_true_eq] at hnot
    exact hnot.2 (List.mem_filter.1 hs).1
  · intro s
    simp only [List.mem_filter, List.mem_dedup, List.mem_append, Bool.and_eq_true,
      decide_eq_true_eq]
    tauto

theorem countP_exchange {α : Type} (l : List α) (p q : α → Prop) [DecidablePred p]
    [DecidablePred q] :
    (l.filter fun a => p a).length + (l.filter fun a => q a ∧ ¬ p a).length =
      (l.filter fun a => q a).length + (l.filter fun a => p a ∧ ¬ q a).length := by
  induction l with
  | nil => rfl
  | cons a l ih =>
    simp only [List.filter_cons]
    by_cases hp : p a <;> by_cases hq : q a <;> simp only [hp, hq, not_true_eq_false,
      not_false_eq_true, and_true, and_false, and_self, decide_true, decide_false, if_true,
      Bool.false_eq_true, if_false, List.length_cons] <;> omega

/-! ## The two answers -/

/-- Both answers are right: who is addressed, each once, and the number on the button. -/
def Recollects (t : RecollectTables) (session : ExamSessionRow)
    (before : String → String → Bool) (sockets : List AgentSocket) (events : List AgentEvent)
    (items : List SubmissionStatusItem) : Prop :=
  ∃ mssvs result, requestRecollect t session before sockets = .ok (mssvs, result) ∧
    (mssvs.map lowerCase).Nodup ∧
    (∀ key, key ∈ mssvs.map lowerCase ↔ t.Target session key) ∧
    countRecollectTargets
        (buildSubmissionRows before (t.attendance.buildView session before events) items)
        (attendedMssv (t.attendance.buildView session before events)) (t.required session) =
      mssvs.length

section Answers

variable {t : RecollectTables} {session : ExamSessionRow} {before : String → String → Bool}
  {events : List AgentEvent} {items : List SubmissionStatusItem}

theorem itemsLack_iff (h : t.Lists session items) (s : String) :
    itemsLack items (t.required session) s = true ↔ t.PageLacks session s := by
  have hitem : ∀ id, (items.any fun item => item.studentMssv = s &&
      item.requiredDeliverableId = id && item.status = .collected) = true ↔
        ∃ row ∈ t.submissionsOf session,
          row.studentMssv = s ∧ row.requiredDeliverableId = id ∧ row.status = .collected := by
    intro id
    rw [h.any_eq, List.any_map, List.any_eq_true]
    simp only [Function.comp_apply, Bool.and_eq_true, decide_eq_true_eq, and_assoc]
    rfl
  unfold itemsLack RecollectTables.PageLacks
  rw [Bool.not_eq_true', List.all_eq_false]
  simp only [hitem]

theorem items_nodup (h : t.Lists session items) :
    (items.map fun item => (item.studentMssv, item.requiredDeliverableId)).Nodup := by
  have hrows : (t.submissionsOf session).Pairwise fun a b =>
      (a.examSessionId, a.requiredDeliverableId, a.key) ≠
        (b.examSessionId, b.requiredDeliverableId, b.key) :=
    (List.pairwise_map.1 t.submitted_once).sublist List.filter_sublist
  refine (h.map _).nodup_iff.2 ?_
  rw [List.map_map]
  refine List.pairwise_map.2 (hrows.imp_of_mem fun {a b} ha hb hne heq => hne ?_)
  obtain ⟨hmssv, hid⟩ := Prod.mk.inj heq
  rw [of_decide_eq_true (List.mem_filter.1 ha).2, of_decide_eq_true (List.mem_filter.1 hb).2]
  exact congrArg (Prod.mk _) (Prod.ext hid (congrArg lowerCase hmssv))

/-- The number on the button. -/
theorem count_eq (h : t.Lists session items) :
    countRecollectTargets
        (buildSubmissionRows before (t.attendance.buildView session before events) items)
        (attendedMssv (t.attendance.buildView session before events)) (t.required session) =
      ((t.classRows session).filter fun row =>
          isConnected events row.key = true ∧ t.PageLacks session row.studentMssv).length +
        (t.extraGuests session events).length := by
  rw [countRecollectTargets_eq (items_nodup h)]
  have hlack : itemsLack items (t.required session) = fun s => decide (t.PageLacks session s) := by
    funext s
    rw [Bool.eq_iff_iff, itemsLack_iff h, decide_eq_true_eq]
  have hattended : (attendedMssv (t.attendance.buildView session before events)).Perm
      ((t.presentRows session events).map EnrollmentRow.studentMssv ++
        (t.guests session events).map EnrollmentRow.studentMssv) := by
    unfold attendedMssv
    rw [List.map_append]
    exact RecollectTables.present_mssv.append RecollectTables.makeup_mssv
  rw [hlack, (hattended.dedup.filter _).length_eq,
    length_dedup_append RecollectTables.presentRows_nodup RecollectTables.guests_nodup,
    List.filter_map, List.length_map, List.filter_map, List.length_map]
  congr 2
  · unfold RecollectTables.presentRows
    rw [List.filter_filter]
    refine List.filter_congr fun row _ => ?_
    rw [Bool.eq_iff_iff]
    simp only [Function.comp_apply, Bool.and_eq_true, decide_eq_true_eq]
    exact and_comm
  · unfold RecollectTables.extraGuests
    refine List.filter_congr fun guest hguest => ?_
    rw [Bool.eq_iff_iff]
    simp only [Function.comp_apply, Bool.and_eq_true, decide_eq_true_eq]
    refine and_congr_right fun _ => ?_
    constructor
    · intro hnot row hrow heq
      refine hnot (List.mem_map.2 ⟨row, List.mem_filter.2 ⟨hrow, ?_⟩, heq⟩)
      have hkey : row.key = guest.key := congrArg lowerCase heq
      rw [hkey]
      exact RecollectTables.guest_connected hguest
    · intro hall hmem
      obtain ⟨row, hrow, heq⟩ := List.mem_map.1 hmem
      exact hall row (List.mem_filter.1 hrow).1 heq

theorem findMissing_keys {key : String} :
    key ∈ ((t.findMissing session before).map EnrollmentRow.studentMssv).map lowerCase ↔
      (∃ row ∈ t.classRows session, row.key = key) ∧
        t.HasConnected session key ∧ t.Lacks session key := by
  rw [List.map_map, (RecollectTables.findMissing_perm.map _).mem_iff, List.mem_map]
  simp only [List.mem_filter, decide_eq_true_eq]
  constructor
  · rintro ⟨row, ⟨hrow, hmissing⟩, rfl⟩
    exact ⟨⟨row, hrow, rfl⟩, hmissing⟩
  · rintro ⟨⟨row, hrow, rfl⟩, hmissing⟩
    exact ⟨row, ⟨hrow, hmissing⟩, rfl⟩

theorem findMissing_nodup :
    (((t.findMissing session before).map EnrollmentRow.studentMssv).map lowerCase).Nodup := by
  rw [List.map_map, (RecollectTables.findMissing_perm.map _).nodup_iff]
  exact List.pairwise_map.2 (RecollectTables.classRows_pairwise.sublist List.filter_sublist)

/-- Both answers are right just where the students who have connected and lack a file are on
the session's list and of its class alike, and the page overlooks as many as it counts too
many.  This holds of any events that the lobby has loaded. -/
theorem recollects_iff (t : RecollectTables) (session : ExamSessionRow)
    (before : String → String → Bool) (sockets : List AgentSocket) (events : List AgentEvent)
    (items : List SubmissionStatusItem) (hstatus : session.status = .collecting)
    (hitems : t.Lists session items) :
    Recollects t session before sockets events items ↔ t.Balanced session events := by
  have hlength : ((t.findMissing session before).map EnrollmentRow.studentMssv).length =
      ((t.classRows session).filter fun row =>
        t.HasConnected session row.key ∧ t.Lacks session row.key).length := by
    rw [List.length_map, RecollectTables.findMissing_perm.length_eq]
  have hcounted : countRecollectTargets
        (buildSubmissionRows before (t.attendance.buildView session before events) items)
        (attendedMssv (t.attendance.buildView session before events)) (t.required session) =
      ((t.findMissing session before).map EnrollmentRow.studentMssv).length ↔
        (t.overlooked session events).length =
          (t.respelled session events).length + (t.extraGuests session events).length := by
    rw [count_eq hitems, hlength]
    have hexchange := countP_exchange (t.classRows session)
      (fun row => t.HasConnected session row.key ∧ t.Lacks session row.key)
      (fun row => isConnected events row.key = true ∧ t.PageLacks session row.studentMssv)
    change _ + (t.respelled session events).length = _ + (t.overlooked session events).length
      at hexchange
    omega
  have haddressed : (∀ key, key ∈ ((t.findMissing session before).map
        EnrollmentRow.studentMssv).map lowerCase ↔ t.Target session key) ↔
      ∀ e ∈ t.events, e.examSessionId = session.id → t.Lacks session e.key →
        (t.Admitted session e.key ↔ ∃ row ∈ t.classRows session, row.key = e.key) := by
    simp only [findMissing_keys]
    constructor
    · intro h e he hsession hlacks
      have hconnected : t.HasConnected session e.key := ⟨e, he, hsession, rfl⟩
      constructor
      · intro hadmitted
        exact ((h e.key).2 ⟨hadmitted, hconnected, hlacks⟩).1
      · intro hclass
        exact ((h e.key).1 ⟨hclass, hconnected, hlacks⟩).admitted
    · intro h key
      constructor
      · rintro ⟨hclass, ⟨e, he, hsession, rfl⟩, hlacks⟩
        exact ⟨(h e he hsession hlacks).2 hclass, ⟨e, he, hsession, rfl⟩, hlacks⟩
      · rintro ⟨hadmitted, ⟨e, he, hsession, rfl⟩, hlacks⟩
        exact ⟨(h e he hsession hlacks).1 hadmitted, ⟨e, he, hsession, rfl⟩, hlacks⟩
  have hrequest : requestRecollect t session before sockets = .ok _ :=
    if_neg (not_not.2 hstatus)
  constructor
  · rintro ⟨mssvs, result, h, _, htargets, hcount⟩
    obtain ⟨rfl, _⟩ := Prod.mk.inj (Except.ok.inj (hrequest.symm.trans h))
    exact ⟨haddressed.1 htargets, hcounted.1 hcount⟩
  · intro h
    exact ⟨_, _, hrequest, findMissing_nodup, haddressed.2 h.admitted, hcounted.2 h.counted⟩

end Answers

/-! ## A guest, and a bad archive -/

/-- The session is in collection. -/
def collectingSession : ExamSessionRow := ⟨"s1", some "c1", .collecting, none, none⟩

def collectedFile (studentMssv homeClassId : String) (archive : ArchiveCheckStatus) :
    SubmissionFileRow :=
  ⟨"s1", "d1", studentMssv, "", homeClassId, .collected, some 5, archive⟩

/-- One file is required.  `SV01` is of the class `c1` and `SV02` of `c2`, added by hand;
both have connected. -/
def roomTables (submissions : List SubmissionFileRow)
    (hone : (submissions.map fun row =>
      (row.examSessionId, row.requiredDeliverableId, row.key)).Nodup)
    (hof : ∀ row ∈ submissions, row.requiredDeliverableId = "d1" ∧ row.examSessionId = "s1") :
    RecollectTables where
  enrollments := [⟨"SV01", "An", "c1"⟩, ⟨"SV02", "Binh", "c2"⟩]
  classes := [⟨"c1", "DHKTPM18A"⟩, ⟨"c2", "DHKTPM18B"⟩]
  sessionRoster := [⟨"s1", "SV01", "c1", .frozen⟩, ⟨"s1", "SV02", "c2", .manual⟩]
  events := bothCame
  submissions := submissions
  deliverables := [⟨"d1", "s1"⟩]
  enrolled_once := by decide +kernel
  submitted_once := hone
  deliverable_once := by decide
  submission_of := fun row hrow =>
    List.mem_singleton.2 (congrArg₂ RequiredFileRow.mk (hof row hrow).1 (hof row hrow).2)

/-- The guest has handed in, and `SV01` has not. -/
def guestHandedIn : RecollectTables :=
  roomTables [collectedFile "SV02" "c2" .passed] (by decide +kernel) (by decide +kernel)

/-- `SV01` has handed in, and the guest has not. -/
def guestLeftOut : RecollectTables :=
  roomTables [collectedFile "SV01" "c1" .passed] (by decide +kernel) (by decide +kernel)

/-- Both have handed in, and an archive is bad. -/
def badArchive : RecollectTables :=
  roomTables [collectedFile "SV01" "c1" .failed, collectedFile "SV02" "c2" .passed]
    (by decide +kernel) (by decide +kernel)

/-- What the page loads of a table. -/
def RecollectTables.loaded (t : RecollectTables) : List SubmissionStatusItem :=
  (t.submissionsOf collectingSession).map t.itemOf

theorem guest_recollects :
    Recollects guestHandedIn collectingSession (fun a b => a ≤ b) [] bothCame
      guestHandedIn.loaded :=
  (recollects_iff guestHandedIn collectingSession _ [] bothCame _ rfl (List.Perm.refl _)).2
    ⟨by decide, by decide⟩

/-- A guest who has not handed in is not addressed, and the page counts a bad archive as
handed in. -/
theorem recollect_overlooks :
    (¬ Recollects guestLeftOut collectingSession (fun a b => a ≤ b) [] bothCame
      guestLeftOut.loaded) ∧
    ¬ Recollects badArchive collectingSession (fun a b => a ≤ b) [] bothCame
      badArchive.loaded := by
  constructor
  · rintro ⟨mssvs, result, h, _, htargets, _⟩
    obtain ⟨rfl, _⟩ := Prod.mk.inj (Except.ok.inj h)
    have hguest : guestLeftOut.Target collectingSession "sv02" :=
      ⟨by decide, by decide, by decide⟩
    exact absurd ((htargets "sv02").2 hguest) (by decide)
  · rintro ⟨mssvs, result, h, _, _, hcount⟩
    obtain ⟨rfl, _⟩ := Prod.mk.inj (Except.ok.inj h)
    exact absurd hcount (by decide)

end Cine.Exam
