import Cine.Exam.SessionLifecycle
import Cine.Lib.Transaction
import Cine.Lib.UniqueTable

/-!
# The roster of a session and its seats

The operations of `session-roster.service.ts`, `replaceRequiredDeliverables`
of `exam-session.service.ts`, `writeCollected` of `submission.service.ts` and
`confirmEnd` and `completeExpired` of `collection-phase.service.ts`, over the
rows of one session in `session_roster`, `required_deliverable` and
`submission`.

An operation is one transaction: it ends with new tables or leaves the old
ones.  A student is named by `student_mssv` as the database compares it,
which is without regard to case.  Identifiers of deliverables are numbers
that are given out once.  Times are milliseconds.

There are three groups.

* The tables, and the statements that every operation is made of.
* The operations.
* What an operation does: `Keeps` is what all of them have in common, and one
  lemma for each operation says the rest.
-/

namespace Cine.Exam.SessionRoster

open Cine.Lib

inductive SubmissionStatus
  | notSubmitted
  | received
  | validated
  | collected
  | invalid
  | absent
  deriving DecidableEq

inductive RosterSource
  | frozen
  | manual
  | attached
  deriving DecidableEq

/-- A student with the class and the lecturer that the work goes to. -/
structure RosterStudent where
  mssv : String
  name : String
  homeClassId : String
  homeTeacherId : String
  deriving DecidableEq

/-- A row of `session_roster`. -/
structure RosterRow extends RosterStudent where
  source : RosterSource
  deriving DecidableEq

/-- The unique key of `session_roster` within a session. -/
def rosterKey (row : RosterRow) : String := row.mssv

structure RequiredDeliverable where
  id : Nat
  requiredFilename : String
  deriving DecidableEq

/-- The columns that a stored file fills. -/
structure StoredFile where
  storageKey : String
  checksum : String
  fileSize : Nat
  submittedAt : Int
  deriving DecidableEq

/-- A row of `submission`. -/
structure SubmissionRow where
  requiredDeliverableId : Nat
  studentMssv : String
  studentNameInput : String
  homeClassId : String
  homeTeacherId : String
  status : SubmissionStatus
  file : Option StoredFile
  deriving DecidableEq

/-- `uq_submission_identity`, within a session. -/
def seatKey (row : SubmissionRow) : Nat × String :=
  (row.requiredDeliverableId, row.studentMssv)

/-- A row of `enrollment`, with the course of its class. -/
structure Enrollment where
  studentMssv : String
  studentName : String
  homeClassId : String
  homeTeacherId : Option String
  courseName : String
  createdAt : Int
  deriving DecidableEq

/-- The rows of one session, and the enrollments of the school. -/
structure ExamTables where
  session : SessionColumns
  teacherId : String
  courseName : String
  deliverables : UniqueTable RequiredDeliverable.requiredFilename
  nextDeliverable : Nat
  roster : UniqueTable rosterKey
  submissions : UniqueTable seatKey
  enrollments : List Enrollment

inductive RosterError
  | badRequest
  | conflict
  | notFound
  /-- a constraint or a trigger of the database -/
  | database
  deriving DecidableEq

/-! ## The statements -/

/-- `assertRosterWritable`, and a check of the status after it. -/
def assertStatus (w : ExamTables) (ok : ExamSessionStatus → Bool) : Except RosterError Unit :=
  if w.session.status = .missed then throw .conflict
  else if ok w.session.status then pure ()
  else throw .conflict

def insertRoster (w : ExamTables) (row : RosterRow) : Except RosterError ExamTables :=
  match w.roster.insert? row with
  | none => throw .database
  | some roster => pure { w with roster := roster }

def classEnrollments (w : ExamTables) : List Enrollment :=
  w.enrollments.filter fun e => w.session.classId = some e.homeClassId

def Enrollment.student (e : Enrollment) (teacherId : String) : RosterStudent :=
  ⟨e.studentMssv, e.studentName, e.homeClassId, e.homeTeacherId.getD teacherId⟩

def Enrollment.frozenRow (e : Enrollment) (teacherId : String) : RosterRow :=
  ⟨e.student teacherId, .frozen⟩

def freezeEnrollments (w : ExamTables) : Except RosterError ExamTables :=
  (classEnrollments w).foldlM (fun w e => insertRoster w (e.frozenRow w.teacherId)) w

def materializeIfEmpty (w : ExamTables) : Except RosterError ExamTables :=
  if w.session.classId = none then throw .badRequest
  else if w.roster.rows ≠ [] then pure w
  else if classEnrollments w = [] then throw .badRequest
  else freezeEnrollments w

def newer (e : Enrollment) : Option Enrollment → Enrollment
  | none => e
  | some e' => if e.createdAt < e'.createdAt then e' else e

/-- The latest enrollment of a student in a class of the session's course. -/
def findEnrollmentForSession (w : ExamTables) (mssv : String) : Option Enrollment :=
  (w.enrollments.filter fun e => e.studentMssv = mssv ∧ e.courseName = w.courseName).foldr
    (fun e latest => some (newer e latest)) none

def emptySeat (student : RosterStudent) (deliverable : RequiredDeliverable) : SubmissionRow :=
  ⟨deliverable.id, student.mssv, student.name, student.homeClassId, student.homeTeacherId,
    .notSubmitted, none⟩

/-- The rows of every student and every required file. -/
def emptySeats (w : ExamTables) (students : List RosterStudent) : List SubmissionRow :=
  students.flatMap fun student => w.deliverables.rows.map (emptySeat student)

def seedSeats (w : ExamTables) (students : List RosterStudent) : ExamTables :=
  { w with submissions := (emptySeats w students).foldl UniqueTable.insertOrIgnore w.submissions }

/-- How many rows `seedSeats` inserts. -/
def seededCount (w : ExamTables) (students : List RosterStudent) : Nat :=
  (seedSeats w students).submissions.rows.length - w.submissions.rows.length

def isLive (status : SubmissionStatus) : Bool :=
  status = .received ∨ status = .validated ∨ status = .collected ∨ status = .invalid

/-- The student has handed something in. -/
def hasLive (w : ExamTables) (mssv : String) : Bool :=
  w.submissions.rows.any fun row => row.studentMssv = mssv ∧ isLive row.status

/-- The rows of a student are taken out of both tables. -/
def withoutStudent (w : ExamTables) (mssv : String) : ExamTables :=
  { w with
    submissions := w.submissions.deleteWhere fun row => row.studentMssv = mssv
    roster := w.roster.deleteWhere fun row => row.mssv = mssv }

def deleteRosterRow (w : ExamTables) (row : RosterRow) : Except RosterError ExamTables :=
  if hasLive w row.mssv then throw .conflict else pure (withoutStudent w row.mssv)

/-! ## The operations -/

def materializeFromEnrollment (w : ExamTables) : Except RosterError ExamTables := do
  assertStatus w isAwaitingOpen
  materializeIfEmpty w

structure ImportStudent where
  mssv : String
  name : String
  deriving DecidableEq

structure ImportTally where
  added : Nat
  updated : Nat
  unchanged : Nat
  removed : Nat
  missing : List ImportStudent
  deriving DecidableEq

/-- A student of the file who is not on the roster. -/
def attachedRow (w : ExamTables) (classId : String) (student : ImportStudent) : RosterRow :=
  let enrollment := findEnrollmentForSession w student.mssv
  { mssv := student.mssv
    name := student.name
    homeClassId := (enrollment.map Enrollment.homeClassId).getD classId
    homeTeacherId := (enrollment.bind Enrollment.homeTeacherId).getD w.teacherId
    source := .attached }

/-- One student of the file.  `existing` is the roster before the loop. -/
def importStudent (classId : String) (existing : UniqueTable rosterKey)
    (acc : ImportTally × ExamTables) (student : ImportStudent) :
    Except RosterError (ImportTally × ExamTables) :=
  let (tally, w) := acc
  match existing.find? student.mssv with
  | none => do
    let w ← insertRoster w (attachedRow w classId student)
    pure ({ tally with added := tally.added + 1 }, w)
  | some current =>
    let tally := if current.name ≠ student.name then { tally with updated := tally.updated + 1 }
      else { tally with unchanged := tally.unchanged + 1 }
    pure (tally, { w with
      roster := w.roster.put { current with name := student.name, source := .attached } })

def missingRows (existing : UniqueTable rosterKey) (students : List ImportStudent) :
    List RosterRow :=
  existing.rows.filter fun row => row.mssv ∉ students.map ImportStudent.mssv

/-- A class that has students is copied before the file is applied. -/
def materializeForImport (w : ExamTables) : Except RosterError ExamTables :=
  if w.roster.rows = [] ∧ classEnrollments w ≠ [] then materializeIfEmpty w else pure w

structure ImportDto where
  students : List ImportStudent
  removeMissing : Bool

def importStudents (w : ExamTables) (dto : ImportDto) :
    Except RosterError (ImportTally × ExamTables) := do
  assertStatus w isAwaitingOpen
  match w.session.classId with
  | none => throw .badRequest
  | some classId =>
    let w ← materializeForImport w
    let existing := w.roster
    let (tally, w) ← dto.students.foldlM (importStudent classId existing) (⟨0, 0, 0, 0, []⟩, w)
    let missing := missingRows existing dto.students
    let removed := if dto.removeMissing then missing else []
    let w ← removed.foldlM deleteRosterRow w
    pure ({ tally with
      removed := removed.length
      missing := missing.map fun row => ⟨row.mssv, row.name⟩ }, w)

structure FreezeResult where
  students : Nat
  submissionsSeeded : Nat
  deriving DecidableEq

def OpenError.toRosterError : OpenError → RosterError
  | .badRequest => .badRequest
  | .conflict => .conflict

/-- The students of the roster, or of the class where the roster is empty. -/
def expectedStudents (w : ExamTables) : List RosterStudent :=
  if w.roster.rows ≠ [] then w.roster.rows.map RosterRow.toRosterStudent
  else (classEnrollments w).map fun e => e.student w.teacherId

/-- The class is copied where the roster is empty. -/
def rosterToOpen (w : ExamTables) : Except RosterError ExamTables :=
  if w.roster.rows ≠ [] then pure w else freezeEnrollments w

/-- The writes of `freeze`. -/
def openSession (w : ExamTables) : Except RosterError (FreezeResult × ExamTables) := do
  let students := expectedStudents w
  let w ← rosterToOpen w
  pure (⟨students.length, seededCount w students⟩,
    { seedSeats w students with session := w.session.to .active })

def freeze (w : ExamTables) : Except RosterError (FreezeResult × ExamTables) := do
  (freezeEntry w.session).mapError OpenError.toRosterError
  let writes ← (freezeChecks w.session w.deliverables.rows.length w.roster.rows.length
    (classEnrollments w).length).mapError OpenError.toRosterError
  if writes then openSession w else pure (⟨w.roster.rows.length, 0⟩, w)

/-- Before the session is open, the class is copied first. -/
def materializeAwaiting (w : ExamTables) : Except RosterError ExamTables :=
  if isAwaitingOpen w.session.status then materializeIfEmpty w else pure w

def removeManual (w : ExamTables) (mssv : String) : Except RosterError ExamTables := do
  assertStatus w fun status => !isExamOver status
  let w ← materializeAwaiting w
  match w.roster.find? mssv with
  | none => throw .notFound
  | some row =>
    if ¬ isAwaitingOpen w.session.status ∧ row.source ≠ .manual then throw .conflict
    else deleteRosterRow w row

/-- The class and the lecturer of a student who is added by hand. -/
def manualStudent (w : ExamTables) (student : ImportStudent) : Option RosterStudent :=
  let enrollment := findEnrollmentForSession w student.mssv
  ((enrollment.map Enrollment.homeClassId).or w.session.classId).map fun homeClassId =>
    { mssv := student.mssv
      name := student.name
      homeClassId := homeClassId
      homeTeacherId := (enrollment.bind Enrollment.homeTeacherId).getD w.teacherId }

def addManually (w : ExamTables) (student : ImportStudent) : Except RosterError ExamTables := do
  assertStatus w fun status => !isExamOver status
  let w ← materializeAwaiting w
  if w.roster.has student.mssv then throw .conflict
  else match manualStudent w student with
    | none => throw .badRequest
    | some student => do
      let w ← insertRoster w ⟨student, .manual⟩
      pure (seedSeats w [student])

/-- `ensureManual`, the end of an approved access request. -/
def ensureManual (w : ExamTables) (student : RosterStudent) : ExamTables :=
  seedSeats { w with roster := w.roster.insertOrIgnore ⟨student, .manual⟩ } [student]

/-- The rows of new deliverables, whose identifiers start at `next`. -/
def newDeliverables (next : Nat) (filenames : List String) : List RequiredDeliverable :=
  filenames.zipIdx.map fun (filename, i) => ⟨next + i, filename⟩

def insertDeliverable (table : UniqueTable RequiredDeliverable.requiredFilename)
    (deliverable : RequiredDeliverable) :
    Except RosterError (UniqueTable RequiredDeliverable.requiredFilename) :=
  match table.insert? deliverable with
  | none => throw .database
  | some table => pure table

/-- A row of `submission` keeps its deliverable from being deleted. -/
def deliverablesReferenced (w : ExamTables) : Bool :=
  w.submissions.rows.any fun row =>
    w.deliverables.rows.any fun deliverable => deliverable.id = row.requiredDeliverableId

def replaceRequiredDeliverables (w : ExamTables) (filenames : List String) :
    Except RosterError ExamTables := do
  assertStatus w isAwaitingOpen
  if deliverablesReferenced w then throw .database
  else do
    let table ← (newDeliverables w.nextDeliverable filenames).foldlM insertDeliverable .empty
    pure { w with
      deliverables := table
      nextDeliverable := w.nextDeliverable + filenames.length }

/-- `AgentSocketIdentity`. -/
structure AgentIdentity where
  studentId : String
  fullName : String
  homeClassId : String
  homeTeacherId : String

structure ConfirmDto where
  requiredDeliverableId : Nat
  storageKey : String
  checksum : String
  fileSize : Nat

/-- `validate_submission_lifecycle`, on an update. -/
def lifecycleAllows : SubmissionStatus → SubmissionStatus → Bool
  | .received, .validated => true
  | .received, .invalid => true
  | .validated, .collected => true
  | .validated, .invalid => true
  | .notSubmitted, .received => true
  | .notSubmitted, .absent => true
  | .absent, .received => true
  | old, new => old = new

def SubmissionRow.to (row : SubmissionRow) (status : SubmissionStatus) :
    Except RosterError SubmissionRow :=
  if lifecycleAllows row.status status then pure { row with status := status }
  else throw .database

/-- A step that only some rows take. -/
def SubmissionRow.toWhen (row : SubmissionRow) (takes : Bool) (status : SubmissionStatus) :
    Except RosterError SubmissionRow :=
  if takes then row.to status else pure row

def SubmissionRow.store (row : SubmissionRow) (file : StoredFile) (fullName : String) :
    SubmissionRow :=
  { row with file := some file, studentNameInput := fullName }

/-- What `writeCollected` makes of the row that is there. -/
def SubmissionRow.collect (row : SubmissionRow) (file : StoredFile) (fullName : String) :
    Except RosterError SubmissionRow :=
  if row.status = .collected ∨ row.status = .invalid then pure (row.store file fullName)
  else do
    let row' ← row.toWhen (row.status = .notSubmitted ∨ row.status = .absent) .received
    let row' ← row'.toWhen (row.status ≠ .validated) .validated
    let row' ← row'.to .collected
    pure (row'.store file fullName)

/-- The row of a first upload, before it is walked to `collected`. -/
def receivedRow (identity : AgentIdentity) (dto : ConfirmDto) (file : StoredFile) :
    SubmissionRow :=
  ⟨dto.requiredDeliverableId, identity.studentId, identity.fullName, identity.homeClassId,
    identity.homeTeacherId, .received, some file⟩

def writeCollected (w : ExamTables) (identity : AgentIdentity) (dto : ConfirmDto) (now : Int) :
    Except RosterError ExamTables := do
  let file : StoredFile := ⟨dto.storageKey, dto.checksum, dto.fileSize, now⟩
  match w.submissions.find? (dto.requiredDeliverableId, identity.studentId) with
  | none =>
    let row ← (receivedRow identity dto file).collect file identity.fullName
    match w.submissions.insert? row with
    | none => throw .database
    | some submissions => pure { w with submissions := submissions }
  | some existing =>
    let row ← existing.collect file identity.fullName
    pure { w with submissions := w.submissions.put row }

def isAcceptingUploads (session : SessionColumns) (now : Int) : Bool :=
  isCollectionOpen session.status ∧ session.startTime ≤ now ∧
    now ≤ session.endTime + SUBMISSION_GRACE_PERIOD_MS

/-- `confirmSubmission`.  `stored` is whether the key is the student's own and
the storage has the object. -/
def confirmSubmission (w : ExamTables) (identity : AgentIdentity) (dto : ConfirmDto)
    (stored : Bool) (now : Int) : Except RosterError ExamTables :=
  if ¬ isAcceptingUploads w.session now then throw .conflict
  else if w.deliverables.rows.all (·.id ≠ dto.requiredDeliverableId) then throw .notFound
  else if ¬ stored then throw .badRequest
  else writeCollected w identity dto now

def markAbsent (row : SubmissionRow) : SubmissionRow := { row with status := .absent }

theorem seatKey_markAbsent (row : SubmissionRow) : seatKey (markAbsent row) = seatKey row := rfl

def markAbsentees (w : ExamTables) : ExamTables :=
  { w with
    submissions := w.submissions.updateWhere (fun row => row.status = .notSubmitted) markAbsent
      seatKey_markAbsent }

def confirmEnd (w : ExamTables) (teacherId : String) (now : Int) : ExamTables :=
  if isConfirmable now w.session then
    markAbsentees { w with session := w.session.confirm teacherId now }
  else w

/-- A write of the session's row alone. -/
def updateSession (w : ExamTables) (p : SessionColumns → Bool)
    (f : SessionColumns → SessionColumns) : ExamTables :=
  if p w.session then { w with session := f w.session } else w

inductive SessionOp
  | materializeFromEnrollment
  | importStudents (dto : ImportDto)
  | freeze
  | removeManual (mssv : String)
  | addManually (student : ImportStudent)
  | ensureManual (student : RosterStudent)
  | replaceRequiredDeliverables (filenames : List String)
  | confirmSubmission (identity : AgentIdentity) (dto : ConfirmDto) (stored : Bool) (now : Int)
  | finalizeExamSession
  | completeExpired (now : Int)
  | confirmEnd (teacherId : String) (now : Int)
  | cancel
  | transitionUnopened (status : Unopened)
  /-- the enrollments of the school change -/
  | enrol (enrollments : List Enrollment)

def runOp (w : ExamTables) : SessionOp → Except RosterError ExamTables
  | .materializeFromEnrollment => materializeFromEnrollment w
  | .importStudents dto => (importStudents w dto).map Prod.snd
  | .freeze => (freeze w).map Prod.snd
  | .removeManual mssv => removeManual w mssv
  | .addManually student => addManually w student
  | .ensureManual student => pure (ensureManual w student)
  | .replaceRequiredDeliverables filenames => replaceRequiredDeliverables w filenames
  | .confirmSubmission identity dto stored now => confirmSubmission w identity dto stored now
  | .finalizeExamSession =>
    pure (updateSession w (fun session => session.status = .active) (.to .collecting))
  | .completeExpired now =>
    pure (updateSession w (fun session => session.status = .collecting) (.expire now))
  | .confirmEnd teacherId now => pure (confirmEnd w teacherId now)
  | .cancel =>
    pure (updateSession w (fun session => canCancelExamSession session.status) (.to .cancelled))
  | .transitionUnopened status => pure (updateSession w isUnopened (.to status.status))
  | .enrol enrollments => pure { w with enrollments := enrollments }

/-- The tables after an operation: a transaction that fails leaves no trace. -/
def step (w : ExamTables) (op : SessionOp) : ExamTables :=
  match runOp w op with
  | .ok w' => w'
  | .error _ => w

def createdSession (session : SessionColumns) (teacherId courseName : String)
    (enrollments : List Enrollment) : ExamTables where
  session := { session with status := .scheduled, completedAt := none, completedBy := none }
  teacherId := teacherId
  courseName := courseName
  deliverables := .empty
  nextDeliverable := 0
  roster := .empty
  submissions := .empty
  enrollments := enrollments

/-! ## What an operation does -/

/-- A row without a file belongs to a student of the roster. -/
def Owned (w : ExamTables) : Prop :=
  ∀ row ∈ w.submissions.rows, row.file = none → w.roster.has row.studentMssv = true

/-- Every student of the roster has a row for every required file. -/
def Seated (w : ExamTables) : Prop :=
  ∀ student ∈ w.roster.rows, ∀ deliverable ∈ w.deliverables.rows,
    w.submissions.has (deliverable.id, student.mssv) = true

/-- The session's row stays, and so do its rows of `submission`, but for empty
seats that come and rows that go. -/
structure Keeps (w w' : ExamTables) : Prop where
  session : w'.session = w.session
  owned : Owned w → Owned w'
  rows : ∀ row ∈ w'.submissions.rows, row ∈ w.submissions.rows ∨ row.status = .notSubmitted

theorem Keeps.refl (w : ExamTables) : Keeps w w := ⟨rfl, id, fun _ h => .inl h⟩

theorem Keeps.trans {w₁ w₂ w₃ : ExamTables} (h : Keeps w₁ w₂) (h' : Keeps w₂ w₃) :
    Keeps w₁ w₃ := by
  refine ⟨h'.session.trans h.session, fun howned => h'.owned (h.owned howned), fun row hrow => ?_⟩
  rcases h'.rows row hrow with hrow | hempty
  · exact h.rows row hrow
  · exact .inr hempty

variable {w w' : ExamTables} {row row' : SubmissionRow} {students : List RosterStudent}

theorem keeps_foldlM {γ : Type} {f : ExamTables → γ → Except RosterError ExamTables}
    (hf : ∀ w c w', f w c = .ok w' → Keeps w w') {l : List γ} (h : l.foldlM f w = .ok w') :
    Keeps w w' :=
  foldlM_invariant (I := Keeps w) (fun s c s' hs hstep => hs.trans (hf s c s' hstep))
    (Keeps.refl w) h

theorem keeps_of_roster {roster : UniqueTable rosterKey}
    (h : ∀ k, w.roster.has k = true → roster.has k = true) : Keeps w { w with roster := roster } :=
  ⟨rfl, fun howned row hrow hfile => h _ (howned row hrow hfile), fun _ hrow => .inl hrow⟩

theorem insertRoster_eq_ok {row : RosterRow} (h : insertRoster w row = .ok w') :
    ∃ roster, w.roster.insert? row = some roster ∧ w' = { w with roster := roster } := by
  unfold insertRoster at h
  split at h
  · cases h
  · rename_i roster hinsert
    exact ⟨roster, hinsert, (pure_eq_ok.1 h).symm⟩

theorem insertRoster_keeps {row : RosterRow} (h : insertRoster w row = .ok w') : Keeps w w' := by
  obtain ⟨roster, hinsert, rfl⟩ := insertRoster_eq_ok h
  exact keeps_of_roster fun k hk => (UniqueTable.has_insert? hinsert).2 (.inl hk)

theorem freezeEnrollments_keeps (h : freezeEnrollments w = .ok w') : Keeps w w' :=
  keeps_foldlM (fun _ _ _ hstep => insertRoster_keeps hstep) h

theorem materializeIfEmpty_keeps (h : materializeIfEmpty w = .ok w') : Keeps w w' := by
  unfold materializeIfEmpty at h
  split_ifs at h
  · cases h
    exact Keeps.refl w
  · exact freezeEnrollments_keeps h

theorem withoutStudent_keeps (w : ExamTables) (mssv : String) :
    Keeps w (withoutStudent w mssv) := by
  refine ⟨rfl, fun howned row hrow hfile => ?_, fun row hrow => ?_⟩
  · obtain ⟨hrow, hother⟩ := UniqueTable.mem_deleteWhere.1 hrow
    obtain ⟨student, hstudent, hkey⟩ := UniqueTable.has_iff.1 (howned row hrow hfile)
    refine UniqueTable.has_iff.2 ⟨student, UniqueTable.mem_deleteWhere.2 ⟨hstudent, ?_⟩, hkey⟩
    have hname : student.mssv = row.studentMssv := hkey
    rw [hname]
    exact hother
  · exact .inl (UniqueTable.mem_deleteWhere.1 hrow).1

theorem deleteRosterRow_eq_ok {row : RosterRow} (h : deleteRosterRow w row = .ok w') :
    hasLive w row.mssv = false ∧ w' = withoutStudent w row.mssv := by
  unfold deleteRosterRow at h
  split_ifs at h with hlive
  exact ⟨by simpa using hlive, (pure_eq_ok.1 h).symm⟩

theorem deleteRosterRow_keeps {row : RosterRow} (h : deleteRosterRow w row = .ok w') :
    Keeps w w' := by
  obtain ⟨_, rfl⟩ := deleteRosterRow_eq_ok h
  exact withoutStudent_keeps w row.mssv

theorem mem_emptySeats :
    row ∈ emptySeats w students ↔
      ∃ student ∈ students, ∃ deliverable ∈ w.deliverables.rows,
        row = emptySeat student deliverable := by
  unfold emptySeats
  simp only [List.mem_flatMap, List.mem_map]
  exact exists_congr fun student => and_congr_right fun _ =>
    exists_congr fun deliverable => and_congr_right fun _ => eq_comm

theorem mem_seedSeats (h : row ∈ (seedSeats w students).submissions.rows) :
    row ∈ w.submissions.rows ∨ row ∈ emptySeats w students :=
  UniqueTable.mem_of_foldl_insertOrIgnore h

theorem has_seedSeats {k : Nat × String} :
    (seedSeats w students).submissions.has k = true ↔
      w.submissions.has k = true ∨
        ∃ student ∈ students, ∃ deliverable ∈ w.deliverables.rows,
          (deliverable.id, student.mssv) = k := by
  unfold seedSeats
  rw [UniqueTable.has_foldl_insertOrIgnore]
  refine or_congr Iff.rfl ⟨?_, ?_⟩
  · rintro ⟨row, hrow, rfl⟩
    obtain ⟨student, hstudent, deliverable, hdeliverable, rfl⟩ := mem_emptySeats.1 hrow
    exact ⟨student, hstudent, deliverable, hdeliverable, rfl⟩
  · rintro ⟨student, hstudent, deliverable, hdeliverable, rfl⟩
    exact ⟨emptySeat student deliverable,
      mem_emptySeats.2 ⟨student, hstudent, deliverable, hdeliverable, rfl⟩, rfl⟩

theorem seedSeats_keeps (h : ∀ student ∈ students, w.roster.has student.mssv = true) :
    Keeps w (seedSeats w students) := by
  refine ⟨rfl, fun howned row hrow hfile => ?_, fun row hrow => ?_⟩
  · rcases mem_seedSeats hrow with hrow | hrow
    · exact howned row hrow hfile
    · obtain ⟨student, hstudent, deliverable, _, rfl⟩ := mem_emptySeats.1 hrow
      exact h student hstudent
  · rcases mem_seedSeats hrow with hrow | hrow
    · exact .inl hrow
    · obtain ⟨student, _, deliverable, _, rfl⟩ := mem_emptySeats.1 hrow
      exact .inr rfl

theorem assertStatus_eq_ok {ok : ExamSessionStatus → Bool} {u : Unit}
    (h : assertStatus w ok = .ok u) : ok w.session.status = true := by
  unfold assertStatus at h
  split_ifs at h with _ hok
  exact hok

theorem materializeFromEnrollment_keeps (h : materializeFromEnrollment w = .ok w') :
    isAwaitingOpen w.session.status = true ∧ Keeps w w' := by
  obtain ⟨u, hstatus, h⟩ := bind_eq_ok.1 h
  exact ⟨assertStatus_eq_ok hstatus, materializeIfEmpty_keeps h⟩

theorem importStudent_keeps {classId : String} {existing : UniqueTable rosterKey}
    {acc acc' : ImportTally × ExamTables} {student : ImportStudent}
    (h : importStudent classId existing acc student = .ok acc') : Keeps acc.2 acc'.2 := by
  obtain ⟨tally, w⟩ := acc
  unfold importStudent at h
  dsimp only at h
  split at h
  · obtain ⟨w', hinsert, h⟩ := bind_eq_ok.1 h
    cases h
    exact insertRoster_keeps hinsert
  · cases h
    exact keeps_of_roster fun k hk => by rwa [UniqueTable.has_put]

theorem importStudents_keeps {dto : ImportDto} {result : ImportTally × ExamTables}
    (h : importStudents w dto = .ok result) :
    isAwaitingOpen w.session.status = true ∧ Keeps w result.2 := by
  obtain ⟨u, hstatus, h⟩ := bind_eq_ok.1 h
  refine ⟨assertStatus_eq_ok hstatus, ?_⟩
  split at h
  · cases h
  · obtain ⟨w₁, hmaterialize, h⟩ := bind_eq_ok.1 h
    obtain ⟨⟨tally, w₂⟩, hloop, h⟩ := bind_eq_ok.1 h
    obtain ⟨w₃, hremove, h⟩ := bind_eq_ok.1 h
    cases h
    have hfirst : Keeps w w₁ := by
      unfold materializeForImport at hmaterialize
      split_ifs at hmaterialize
      · exact materializeIfEmpty_keeps hmaterialize
      · cases hmaterialize
        exact Keeps.refl w
    have hsecond : Keeps w₁ w₂ :=
      foldlM_invariant (I := fun acc => Keeps w₁ acc.2)
        (fun acc student acc' hacc hstep => hacc.trans (importStudent_keeps hstep))
        (Keeps.refl w₁) hloop
    have hthird : Keeps w₂ w₃ := keeps_foldlM (fun _ _ _ hstep => deleteRosterRow_keeps hstep)
      hremove
    exact (hfirst.trans hsecond).trans hthird

theorem replaceRequiredDeliverables_keeps {filenames : List String}
    (h : replaceRequiredDeliverables w filenames = .ok w') :
    isAwaitingOpen w.session.status = true ∧ Keeps w w' := by
  obtain ⟨u, hstatus, h⟩ := bind_eq_ok.1 h
  refine ⟨assertStatus_eq_ok hstatus, ?_⟩
  split_ifs at h
  obtain ⟨table, _, h⟩ := bind_eq_ok.1 h
  cases h
  exact ⟨rfl, id, fun _ hrow => .inl hrow⟩

theorem not_active_of_awaiting {status : ExamSessionStatus} (h : isAwaitingOpen status = true) :
    status ≠ .active := by
  rintro rfl
  cases h

theorem freezeEnrollments_has (h : freezeEnrollments w = .ok w') :
    w'.teacherId = w.teacherId ∧ w'.deliverables = w.deliverables ∧
      ∀ mssv, w'.roster.has mssv = true ↔
        w.roster.has mssv = true ∨ ∃ e ∈ classEnrollments w, e.studentMssv = mssv := by
  unfold freezeEnrollments at h
  generalize hl : classEnrollments w = l at h ⊢
  clear hl
  induction l generalizing w with
  | nil =>
    cases h
    simp
  | cons e l ih =>
    rw [List.foldlM_cons] at h
    obtain ⟨w₁, hinsert, h⟩ := bind_eq_ok.1 h
    obtain ⟨roster, hroster, rfl⟩ := insertRoster_eq_ok hinsert
    obtain ⟨hteacher, hdeliverables, hhas⟩ := ih h
    refine ⟨hteacher, hdeliverables, fun mssv => ?_⟩
    rw [hhas, UniqueTable.has_insert? hroster, or_assoc]
    refine or_congr Iff.rfl ?_
    rw [List.exists_mem_cons_iff]
    exact Iff.rfl

theorem materializeAwaiting_keeps (h : materializeAwaiting w = .ok w') :
    Keeps w w' ∧ (isAwaitingOpen w.session.status = false → w' = w) := by
  unfold materializeAwaiting at h
  split_ifs at h with hawaiting
  · exact ⟨materializeIfEmpty_keeps h, fun hopen => absurd (hawaiting.symm.trans hopen) (by simp)⟩
  · cases h
    exact ⟨Keeps.refl w, fun _ => rfl⟩

/-- What `freeze` writes: the session is active, somebody is on the roster and
everybody on it has a seat. -/
structure Opened (w w' : ExamTables) : Prop where
  session : w'.session = w.session.to .active
  owned : Owned w → Owned w'
  rows : ∀ row ∈ w'.submissions.rows, row ∈ w.submissions.rows ∨ row.status = .notSubmitted
  nonempty : w'.roster.rows ≠ []
  seated : Seated w'

theorem freezeChecks_true {current : SessionColumns} {deliverableCount existingRows enrolled : Nat}
    (h : freezeChecks current deliverableCount existingRows enrolled = .ok true) :
    isAwaitingOpen current.status = true ∧ (0 < existingRows ∨ 0 < enrolled) := by
  unfold freezeChecks at h
  split_ifs at h with _ hexisting hactive hawaiting _ hawaiting' hnone
  · cases h
  · exact ⟨hawaiting, .inl hexisting⟩
  · exact ⟨by simpa using hawaiting', .inr (Nat.pos_of_ne_zero hnone)⟩

theorem rosterToOpen_has (h : rosterToOpen w = .ok w') :
    Keeps w w' ∧ ∀ mssv, w'.roster.has mssv = true ↔
      ∃ student ∈ expectedStudents w, student.mssv = mssv := by
  unfold rosterToOpen at h
  unfold expectedStudents
  split_ifs at h with hrows
  · cases h
    refine ⟨Keeps.refl w, fun mssv => ?_⟩
    rw [if_pos hrows, UniqueTable.has_iff]
    simp [rosterKey]
  · refine ⟨freezeEnrollments_keeps h, fun mssv => ?_⟩
    have hempty : w.roster.rows = [] := by simpa using hrows
    rw [if_neg hrows, (freezeEnrollments_has h).2.2 mssv,
      UniqueTable.has_eq_false_of_rows hempty]
    simp [Enrollment.student]

theorem openSession_opened {result : FreezeResult × ExamTables}
    (hsomebody : 0 < w.roster.rows.length ∨ 0 < (classEnrollments w).length)
    (h : openSession w = .ok result) : Opened w result.2 := by
  obtain ⟨w₁, hroster, h⟩ := bind_eq_ok.1 h
  cases h
  obtain ⟨hkeeps, hhas⟩ := rosterToOpen_has hroster
  have hseeded : Keeps w₁ (seedSeats w₁ (expectedStudents w)) :=
    seedSeats_keeps fun student hstudent => (hhas student.mssv).2 ⟨student, hstudent, rfl⟩
  have hall := hkeeps.trans hseeded
  refine ⟨congrArg (SessionColumns.to .active) hkeeps.session, hall.owned, hall.rows, ?_, ?_⟩
  · have hstudents : expectedStudents w ≠ [] := by
      unfold expectedStudents
      split_ifs with hrows
      · simpa using hrows
      · have hempty : w.roster.rows = [] := by simpa using hrows
        rcases hsomebody with hsomebody | hsomebody
        · rw [hempty] at hsomebody
          cases hsomebody
        · simpa using List.ne_nil_of_length_pos hsomebody
    obtain ⟨student, hstudent⟩ := List.exists_mem_of_ne_nil _ hstudents
    exact UniqueTable.rows_ne_nil_of_has ((hhas student.mssv).2 ⟨student, hstudent, rfl⟩)
  · intro row hrow deliverable hdeliverable
    obtain ⟨student, hstudent, hmssv⟩ := (hhas row.mssv).1 (UniqueTable.has_of_mem hrow)
    exact has_seedSeats.2 (.inr ⟨student, hstudent, deliverable, hdeliverable, by rw [hmssv]⟩)

theorem freeze_cases {result : FreezeResult × ExamTables} (h : freeze w = .ok result) :
    result.2 = w ∨ isAwaitingOpen w.session.status = true ∧ Opened w result.2 := by
  obtain ⟨u, _, h⟩ := bind_eq_ok.1 h
  obtain ⟨writes, hchecks, h⟩ := bind_eq_ok.1 h
  have hchecks := mapError_eq_ok.1 hchecks
  cases writes with
  | false =>
    cases h
    exact .inl rfl
  | true =>
    obtain ⟨hawaiting, hsomebody⟩ := freezeChecks_true hchecks
    exact .inr ⟨hawaiting, openSession_opened hsomebody h⟩

/-- A student who was added by hand and has handed nothing in. -/
def Dismissable (w : ExamTables) (mssv : String) : Prop :=
  ∃ row, w.roster.find? mssv = some row ∧ row.source = .manual ∧ hasLive w mssv = false

theorem removeManual_cases {mssv : String} (h : removeManual w mssv = .ok w') :
    isExamOver w.session.status = false ∧
      (isAwaitingOpen w.session.status = true ∧ Keeps w w' ∨
        Dismissable w mssv ∧ w' = withoutStudent w mssv) := by
  obtain ⟨u, hstatus, hbody⟩ := bind_eq_ok.1 h
  obtain ⟨w₁, hmaterialize, hrest⟩ := bind_eq_ok.1 hbody
  obtain ⟨hkeeps, hsame⟩ := materializeAwaiting_keeps hmaterialize
  refine ⟨by simpa using assertStatus_eq_ok hstatus, ?_⟩
  clear h hbody
  split at hrest
  · cases hrest
  · rename_i row hfind
    split_ifs at hrest with hfrozen
    cases hawaiting : isAwaitingOpen w.session.status with
    | true => exact .inl ⟨rfl, hkeeps.trans (deleteRosterRow_keeps hrest)⟩
    | false =>
      obtain rfl := hsame hawaiting
      have hkey : rosterKey row = mssv := UniqueTable.key_of_find? hfind
      change row.mssv = mssv at hkey
      obtain ⟨hlive, rfl⟩ := deleteRosterRow_eq_ok hrest
      rw [hkey] at hlive
      refine .inr ⟨⟨row, hfind, ?_, hlive⟩, by rw [hkey]⟩
      by_contra hsource
      exact hfrozen ⟨by rw [hawaiting]; exact Bool.false_ne_true, hsource⟩

theorem removeManual_active {mssv : String} (hactive : w.session.status = .active)
    (h : Dismissable w mssv) : removeManual w mssv = .ok (withoutStudent w mssv) := by
  obtain ⟨row, hfind, hsource, hlive⟩ := h
  have hkey : rosterKey row = mssv := UniqueTable.key_of_find? hfind
  change row.mssv = mssv at hkey
  have hstatus : assertStatus w (fun status => !isExamOver status) = .ok () := by
    unfold assertStatus
    rw [hactive]
    rfl
  have hmaterialize : materializeAwaiting w = .ok w := by
    unfold materializeAwaiting
    rw [hactive]
    rfl
  refine bind_eq_ok.2 ⟨(), hstatus, bind_eq_ok.2 ⟨w, hmaterialize, ?_⟩⟩
  rw [hfind]
  dsimp only
  rw [if_neg (fun hfrozen => hfrozen.2 hsource)]
  unfold deleteRosterRow
  rw [hkey, hlive]
  rfl

/-- One student is on the roster and has a seat for every file. -/
structure Admitted (w w' : ExamTables) : Prop where
  keeps : Keeps w w'
  nonempty : w'.roster.rows ≠ []
  seated : Seated w → Seated w'

theorem seedSeats_admitted {roster : UniqueTable rosterKey} {student : RosterStudent}
    (hgrows : ∀ k, w.roster.has k = true → roster.has k = true)
    (hrows : ∀ row ∈ roster.rows, row ∈ w.roster.rows ∨ row.mssv = student.mssv)
    (hstudent : roster.has student.mssv = true) :
    Admitted w (seedSeats { w with roster := roster } [student]) := by
  refine ⟨(keeps_of_roster hgrows).trans (seedSeats_keeps ?_),
    UniqueTable.rows_ne_nil_of_has hstudent, ?_⟩
  · intro other hother
    rw [List.mem_singleton.1 hother]
    exact hstudent
  · intro hseated row hrow deliverable hdeliverable
    rcases hrows row hrow with hold | hmssv
    · exact has_seedSeats.2 (.inl (hseated row hold deliverable hdeliverable))
    · exact has_seedSeats.2 (.inr ⟨student, List.mem_singleton_self student, deliverable,
        hdeliverable, by rw [hmssv]⟩)

theorem ensureManual_admitted (w : ExamTables) (student : RosterStudent) :
    Admitted w (ensureManual w student) := by
  refine seedSeats_admitted (fun k hk => UniqueTable.has_insertOrIgnore.2 (.inl hk)) ?_
    (UniqueTable.has_insertOrIgnore.2 (.inr rfl))
  intro row hrow
  rcases UniqueTable.mem_insertOrIgnore.1 hrow with hold | ⟨rfl, _⟩
  · exact .inl hold
  · exact .inr rfl

theorem addManually_cases {student : ImportStudent} (h : addManually w student = .ok w') :
    isExamOver w.session.status = false ∧
      (isAwaitingOpen w.session.status = true ∧ Keeps w w' ∨ Admitted w w') := by
  obtain ⟨u, hstatus, hbody⟩ := bind_eq_ok.1 h
  obtain ⟨w₁, hmaterialize, hrest⟩ := bind_eq_ok.1 hbody
  obtain ⟨hkeeps, hsame⟩ := materializeAwaiting_keeps hmaterialize
  refine ⟨by simpa using assertStatus_eq_ok hstatus, ?_⟩
  clear h hbody
  split_ifs at hrest
  split at hrest
  · cases hrest
  · rename_i manual _
    obtain ⟨w₂, hinsert, hpure⟩ := bind_eq_ok.1 hrest
    obtain ⟨roster, hroster, rfl⟩ := insertRoster_eq_ok hinsert
    cases hpure
    have hadmitted : Admitted w₁ (seedSeats { w₁ with roster := roster } [manual]) := by
      refine seedSeats_admitted (fun k hk => (UniqueTable.has_insert? hroster).2 (.inl hk)) ?_
        ((UniqueTable.has_insert? hroster).2 (.inr rfl))
      intro row hrow
      rcases (UniqueTable.mem_insert? hroster).1 hrow with hold | rfl
      · exact .inl hold
      · exact .inr rfl
    cases hawaiting : isAwaitingOpen w.session.status with
    | true => exact .inl ⟨rfl, hkeeps.trans hadmitted.keeps⟩
    | false =>
      obtain rfl := hsame hawaiting
      exact .inr hadmitted

/-- What an upload does: one row has a file and is live, the others stay. -/
structure Uploaded (w w' : ExamTables) : Prop where
  session : w'.session = w.session
  roster : w'.roster = w.roster
  deliverables : w'.deliverables = w.deliverables
  has : ∀ k, w.submissions.has k = true → w'.submissions.has k = true
  rows : ∀ row ∈ w'.submissions.rows,
    row ∈ w.submissions.rows ∨ row.file.isSome = true ∧ isLive row.status = true

theorem to_eq_ok {status : SubmissionStatus} (h : row.to status = .ok row') :
    row' = { row with status := status } := by
  unfold SubmissionRow.to at h
  split_ifs at h
  exact (pure_eq_ok.1 h).symm

theorem toWhen_seat {takes : Bool} {status : SubmissionStatus}
    (h : row.toWhen takes status = .ok row') : seatKey row' = seatKey row := by
  unfold SubmissionRow.toWhen at h
  split_ifs at h
  · rw [to_eq_ok h]
    rfl
  · rw [← pure_eq_ok.1 h]

theorem collect_eq_ok {file : StoredFile} {fullName : String}
    (h : row.collect file fullName = .ok row') :
    seatKey row' = seatKey row ∧ row'.file = some file ∧ isLive row'.status = true := by
  unfold SubmissionRow.collect at h
  split_ifs at h with hterminal
  · rw [← pure_eq_ok.1 h]
    refine ⟨rfl, rfl, ?_⟩
    rcases hterminal with hstatus | hstatus <;> simp [SubmissionRow.store, isLive, hstatus]
  · obtain ⟨row₁, hreceived, h₁⟩ := bind_eq_ok.1 h
    obtain ⟨row₂, hvalidated, h₂⟩ := bind_eq_ok.1 h₁
    obtain ⟨row₃, hcollected, h₃⟩ := bind_eq_ok.1 h₂
    rw [← pure_eq_ok.1 h₃, to_eq_ok hcollected]
    refine ⟨?_, rfl, rfl⟩
    exact (toWhen_seat hvalidated).trans (toWhen_seat hreceived)

theorem confirmSubmission_uploaded {identity : AgentIdentity} {dto : ConfirmDto} {stored : Bool}
    {now : Int} (h : confirmSubmission w identity dto stored now = .ok w') : Uploaded w w' := by
  unfold confirmSubmission at h
  split_ifs at h
  unfold writeCollected at h
  dsimp only at h
  split at h
  · obtain ⟨row, hcollect, hrest⟩ := bind_eq_ok.1 h
    obtain ⟨_, hfile, hlive⟩ := collect_eq_ok hcollect
    split at hrest
    · cases hrest
    · rename_i submissions hinsert
      cases hrest
      refine ⟨rfl, rfl, rfl, fun k hk => (UniqueTable.has_insert? hinsert).2 (.inl hk), ?_⟩
      intro other hother
      rcases (UniqueTable.mem_insert? hinsert).1 hother with hold | rfl
      · exact .inl hold
      · exact .inr ⟨by rw [hfile]; rfl, hlive⟩
  · obtain ⟨row, hcollect, hrest⟩ := bind_eq_ok.1 h
    obtain ⟨_, hfile, hlive⟩ := collect_eq_ok hcollect
    cases hrest
    refine ⟨rfl, rfl, rfl, fun k hk => ?_, ?_⟩
    · show (w.submissions.put row).has k = true
      rwa [UniqueTable.has_put]
    · intro other hother
      rcases UniqueTable.mem_of_put hother with hold | rfl
      · exact .inl hold
      · exact .inr ⟨by rw [hfile]; rfl, hlive⟩

/-- A write of the session's row that is neither the opening nor the signing. -/
structure Advanced (w w' : ExamTables) : Prop where
  tables : ∃ session, w' = { w with session := session }
  signer : w'.session.completedBy = w.session.completedBy
  active : w'.session.status = .active → w.session.status = .active
  completed : w.session.status = .completed → w'.session.status = .completed

theorem updateSession_advanced {p : SessionColumns → Bool} {f : SessionColumns → SessionColumns}
    (hf : ∀ session, p session = true → (f session).completedBy = session.completedBy ∧
      (f session).status ≠ .active ∧
      (session.status = .completed → (f session).status = .completed)) :
    Advanced w (updateSession w p f) := by
  unfold updateSession
  split_ifs with hp
  · obtain ⟨hsigner, hactive, hcompleted⟩ := hf w.session hp
    exact ⟨⟨_, rfl⟩, hsigner, fun h => absurd h hactive, hcompleted⟩
  · exact ⟨⟨w.session, rfl⟩, rfl, id, id⟩

/-- What an operation does. -/
inductive Moves (w : ExamTables) : SessionOp → ExamTables → Prop
  | fails (op : SessionOp) : Moves w op w
  | prepares {w' : ExamTables} (op : SessionOp) :
    isAwaitingOpen w.session.status = true → Keeps w w' → Moves w op w'
  | opens {w' : ExamTables} :
    isAwaitingOpen w.session.status = true → Opened w w' → Moves w .freeze w'
  | admits {w' : ExamTables} (student : ImportStudent) :
    isExamOver w.session.status = false → Admitted w w' → Moves w (.addManually student) w'
  | ensures (student : RosterStudent) : Moves w (.ensureManual student) (ensureManual w student)
  | dismisses (mssv : String) : isExamOver w.session.status = false → Dismissable w mssv →
    Moves w (.removeManual mssv) (withoutStudent w mssv)
  | uploads {w' : ExamTables} (op : SessionOp) : Uploaded w w' → Moves w op w'
  | advances {w' : ExamTables} (op : SessionOp) : Advanced w w' → Moves w op w'
  | signs (teacherId : String) (now : Int) : isConfirmable now w.session = true →
    Moves w (.confirmEnd teacherId now)
      (markAbsentees { w with session := w.session.confirm teacherId now })

theorem runOp_moves {op : SessionOp} (h : runOp w op = .ok w') : Moves w op w' := by
  cases op with
  | materializeFromEnrollment =>
    obtain ⟨hawaiting, hkeeps⟩ := materializeFromEnrollment_keeps h
    exact .prepares _ hawaiting hkeeps
  | importStudents dto =>
    obtain ⟨result, hresult, rfl⟩ := map_eq_ok.1 h
    obtain ⟨hawaiting, hkeeps⟩ := importStudents_keeps hresult
    exact .prepares _ hawaiting hkeeps
  | replaceRequiredDeliverables filenames =>
    obtain ⟨hawaiting, hkeeps⟩ := replaceRequiredDeliverables_keeps h
    exact .prepares _ hawaiting hkeeps
  | freeze =>
    obtain ⟨result, hresult, rfl⟩ := map_eq_ok.1 h
    rcases freeze_cases hresult with hsame | ⟨hawaiting, hopened⟩
    · rw [hsame]
      exact .fails _
    · exact .opens hawaiting hopened
  | removeManual mssv =>
    obtain ⟨hopen, ⟨hawaiting, hkeeps⟩ | ⟨hdismissable, rfl⟩⟩ := removeManual_cases h
    · exact .prepares _ hawaiting hkeeps
    · exact .dismisses mssv hopen hdismissable
  | addManually student =>
    obtain ⟨hopen, ⟨hawaiting, hkeeps⟩ | hadmitted⟩ := addManually_cases h
    · exact .prepares _ hawaiting hkeeps
    · exact .admits student hopen hadmitted
  | ensureManual student =>
    cases h
    exact .ensures student
  | confirmSubmission identity dto stored now =>
    exact .uploads _ (confirmSubmission_uploaded h)
  | finalizeExamSession =>
    cases h
    refine .advances _ (updateSession_advanced fun session hp =>
      ⟨rfl, by simp [SessionColumns.to], fun hcompleted => ?_⟩)
    rw [hcompleted] at hp
    cases hp
  | completeExpired now =>
    cases h
    exact .advances _ (updateSession_advanced fun session hp =>
      ⟨rfl, by simp [SessionColumns.expire], fun _ => rfl⟩)
  | confirmEnd teacherId now =>
    cases h
    unfold confirmEnd
    split_ifs with hconfirmable
    · exact .signs teacherId now hconfirmable
    · exact .fails _
  | cancel =>
    cases h
    refine .advances _ (updateSession_advanced fun session hp =>
      ⟨rfl, by simp [SessionColumns.to], fun hcompleted => ?_⟩)
    rw [hcompleted] at hp
    cases hp
  | transitionUnopened status =>
    cases h
    refine .advances _ (updateSession_advanced fun session hp => ⟨rfl, ?_, ?_⟩)
    · cases status <;> simp [SessionColumns.to, Unopened.status]
    · intro hcompleted
      unfold isUnopened at hp
      rw [hcompleted] at hp
      cases hp
  | enrol enrollments =>
    -- the tables of the session stay as they are
    cases h
    exact .uploads _ ⟨rfl, rfl, rfl, fun _ hk => hk, fun _ hrow => .inl hrow⟩

theorem step_moves (w : ExamTables) (op : SessionOp) : Moves w op (step w op) := by
  unfold step
  split
  · rename_i w' h
    exact runOp_moves h
  · exact .fails op

end Cine.Exam.SessionRoster
