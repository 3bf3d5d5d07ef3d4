import Cine.Grading.Gradebook.StudentBoard
import Cine.Lib.LockedRow

/-!
# The rosters of the classes of a course

`course/roster.service.ts`, and `assign` and `unassign` of
`course/admin-course-section.service.ts`, any number of them at once.

* The rows, and what a request makes of them.
* A request as its statements.  A statement reads what is committed.  A
  statement over several rows takes its list of rows first and then goes row by
  row, waiting for the transaction that holds the row; a row that does not exist
  yet cannot be held.
* `RosterWorld.move` is one statement of one of the requests.

The course of a class does not change while it has students, so it is not part
of the tables that change.  What a statement throws that the model has no text
of is `query failed`.
-/

namespace Cine.Course

open Cine.Lib
open Cine.Grading (lowerCase)

/-! ## The rows -/

/-- The columns of `class` that stay as they are. -/
structure ClassInfo where
  name : String
  courseId : Option String
  courseName : String
deriving DecidableEq, Repr

/-- The row of `enrollment`. -/
structure Enrollment where
  studentMssv : String
  studentName : String
  homeClassId : String
  homeTeacherId : Option String
  studentId : Option String
deriving DecidableEq, Repr

/-- `studentMssv.toLowerCase()`, which is also what the column compares by. -/
def Enrollment.number (e : Enrollment) : String := lowerCase e.studentMssv

/-- The columns of the unique index agree. -/
def Enrollment.sameSeat (e e' : Enrollment) : Bool :=
  e.homeClassId = e'.homeClassId ∧ e.number = e'.number

structure RosterStudent where
  mssv : String
  name : String
deriving DecidableEq, Repr

def RosterStudent.number (s : RosterStudent) : String := lowerCase s.mssv

structure CatalogStudent where
  id : String
  mssv : String
  fullName : String
  active : Bool
deriving DecidableEq, Repr

/-- The catalog of students, as a statement reads it. -/
structure Catalog where
  byId : String → Option CatalogStudent
  /-- `resolveStudentId`. -/
  byMssv : String → Option String

structure AddRosterStudentInput where
  studentId : Option String
  mssv : Option String
  name : Option String
deriving DecidableEq, Repr

/-! ## The courses -/

structure RosterEnv where
  classes : String → ClassInfo

namespace RosterEnv

variable (env : RosterEnv)

/-- The course of a class: its id, or its name where it has none. -/
def courseOf (classId : String) : String ⊕ String :=
  match (env.classes classId).courseId with
  | some id => .inl id
  | none => .inr (env.classes classId).courseName

/-- The classes among which `siblingEnrollments` looks. -/
def sees (classId other : String) : Bool :=
  match (env.classes classId).courseId with
  | some id => (env.classes other).courseId = some id
  | none => (env.classes other).courseName = (env.classes classId).courseName

end RosterEnv

/-! ## What a request makes of the rows -/

/-- What an import or an addition works on.  `teacherId` was read with the class,
before the transaction. -/
structure Sheet where
  classId : String
  teacherId : Option String
  students : List RosterStudent
  removeMissing : Bool
  /-- The catalog id of the student of `addStudent`; `none` for an import. -/
  added : Option (Option String)
deriving DecidableEq, Repr

/-- The rows that `siblingEnrollments` has locked, by their ids. -/
abbrev Existing := List (Nat × Enrollment)

/-- `byMssv.get`: the last row of a number. -/
def rowOf (existing : Existing) (number : String) : Option (Nat × Enrollment) :=
  (existing.filter fun r => r.2.number = number).getLast?

def resolveAddInput (catalog : Catalog) (input : AddRosterStudentInput) :
    Except String (RosterStudent × Option String) :=
  match input.studentId.filter (· ≠ "") with
  | some id =>
    match catalog.byId id with
    | none => .error "Không tìm thấy sinh viên trong catalog."
    | some student =>
      if student.active then .ok (⟨student.mssv, student.fullName⟩, some student.id)
      else .error "Sinh viên catalog không ở trạng thái active."
  | none =>
    match input.mssv.filter (· ≠ ""), input.name.filter (· ≠ "") with
    | some mssv, some name => .ok (⟨mssv, name⟩, catalog.byMssv mssv)
    | _, _ => .error "Cần studentId hoặc cặp mssv + name."

namespace Sheet

variable (sheet : Sheet)

/-- The rows of `assertNoCrossClassMove` that are in another class. -/
def clashes (existing : Existing) : List Enrollment :=
  (sheet.students.filterMap fun s => (rowOf existing s.number).map Prod.snd).filter fun e =>
    e.homeClassId ≠ sheet.classId

def clashMessage (env : RosterEnv) (clashes : List Enrollment) : String :=
  let detail := ", ".intercalate (clashes.map fun e =>
    e.studentMssv ++ " (đang ở lớp \"" ++ (env.classes e.homeClassId).name ++ "\")")
  "Những sinh viên sau đã thuộc một lớp khác của cùng môn học: " ++ detail ++ ". " ++
    "Hãy xoá họ khỏi danh sách lớp cũ trước, rồi import lại — chuyển lớp " ++
    "sẽ đổi nơi bài làm của họ được gửi về."

def studentIdOf (catalog : Catalog) (s : RosterStudent) : Option String :=
  match sheet.added with
  | some studentId => studentId
  | none => catalog.byMssv s.mssv

def newRow (s : RosterStudent) (studentId : Option String) : Enrollment where
  studentMssv := s.mssv
  studentName := s.name
  homeClassId := sheet.classId
  homeTeacherId := sheet.teacherId
  studentId := studentId

/-- The row is written: always by an addition, by an import if something changed. -/
def writes (current : Enrollment) (s : RosterStudent) (studentId : Option String) : Bool :=
  sheet.added.isSome || current.studentName ≠ s.name || current.homeTeacherId ≠ sheet.teacherId ||
    (studentId.isSome && current.studentId ≠ studentId)

/-- The row after the `UPDATE`. -/
def written (s : RosterStudent) (studentId : Option String) (row : Enrollment) : Enrollment :=
  { row with
    studentName := s.name
    homeTeacherId := sheet.teacherId
    studentId := studentId.orElse fun _ => row.studentId }

/-- The rows of the class that the file does not have, if these are to be removed. -/
def removed (existing : Existing) : List Nat :=
  let inFile := sheet.students.map RosterStudent.number
  if sheet.removeMissing then
    (existing.filter fun r => r.2.homeClassId = sheet.classId ∧ r.2.number ∉ inFile).map Prod.fst
  else []

end Sheet

/-- `save` writes at all. -/
def Enrollment.changes (entity found : Enrollment) : Bool :=
  entity.studentName ≠ found.studentName || entity.homeTeacherId ≠ found.homeTeacherId ||
    entity.studentId ≠ found.studentId

/-- The `UPDATE` of `save`, for the columns in which the entity differs from the row
that `save` has found.  The class and the number of a row are never written. -/
def Enrollment.writeChanged (entity found row : Enrollment) : Enrollment :=
  { row with
    studentName :=
      if entity.studentName = found.studentName then row.studentName else entity.studentName
    homeTeacherId :=
      if entity.homeTeacherId = found.homeTeacherId then row.homeTeacherId
      else entity.homeTeacherId
    studentId := if entity.studentId = found.studentId then row.studentId else entity.studentId }

/-! ## The requests -/

inductive RosterRequest
  | importForClass (classId : String) (students : List RosterStudent) (removeMissing : Bool)
  | addStudent (classId : String) (input : AddRosterStudentInput)
  | removeStudent (classId studentMssv : String)
  | updateStudentName (classId studentMssv name : String)
  | assign (classId teacherId : String)
  /-- With the number of exam sessions of the class. -/
  | unassign (classId : String) (sessions : Nat)
deriving DecidableEq, Repr

/-- Where a request is: its next statement, and what it has read. -/
inductive RosterCall
  | idle
  | resolveAdd (classId : String) (teacherId : Option String) (input : AddRosterStudentInput)
  /-- `siblingEnrollments` takes its list of rows. -/
  | readSiblings (sheet : Sheet)
  /-- `FOR UPDATE` of the rows that are left, and `assertNoCrossClassMove` at the end. -/
  | lockSiblings (sheet : Sheet) (todo : List Nat) (existing : Existing)
  | writeStudents (sheet : Sheet) (existing : Existing) (todo : List RosterStudent)
  /-- The `DELETE`, and the commit at the end. -/
  | deleteMissing (sheet : Sheet) (existing : Existing) (todo : List Nat)
  | remove (row : Nat)
  | resolveName (row : Nat) (entity : Enrollment)
  /-- `save` reads the row again. -/
  | reload (row : Nat) (entity : Enrollment)
  | save (row : Nat) (entity : Enrollment) (found : Option Enrollment)
  | commitName
  /-- `save` reads the class again. -/
  | reloadClass (classId : String) (teacherId : Option String)
  | updateClass (classId : String) (teacherId : Option String)
  /-- The `UPDATE` of the enrolments takes its list of rows. -/
  | startBackfill (classId : String) (teacherId : Option String)
  /-- The rows that are left, and the commit at the end. -/
  | backfill (classId : String) (teacherId : Option String) (todo : List Nat)
  | succeeded
  | failed (message : String)
deriving DecidableEq, Repr

/-- The request has not ended. -/
def RosterCall.isOpen : RosterCall → Bool
  | .idle => false
  | .succeeded => false
  | .failed _ => false
  | _ => true

/-- The database and the requests. -/
structure RosterWorld where
  /-- `teacher_id` of the classes. -/
  teachers : String → LockedRow Nat (Option String)
  /-- The rows of `enrollment`; `none` where there is no row. -/
  rows : Nat → LockedRow Nat (Option Enrollment)
  /-- The id of the next row. -/
  next : Nat
  calls : Nat → RosterCall

inductive RosterMove
  | request (request : RosterRequest)
  /-- The next statement, with the catalog that it reads. -/
  | next (catalog : Catalog)
  /-- The next statement throws. -/
  | fail

namespace RosterWorld

/-- Some rows, and no request yet. -/
def start (rows : List Enrollment) (teachers : String → Option String) : RosterWorld where
  teachers := fun classId => ⟨teachers classId, none⟩
  rows := fun k => ⟨rows[k]?, none⟩
  next := rows.length
  calls := fun _ => .idle

variable (s : RosterWorld) (i : Nat)

def setCall (call : RosterCall) : RosterWorld :=
  { s with calls := Function.update s.calls i call }

/-- The end of a transaction, with its commit. -/
def commit : RosterWorld :=
  { s with
    teachers := fun classId => (s.teachers classId).commit i
    rows := fun k => (s.rows k).commit i }.setCall i .succeeded

/-- The end of a transaction, with its rollback. -/
def abort (message : String) : RosterWorld :=
  { s with
    teachers := fun classId => (s.teachers classId).rollback i
    rows := fun k => (s.rows k).rollback i }.setCall i (.failed message)

/-- The rows that a statement finds. -/
def visible (p : Enrollment → Bool) : List Nat :=
  (List.range s.next).filter fun k => (s.rows k).committed.any p

/-- A write of one row; the call waits while another transaction holds it. -/
def writeRow (k : Nat) (change : Option Enrollment → Option Enrollment) (call : RosterCall) :
    RosterWorld :=
  match (s.rows k).rewrite i change with
  | none => s
  | some row => { s with rows := Function.update s.rows k row }.setCall i call

/-- The same for an `UPDATE` or a `DELETE`, which pass by a row that is gone. -/
def updateRow (k : Nat) (change : Option Enrollment → Option Enrollment) (call : RosterCall) :
    RosterWorld :=
  if s.rows k = ⟨none, none⟩ then s.setCall i call else s.writeRow i k change call

/-- Another transaction has written a row of the seat of `e`. -/
def seatHeld (e : Enrollment) : Bool :=
  (List.range s.next).any fun k =>
    (s.rows k).pending.any fun p =>
      p.1 ≠ i && (p.2.any e.sameSeat || (s.rows k).committed.any e.sameSeat)

/-- The transaction sees a row of the seat of `e`. -/
def seatTaken (e : Enrollment) : Bool :=
  (List.range s.next).any fun k => ((s.rows k).seen i).any e.sameSeat

/-- An `INSERT`, under the unique index and the primary key. -/
def insertRow (k : Nat) (e : Enrollment) (call : RosterCall) : RosterWorld :=
  if s.seatHeld i e then s
  else if s.seatTaken i e then
    s.abort i "duplicate key value violates unique constraint \"uq_enrollment_class_student\""
  else if ((s.rows k).seen i).isSome then s.abort i "query failed"
  else { s with next := max s.next (k + 1) }.writeRow i k (fun _ => some e) call

/-- The first statement of a request. -/
def receive : RosterRequest → RosterWorld
  | .importForClass classId students removeMissing =>
    s.setCall i (.readSiblings
      { classId
        teacherId := (s.teachers classId).committed
        students
        removeMissing
        added := none })
  | .addStudent classId input =>
    s.setCall i (.resolveAdd classId (s.teachers classId).committed input)
  | .removeStudent classId studentMssv =>
    match (s.visible fun e => e.homeClassId = classId ∧ e.number = lowerCase studentMssv).head? with
    | none => s.setCall i (.failed "Sinh viên này không có trong danh sách lớp.")
    | some k => s.setCall i (.remove k)
  | .updateStudentName classId studentMssv name =>
    match ((s.visible fun e => e.homeClassId = classId ∧ e.number = lowerCase studentMssv).head?.bind
      fun k => (s.rows k).committed.map fun e => (k, e)) with
    | none => s.setCall i (.failed "Sinh viên này không có trong danh sách lớp.")
    | some (k, e) => s.setCall i (.resolveName k { e with studentName := name })
  | .assign classId teacherId => s.setCall i (.reloadClass classId (some teacherId))
  | .unassign classId sessions =>
    if 0 < sessions then
      s.setCall i (.failed
        "Lớp đã có phiên thi — không gỡ phân công được. Chỉ đổi GV (reassign).")
    else s.setCall i (.reloadClass classId none)

def statement (env : RosterEnv) (catalog : Catalog) : RosterCall → RosterWorld
  | .resolveAdd classId teacherId input =>
    match resolveAddInput catalog input with
    | .error message => s.abort i message
    | .ok (student, studentId) =>
      s.setCall i (.readSiblings
        { classId
          teacherId
          students := [student]
          removeMissing := false
          added := some studentId })
  | .readSiblings sheet =>
    s.setCall i (.lockSiblings sheet (s.visible fun e => env.sees sheet.classId e.homeClassId) [])
  | .lockSiblings sheet (k :: todo) existing =>
    -- under its lock the row is read again, and a deleted one falls out
    match (s.rows k).pending, (s.rows k).committed with
    | some _, _ => s
    | none, none => s.setCall i (.lockSiblings sheet todo existing)
    | none, some e => s.writeRow i k id (.lockSiblings sheet todo (existing ++ [(k, e)]))
  | .lockSiblings sheet [] existing =>
    if sheet.clashes existing = [] then
      s.setCall i (.writeStudents sheet existing sheet.students)
    else s.abort i (Sheet.clashMessage env (sheet.clashes existing))
  | .writeStudents sheet existing (student :: todo) =>
    let studentId := sheet.studentIdOf catalog student
    match rowOf existing student.number with
    | none =>
      s.insertRow i s.next (sheet.newRow student studentId) (.writeStudents sheet existing todo)
    | some (k, current) =>
      if sheet.writes current student studentId then
        s.updateRow i k (Option.map (sheet.written student studentId))
          (.writeStudents sheet existing todo)
      else s.setCall i (.writeStudents sheet existing todo)
  | .writeStudents sheet existing [] =>
    s.setCall i (.deleteMissing sheet existing (sheet.removed existing))
  | .deleteMissing sheet existing (k :: todo) =>
    s.updateRow i k (fun _ => none) (.deleteMissing sheet existing todo)
  | .deleteMissing _ _ [] => s.commit i
  | .remove k =>
    match (s.rows k).rewrite i fun _ => none with
    | none => s
    | some row => { s with rows := Function.update s.rows k (row.commit i) }.setCall i .succeeded
  | .resolveName k entity =>
    s.setCall i (.reload k
      { entity with
        studentId := (catalog.byMssv entity.studentMssv).orElse fun _ => entity.studentId })
  | .reload k entity => s.setCall i (.save k entity (s.rows k).committed)
  | .save k entity (some found) =>
    if entity.changes found then
      s.updateRow i k (Option.map (entity.writeChanged found)) .commitName
    else s.setCall i .commitName
  -- an entity whose row is gone is inserted again
  | .save k entity none => s.insertRow i k entity .commitName
  | .commitName => s.commit i
  | .reloadClass classId teacherId =>
    -- a teacher that the class has already is not written
    if (s.teachers classId).committed = teacherId then
      s.setCall i (.startBackfill classId teacherId)
    else s.setCall i (.updateClass classId teacherId)
  | .updateClass classId teacherId =>
    match (s.teachers classId).rewrite i fun _ => teacherId with
    | none => s
    | some row =>
      { s with teachers := Function.update s.teachers classId row }.setCall i
        (.startBackfill classId teacherId)
  | .startBackfill classId teacherId =>
    s.setCall i (.backfill classId teacherId (s.visible fun e => e.homeClassId = classId))
  | .backfill classId teacherId (k :: todo) =>
    s.updateRow i k
      (Option.map fun e =>
        if e.homeClassId = classId then { e with homeTeacherId := teacherId } else e)
      (.backfill classId teacherId todo)
  | .backfill _ _ [] => s.commit i
  | .idle | .succeeded | .failed _ => s

/-- One statement of one of the requests. -/
def move (env : RosterEnv) (s : RosterWorld) (m : Nat × RosterMove) : RosterWorld :=
  match m.2, s.calls m.1 with
  | .request request, .idle => s.receive m.1 request
  | .request _, _ => s
  | .next catalog, call => s.statement m.1 env catalog call
  | .fail, call => if call.isOpen then s.abort m.1 "query failed" else s

end RosterWorld

end Cine.Course
