import Cine.Exam.AttendanceLog
import Cine.Exam.SessionStatus

/-!
# The head count and the people shown

`buildView` of `agent-connection/attendance.service.ts`: the lobby's three
groups.  The classes of a session are its own class and the home classes of
its roster; `present` and `absent` are the enrolment of the own class, and
`makeup` are the connected students of the others.

The order of names is a parameter, and times stay milliseconds.
-/

namespace Cine.Exam

open Cine.Lib
open Cine.Grading (lowerCase)

/-! ## Tables -/

/-- `enrollment`. -/
structure EnrollmentRow where
  studentMssv : String
  studentName : String
  homeClassId : String
deriving DecidableEq, Repr

/-- `class`. -/
structure ClassRow where
  id : String
  name : String
deriving DecidableEq, Repr

inductive SessionRosterSource
  | frozen
  | manual
  | attached
deriving DecidableEq, Repr

/-- `session_roster`. -/
structure SessionRosterRow where
  examSessionId : String
  studentMssv : String
  homeClassId : String
  source : SessionRosterSource
deriving DecidableEq, Repr

/-- `submission`. -/
structure SubmissionStatusRow where
  examSessionId : String
  studentMssv : String
  status : String
deriving DecidableEq, Repr

/-- `exam_session`. -/
structure ExamSessionRow where
  id : String
  classId : Option String
  status : ExamSessionStatus
  attendanceConfirmedAt : Option Int
  attendanceConfirmedCount : Option Nat
deriving DecidableEq, Repr

structure AttendanceTables where
  enrollments : List EnrollmentRow
  classes : List ClassRow
  sessionRoster : List SessionRosterRow
  submissions : List SubmissionStatusRow

/-! ## Views -/

inductive AfterHeadcount
  | returned
  | new
deriving DecidableEq, Repr

structure AttendanceStudentView where
  mssv : String
  name : String
  connected : Bool
  joinedLate : Bool
  firstSeenAt : Option Int
  lastEventAt : Option Int
  homeClassName : Option String
  afterHeadcount : Option AfterHeadcount
  rosterSource : Option SessionRosterSource
deriving DecidableEq, Repr

structure AttendanceDiscrepancy where
  confirmedCount : Nat
  submittedCount : Nat
  unaccounted : List AttendanceStudentView
deriving DecidableEq, Repr

structure AttendanceView where
  classId : Option String
  className : Option String
  rosterSize : Nat
  rosterFrozen : Bool
  confirmedAt : Option Int
  confirmedCount : Option Nat
  present : List AttendanceStudentView
  absent : List AttendanceStudentView
  makeup : List AttendanceStudentView
  sessionRosterSources : OrderedMap String SessionRosterSource
  discrepancy : Option AttendanceDiscrepancy

def classifyArrival (state : StudentState) (confirmedAt : Option Int) : Option AfterHeadcount :=
  match confirmedAt with
  | none => none
  | some at' =>
    if ¬ state.connected ∨ state.latest.occurredAt ≤ at' then none
    else if state.events.any fun e => e.occurredAt ≤ at' then some .returned
    else some .new

def toView (mssv name : String) (seen : OrderedMap String StudentState)
    (confirmedAt : Option Int) : AttendanceStudentView :=
  let state := seen.get? (lowerCase mssv)
  { mssv := mssv
    name := name
    connected := state.any StudentState.connected
    joinedLate := state.any StudentState.joinedLate
    firstSeenAt := state.bind fun s => s.events.head?.map AgentEvent.occurredAt
    lastEventAt := state.map fun s => s.latest.occurredAt
    homeClassName := none
    afterHeadcount := state.bind fun s => classifyArrival s confirmedAt
    rosterSource := none }

def wasPresentAt (state : Option StudentState) (at' : Int) : Bool :=
  state.any fun s =>
    (s.events.filter fun e => e.occurredAt ≤ at').getLast?.any fun e => e.eventType.isPresent

namespace AttendanceTables

variable (t : AttendanceTables) (session : ExamSessionRow) (before : String → String → Bool)

def rosterOf : List SessionRosterRow :=
  t.sessionRoster.filter fun row => row.examSessionId = session.id

def relevantClassIds : List (Option String) :=
  session.classId :: (t.rosterOf session).map fun row => some row.homeClassId

/-- The rows of the classes of the session, as the database orders them. -/
def enrolled : List EnrollmentRow :=
  t.enrollments.filter fun row => some row.homeClassId ∈ t.relevantClassIds session

def byMssv : OrderedMap String EnrollmentRow :=
  .ofList ((t.enrolled session).map fun row => (lowerCase row.studentMssv, row))

/-- `roster`. -/
def classRoster : List EnrollmentRow :=
  (t.enrolled session).filter fun row => some row.homeClassId = session.classId

/-- `classNames.get`. -/
def className (id : String) : Option String :=
  (t.classes.find? fun row => row.id = id ∧ some row.id ∈ t.relevantClassIds session).map
    ClassRow.name

def sessionRosterSources : OrderedMap String SessionRosterSource :=
  .ofList ((t.rosterOf session).map fun row => (lowerCase row.studentMssv, row.source))

def withSource (view : AttendanceStudentView) : AttendanceStudentView :=
  { view with rosterSource := (t.sessionRosterSources session).get? (lowerCase view.mssv) }

def viewOf (events : List AgentEvent) (row : EnrollmentRow) : AttendanceStudentView :=
  toView row.studentMssv row.studentName (fold events) session.attendanceConfirmedAt

def classViews (events : List AgentEvent) : List AttendanceStudentView :=
  (t.classRoster session).map fun row => t.withSource session (viewOf session events row)

/-- One connected student of another class. -/
def makeupView (events : List AgentEvent) (entry : String × StudentState) :
    Option AttendanceStudentView :=
  match (t.byMssv session).get? entry.1 with
  | none => none
  | some row =>
    if some row.homeClassId = session.classId ∨ ¬ entry.2.connected then none
    else
      some (t.withSource session
        { viewOf session events row with homeClassName := t.className session row.homeClassId })

/-- The connected students of other classes. -/
def makeupViews (events : List AgentEvent) : List AttendanceStudentView :=
  (fold events).entries.filterMap (t.makeupView session events)

/-- The numbers with a submission, each once. -/
def submitted : List String :=
  let rows := t.submissions.filter fun row =>
    row.examSessionId = session.id ∧ row.status ∉ ["not_submitted", "absent"]
  (OrderedMap.groupBy (fun row => lowerCase row.studentMssv) rows).values.filterMap fun rows =>
    rows.head?.map SubmissionStatusRow.studentMssv

def buildDiscrepancy (events : List AgentEvent) : Option AttendanceDiscrepancy :=
  match session.attendanceConfirmedAt, session.attendanceConfirmedCount with
  | some confirmedAt, some confirmedCount =>
    if ¬ isExamOver session.status then none
    else
      let seen := fold events
      let rows := t.submitted session
      let unaccounted := (rows.filter fun mssv =>
          ¬ wasPresentAt (seen.get? (lowerCase mssv)) confirmedAt).map fun mssv =>
        match (t.byMssv session).get? (lowerCase mssv) with
        | none => toView mssv mssv seen confirmedAt
        | some row =>
          let view := toView mssv row.studentName seen confirmedAt
          if some row.homeClassId = session.classId then view
          else { view with homeClassName := t.className session row.homeClassId }
      some
        { confirmedCount := confirmedCount
          submittedCount := rows.length
          unaccounted := unaccounted.insertionSort fun a b => before a.mssv b.mssv }
  | _, _ => none

/-- `buildView`, of the events that are loaded. -/
def buildView (events : List AgentEvent) : AttendanceView :=
  let views := t.classViews session events
  let byName (l : List AttendanceStudentView) : List AttendanceStudentView :=
    l.insertionSort fun a b => before a.mssv b.mssv
  { classId := session.classId
    className := session.classId.bind (t.className session)
    rosterSize := (t.classRoster session).length
    rosterFrozen := 0 < (t.rosterOf session).length
    confirmedAt := session.attendanceConfirmedAt
    confirmedCount := session.attendanceConfirmedCount
    present := byName (views.filter AttendanceStudentView.connected)
    absent := byName (views.filter fun view => ¬ view.connected)
    makeup := byName (t.makeupViews session events)
    sessionRosterSources := t.sessionRosterSources session
    discrepancy := t.buildDiscrepancy session before events }

end AttendanceTables

/-! ## Who is in which group -/

def AttendanceStudentView.key (view : AttendanceStudentView) : String := lowerCase view.mssv

/-- The number of an enrolled student. -/
def EnrollmentRow.key (row : EnrollmentRow) : String := lowerCase row.studentMssv

def connectedKeys (events : List AgentEvent) : List String :=
  ((fold events).entries.filter fun e => e.2.connected).map Prod.fst

theorem length_connectedKeys (events : List AgentEvent) :
    (connectedKeys events).length = countPresent events := by
  unfold connectedKeys countPresent OrderedMap.values
  rw [List.length_map, List.countP_map, List.countP_eq_length_filter]
  rfl

theorem connectedKeys_nodup (events : List AgentEvent) : (connectedKeys events).Nodup :=
  (fold events).nodup.sublist (List.filter_sublist.map _)

theorem mem_connectedKeys {events : List AgentEvent} {key : String} :
    key ∈ connectedKeys events ↔ isConnected events key = true := by
  unfold connectedKeys isConnected
  constructor
  · intro h
    obtain ⟨e, he, rfl⟩ := List.mem_map.1 h
    obtain ⟨hmem, hconnected⟩ := List.mem_filter.1 he
    rw [OrderedMap.get?_of_mem_entries hmem]
    exact hconnected
  · intro h
    cases hget : (fold events).get? key with
    | none =>
      rw [hget] at h
      cases h
    | some state =>
      rw [hget] at h
      obtain ⟨e, he, rfl⟩ := Option.map_eq_some_iff.1 hget
      have hfound := List.find?_some he
      exact List.mem_map.2
        ⟨e, List.mem_filter.2 ⟨List.mem_of_find?_eq_some he, h⟩, of_decide_eq_true hfound⟩

theorem exists_event_of_connected {events : List AgentEvent} {key : String}
    (h : isConnected events key = true) : ∃ e ∈ events, e.key = key := by
  rw [isConnected_eq] at h
  cases hlast : (eventsOf events key).getLast? with
  | none =>
    rw [hlast] at h
    cases h
  | some e =>
    obtain ⟨hmem, hkey⟩ := List.mem_filter.1 (List.mem_of_getLast? hlast)
    exact ⟨e, hmem, of_decide_eq_true hkey⟩

namespace AttendanceTables

/-- The rows of a student in the classes of the session, in their order. -/
def rowsOf (t : AttendanceTables) (session : ExamSessionRow) (key : String) :
    List EnrollmentRow :=
  (t.enrolled session).filter fun row => row.key = key

section Groups

variable {t : AttendanceTables} {session : ExamSessionRow} {before : String → String → Bool}
  {events : List AgentEvent}

theorem byMssv_get?_eq (key : String) :
    (t.byMssv session).get? key = (t.rowsOf session key).getLast? :=
  OrderedMap.get?_ofList_keyed EnrollmentRow.key (t.enrolled session) key

variable {key : String}

theorem byMssv_get? {row : EnrollmentRow} (h : (t.byMssv session).get? key = some row) :
    row.key = key := by
  rw [byMssv_get?_eq] at h
  exact of_decide_eq_true (List.mem_filter.1 (List.mem_of_getLast? h)).2

/-- The numbers in the group `present`. -/
def presentKeys (t : AttendanceTables) (session : ExamSessionRow) (events : List AgentEvent) :
    List String :=
  ((t.classRoster session).filter fun row => isConnected events row.key).map EnrollmentRow.key

/-- The numbers in the group `makeup`. -/
def makeupKeys (t : AttendanceTables) (session : ExamSessionRow) (events : List AgentEvent) :
    List String :=
  (connectedKeys events).filter fun key =>
    ((t.byMssv session).get? key).any fun row => some row.homeClassId ≠ session.classId

theorem present_perm :
    ((t.buildView session before events).present.map AttendanceStudentView.key).Perm
      (t.presentKeys session events) := by
  have hviews : ((t.classViews session events).filter AttendanceStudentView.connected).map
      AttendanceStudentView.key = t.presentKeys session events := by
    unfold classViews presentKeys
    rw [List.filter_map, List.map_map]
    rfl
  rw [← hviews]
  exact (List.perm_insertionSort _ _).map _

theorem makeupView_key (entry : String × StudentState) :
    (t.makeupView session events entry).map AttendanceStudentView.key =
      if entry.2.connected ∧ ((t.byMssv session).get? entry.1).any
          (fun row => some row.homeClassId ≠ session.classId) = true then some entry.1
      else none := by
  unfold makeupView
  rcases hget : (t.byMssv session).get? entry.1 with _ | row
  · simp
  · have hkey : row.key = entry.1 := byMssv_get? hget
    by_cases hclass : some row.homeClassId = session.classId
    · simp [hclass]
    · cases hconnected : entry.2.connected with
      | false => simp [hclass]
      | true =>
        simp only [hclass, not_true_eq_false, or_self, if_false, Option.map_some]
        rw [if_pos (by simpa using hclass)]
        exact congrArg some hkey

theorem makeup_perm :
    ((t.buildView session before events).makeup.map AttendanceStudentView.key).Perm
      (t.makeupKeys session events) := by
  have hviews : (t.makeupViews session events).map AttendanceStudentView.key =
      t.makeupKeys session events := by
    unfold makeupViews makeupKeys connectedKeys
    rw [List.map_filterMap, List.filter_map, List.filter_filter, ← List.filterMap_eq_map,
      List.filterMap_filter]
    refine List.filterMap_congr fun entry _ => ?_
    rw [makeupView_key]
    simp only [Function.comp_apply, Bool.and_eq_true, and_comm]
  rw [← hviews]
  exact (List.perm_insertionSort _ _).map _

theorem mem_presentKeys :
    key ∈ t.presentKeys session events ↔
      isConnected events key = true ∧
        ∃ row ∈ t.rowsOf session key, some row.homeClassId = session.classId := by
  unfold presentKeys classRoster rowsOf
  simp only [List.mem_map, List.mem_filter, decide_eq_true_eq]
  constructor
  · rintro ⟨row, ⟨⟨hmem, hclass⟩, hconnected⟩, rfl⟩
    exact ⟨hconnected, row, ⟨hmem, rfl⟩, hclass⟩
  · rintro ⟨hconnected, row, ⟨hmem, rfl⟩, hclass⟩
    exact ⟨row, ⟨⟨hmem, hclass⟩, hconnected⟩, rfl⟩

theorem mem_makeupKeys :
    key ∈ t.makeupKeys session events ↔
      isConnected events key = true ∧
        ∃ row, (t.rowsOf session key).getLast? = some row ∧
          some row.homeClassId ≠ session.classId := by
  unfold makeupKeys
  rw [List.mem_filter, mem_connectedKeys, byMssv_get?_eq, Option.any_eq_true]
  simp only [decide_eq_true_eq]

theorem presentKeys_nodup
    (hunique : (t.enrollments.map fun row => (row.homeClassId, row.key)).Nodup) :
    (t.presentKeys session events).Nodup := by
  have hrows : (t.enrolled session).Pairwise fun a b =>
      (a.homeClassId, a.key) ≠ (b.homeClassId, b.key) :=
    (List.pairwise_map.1 hunique).sublist List.filter_sublist
  have hroster : (t.classRoster session).Pairwise fun a b => a.key ≠ b.key := by
    refine (hrows.sublist List.filter_sublist).imp_of_mem fun ha hb hne hkey => hne ?_
    have hclass := (of_decide_eq_true (List.mem_filter.1 ha).2).trans
      (of_decide_eq_true (List.mem_filter.1 hb).2).symm
    rw [Option.some.inj hclass, hkey]
  exact List.pairwise_map.2 (hroster.sublist List.filter_sublist)

theorem makeupKeys_nodup : (t.makeupKeys session events).Nodup :=
  (connectedKeys_nodup events).sublist List.filter_sublist

end Groups

/-! ## The two answers -/

/-- The head count is the number of people shown, and every connected student
of the roster is in one of the two groups. -/
structure HeadCountMatches (t : AttendanceTables) (session : ExamSessionRow)
    (before : String → String → Bool) (events : List AgentEvent) : Prop where
  counted : countPresent events =
    (t.buildView session before events).present.length +
      (t.buildView session before events).makeup.length
  once : ∀ row ∈ t.rosterOf session, isConnected events (lowerCase row.studentMssv) = true →
    ((∃ view ∈ (t.buildView session before events).present,
        view.key = lowerCase row.studentMssv) ↔
      ¬ ∃ view ∈ (t.buildView session before events).makeup,
        view.key = lowerCase row.studentMssv)

/-- Every student who came last and did not leave is enrolled in a class of
the session, and last in the session's own class if they are in it at all. -/
def ConnectedEnrolled (t : AttendanceTables) (session : ExamSessionRow)
    (events : List AgentEvent) : Prop :=
  ∀ event ∈ events,
    ((eventsOf events event.key).getLast?.any fun e => e.eventType.isPresent) = true →
      ∃ last ∈ (t.rowsOf session event.key).getLast?,
        (∃ row ∈ t.rowsOf session event.key, some row.homeClassId = session.classId) →
          some last.homeClassId = session.classId

section Answers

variable {t : AttendanceTables} {session : ExamSessionRow} {before : String → String → Bool}
  {events : List AgentEvent}

theorem length_present :
    (t.buildView session before events).present.length =
      (t.presentKeys session events).length := by
  rw [← present_perm.length_eq, List.length_map]

theorem length_makeup :
    (t.buildView session before events).makeup.length =
      (t.makeupKeys session events).length := by
  rw [← makeup_perm.length_eq, List.length_map]

variable {key : String}

theorem exists_present :
    (∃ view ∈ (t.buildView session before events).present, view.key = key) ↔
      key ∈ t.presentKeys session events := by
  rw [← present_perm.mem_iff, List.mem_map]

theorem exists_makeup :
    (∃ view ∈ (t.buildView session before events).makeup, view.key = key) ↔
      key ∈ t.makeupKeys session events := by
  rw [← makeup_perm.mem_iff, List.mem_map]

theorem one_group (hconnected : isConnected events key = true) :
    (key ∈ t.presentKeys session events ↔ key ∉ t.makeupKeys session events) ↔
      ∃ last ∈ (t.rowsOf session key).getLast?,
        (∃ row ∈ t.rowsOf session key, some row.homeClassId = session.classId) →
          some last.homeClassId = session.classId := by
  rw [mem_presentKeys, mem_makeupKeys]
  simp only [hconnected, true_and]
  cases hlast : (t.rowsOf session key).getLast? with
  | none =>
    rw [List.getLast?_eq_none_iff] at hlast
    simp [hlast]
  | some last =>
    have hmem := List.mem_of_getLast? hlast
    simp only [Option.some.injEq, exists_eq_left', Option.mem_def, not_not]
    constructor
    · exact fun h => h.1
    · exact fun h => ⟨h, fun hclass => ⟨last, hmem, hclass⟩⟩

theorem connectedEnrolled_iff :
    t.ConnectedEnrolled session events ↔ ∀ key, isConnected events key = true →
      (key ∈ t.presentKeys session events ↔ key ∉ t.makeupKeys session events) := by
  constructor
  · intro h key hconnected
    obtain ⟨event, hmem, rfl⟩ := exists_event_of_connected hconnected
    rw [one_group hconnected]
    rw [isConnected_eq] at hconnected
    exact h event hmem hconnected
  · intro h event _ hlast
    rw [← isConnected_eq] at hlast
    exact (one_group hlast).1 (h event.key hlast)

theorem groups_perm
    (hunique : (t.enrollments.map fun row => (row.homeClassId, row.key)).Nodup)
    (hone : ∀ key, isConnected events key = true →
      (key ∈ t.presentKeys session events ↔ key ∉ t.makeupKeys session events)) :
    (t.presentKeys session events ++ t.makeupKeys session events).Perm
      (connectedKeys events) := by
  refine (List.perm_ext_iff_of_nodup ?_ (connectedKeys_nodup events)).2 fun key => ?_
  · refine List.nodup_append'.2 ⟨presentKeys_nodup hunique, makeupKeys_nodup, ?_⟩
    intro key hpresent hmakeup
    exact (hone key (mem_presentKeys.1 hpresent).1).1 hpresent hmakeup
  · rw [List.mem_append, mem_connectedKeys]
    constructor
    · rintro (hpresent | hmakeup)
      · exact (mem_presentKeys.1 hpresent).1
      · exact (mem_makeupKeys.1 hmakeup).1
    · intro hconnected
      by_cases hmakeup : key ∈ t.makeupKeys session events
      · exact .inr hmakeup
      · exact .inl ((hone key hconnected).2 hmakeup)

end Answers

/-- The head count matches the people shown exactly when every connected
student is found in the enrolment, and in one class only. -/
theorem headCountMatches_iff (t : AttendanceTables) (session : ExamSessionRow)
    (before : String → String → Bool) (events : List AgentEvent)
    (hunique : (t.enrollments.map fun row => (row.homeClassId, row.key)).Nodup)
    (hroster : ∀ event ∈ events, ∃ row ∈ t.rosterOf session,
      lowerCase row.studentMssv = event.key) :
    t.HeadCountMatches session before events ↔ t.ConnectedEnrolled session events := by
  rw [connectedEnrolled_iff]
  constructor
  · intro h key hconnected
    obtain ⟨event, hmem, rfl⟩ := exists_event_of_connected hconnected
    obtain ⟨row, hrow, hkey⟩ := hroster event hmem
    have honce := h.once row hrow (hkey.symm ▸ hconnected)
    rw [exists_present, exists_makeup, hkey] at honce
    exact honce
  · intro hone
    refine ⟨?_, fun row _ hconnected => ?_⟩
    · rw [length_present, length_makeup, ← List.length_append, ← length_connectedKeys]
      exact (groups_perm hunique hone).length_eq.symm
    · rw [exists_present, exists_makeup]
      exact hone _ hconnected

end AttendanceTables

/-! ## A student without a class -/

/-- A session of the class `c1`. -/
def openSession : ExamSessionRow := ⟨"s1", some "c1", .active, none, none⟩

/-- `c1` has one student; the other one of the session has `homeClassId`. -/
def guestTables (homeClassId : String) (enrollments : List EnrollmentRow) :
    AttendanceTables where
  enrollments := ⟨"SV01", "An", "c1"⟩ :: enrollments
  classes := [⟨"c1", "DHKTPM18A"⟩, ⟨"c2", "DHKTPM18B"⟩]
  sessionRoster := [⟨"s1", "SV01", "c1", .frozen⟩, ⟨"s1", "sv02", homeClassId, .attached⟩]
  submissions := []

def bothCame : List AgentEvent :=
  [⟨"s1", "SV01", .connected, false, 1⟩, ⟨"s1", "sv02", .connected, false, 2⟩]

/-- The other student is of another class. -/
theorem guest_headCountMatches :
    (guestTables "c2" [⟨"SV02", "Binh", "c2"⟩]).HeadCountMatches openSession
      (fun a b => a ≤ b) bothCame :=
  (AttendanceTables.headCountMatches_iff _ _ _ _ (by decide) (by decide)).2
    (by unfold AttendanceTables.ConnectedEnrolled; decide)

/-- The other student is in the list of the session, and in no class. -/
theorem attached_not_headCountMatches :
    (((guestTables "c1" []).enrollments.map fun row => (row.homeClassId, row.key)).Nodup ∧
      ∀ event ∈ bothCame, ∃ row ∈ (guestTables "c1" []).rosterOf openSession,
        lowerCase row.studentMssv = event.key) ∧
    ¬ (guestTables "c1" []).HeadCountMatches openSession (fun a b => a ≤ b) bothCame := by
  refine ⟨⟨by decide, by decide⟩, fun h => ?_⟩
  have hcounted := h.counted
  revert hcounted
  decide

end Cine.Exam
