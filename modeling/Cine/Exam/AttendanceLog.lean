import Cine.Grading.Gradebook.StudentBoard

/-!
# The log of the connections

`agent-connection/attendance.service.ts`: the table `agent_connection_event`
and what is folded out of it.  `get?_fold` is the fold in one equation: the
state of a student is made of the student's own events, in order.

Times are milliseconds.
-/

namespace Cine.Exam

open Cine.Lib
open Cine.Grading (lowerCase)

inductive AgentEventType
  | connected
  | disconnected
  | reconnected
deriving DecidableEq, Repr

/-- `PRESENT_EVENTS`. -/
def AgentEventType.isPresent : AgentEventType → Bool
  | connected => true
  | disconnected => false
  | reconnected => true

/-- `agent_connection_event`. -/
structure AgentEvent where
  examSessionId : String
  studentMssv : String
  eventType : AgentEventType
  joinedLate : Bool
  occurredAt : Int
deriving DecidableEq, Repr

/-- The number of the student, as `citext` compares it. -/
def AgentEvent.key (e : AgentEvent) : String := lowerCase e.studentMssv

/-! ## Writing -/

/-- The row that `recordJoin` inserts. -/
def joinEvent (rows : List AgentEvent) (examSessionId studentMssv : String)
    (startTime occurredAt : Int) : AgentEvent where
  examSessionId := examSessionId
  studentMssv := studentMssv
  eventType :=
    if rows.any fun e => e.examSessionId = examSessionId ∧ e.key = lowerCase studentMssv then
      .reconnected
    else .connected
  joinedLate := startTime < occurredAt
  occurredAt := occurredAt

/-- The row that `recordDisconnect` inserts. -/
def disconnectEvent (examSessionId studentMssv : String) (occurredAt : Int) : AgentEvent where
  examSessionId := examSessionId
  studentMssv := studentMssv
  eventType := .disconnected
  joinedLate := false
  occurredAt := occurredAt

/-! ## Reading -/

/-- What `loadEvents` may answer: the events of the session by their time.
The order of events of one time is not said. -/
structure LoadsEvents (rows : List AgentEvent) (examSessionId : String)
    (events : List AgentEvent) : Prop where
  rows : events.Perm (rows.filter fun e => e.examSessionId = examSessionId)
  sorted : events.Pairwise fun a b => a.occurredAt ≤ b.occurredAt

structure StudentState where
  events : List AgentEvent
  latest : AgentEvent
  connected : Bool
  joinedLate : Bool
deriving DecidableEq, Repr

/-- One event of `fold`. -/
def foldEvent (byMssv : OrderedMap String StudentState) (event : AgentEvent) :
    OrderedMap String StudentState :=
  match byMssv.get? event.key with
  | some existing =>
    byMssv.set event.key
      { events := existing.events ++ [event]
        latest := event
        connected := event.eventType.isPresent
        joinedLate := existing.joinedLate || event.joinedLate }
  | none =>
    byMssv.set event.key
      { events := [event]
        latest := event
        connected := event.eventType.isPresent
        joinedLate := event.joinedLate }

def fold (events : List AgentEvent) : OrderedMap String StudentState :=
  events.foldl foldEvent .empty

/-- `countPresent`, of the events that are loaded. -/
def countPresent (events : List AgentEvent) : Nat :=
  (fold events).values.countP StudentState.connected

/-! ## The fold in one equation -/

/-- The state of a student with these events. -/
def stateOf (events : List AgentEvent) : Option StudentState :=
  events.getLast?.map fun latest =>
    { events := events
      latest := latest
      connected := latest.eventType.isPresent
      joinedLate := events.any AgentEvent.joinedLate }

def eventsOf (events : List AgentEvent) (key : String) : List AgentEvent :=
  events.filter fun e => e.key = key

theorem eventsOf_concat (events : List AgentEvent) (e : AgentEvent) (key : String) :
    eventsOf (events ++ [e]) key = eventsOf events key ++ if e.key = key then [e] else [] := by
  unfold eventsOf
  rw [List.filter_append]
  split_ifs with h
  · rw [List.filter_cons_of_pos (by simpa using h), List.filter_nil]
  · rw [List.filter_cons_of_neg (by simpa using h), List.filter_nil]

theorem stateOf_concat (events : List AgentEvent) (e : AgentEvent) :
    stateOf (events ++ [e]) = some
      { events := events ++ [e]
        latest := e
        connected := e.eventType.isPresent
        joinedLate := events.any AgentEvent.joinedLate || e.joinedLate } := by
  unfold stateOf
  rw [List.getLast?_append, List.any_append]
  simp

theorem get?_fold (events : List AgentEvent) (key : String) :
    (fold events).get? key = stateOf (eventsOf events key) := by
  induction events using List.reverseRecOn with
  | nil => rfl
  | append_singleton events e ih =>
    have hfold : fold (events ++ [e]) = foldEvent (fold events) e := by
      unfold fold
      rw [List.foldl_append]
      rfl
    rw [hfold, eventsOf_concat]
    by_cases hkey : e.key = key
    · subst hkey
      rw [if_pos rfl, stateOf_concat, foldEvent, ih]
      unfold stateOf
      cases hlast : (eventsOf events e.key).getLast? with
      | none =>
        rw [List.getLast?_eq_none_iff] at hlast
        rw [hlast]
        exact OrderedMap.get?_set_self _ _ _
      | some latest => exact OrderedMap.get?_set_self _ _ _
    · rw [if_neg hkey, List.append_nil, ← ih, foldEvent]
      cases (fold events).get? e.key <;> exact OrderedMap.get?_set_ne (Ne.symm hkey)

def isConnected (events : List AgentEvent) (key : String) : Bool :=
  ((fold events).get? key).any StudentState.connected

theorem isConnected_eq (events : List AgentEvent) (key : String) :
    isConnected events key = (eventsOf events key).getLast?.any fun e => e.eventType.isPresent := by
  unfold isConnected
  rw [get?_fold, stateOf]
  cases (eventsOf events key).getLast? <;> rfl

end Cine.Exam
