import Cine.Exam.AttendanceLog
import Cine.Lib.Machine

/-!
# Presence and the sockets of a student

`recordJoin`, `recordDisconnect` and `handleDisconnect` of
`exam-session.gateway.ts`, as moves of a room: a socket is accepted
(`client.data` is set), its join is recorded, it dies, and its end is
noticed.  The moves of the sockets may come in any order, and a socket may
be dead for a long time before it is noticed.

The log has the events of a student and not of a socket, and the last event
decides.  In a run in which no end is recorded while another socket of the
student lives, and no join after the end of its own socket, presence follows
the sockets (`orderly_agrees`).  A late end of an old socket turns it over
(`lateEnd_absent`).

A row is inserted in the move that stamps it.  When all the rows are there,
only the word `connected` or `reconnected` can tell, and both mean presence.
-/

namespace Cine.Exam

open Cine.Lib
open Cine.Grading (lowerCase)

/-! ## The room -/

/-- The session, and whose machine a socket is of, as the machine spells
it. -/
structure RoomSetting where
  examSessionId : String
  startTime : Int
  studentOf : Nat → String

/-- The number of the student of a socket. -/
def RoomSetting.keyOf (setting : RoomSetting) (socket : Nat) : String :=
  lowerCase (setting.studentOf socket)

structure SocketState where
  /-- `client.data` is set. -/
  accepted : Bool
  /-- The accepted joins that are not recorded. -/
  joining : Nat
  /-- A join is recorded. -/
  joined : Bool
  alive : Bool
  /-- `handleDisconnect` has run. -/
  noticed : Bool
deriving DecidableEq, Repr

structure Room where
  rows : List AgentEvent
  sockets : Nat → SocketState
  clock : Int

inductive RoomMove
  | tick (ms : Nat)
  | accept (socket : Nat)
  | recordJoin (socket : Nat)
  | die (socket : Nat)
  | notice (socket : Nat)
deriving DecidableEq, Repr

namespace Room

variable (setting : RoomSetting)

def setSocket (c : Room) (socket : Nat) (s : SocketState) : Room :=
  { c with sockets := Function.update c.sockets socket s }

def insert (c : Room) (e : AgentEvent) : Room := { c with rows := c.rows ++ [e] }

def move (c : Room) : RoomMove → Room
  | .tick ms => { c with clock := c.clock + ms }
  | .accept socket =>
    let s := c.sockets socket
    c.setSocket socket { s with accepted := true, joining := s.joining + 1 }
  | .recordJoin socket =>
    let s := c.sockets socket
    if s.joining = 0 then c
    else
      (c.insert (joinEvent c.rows setting.examSessionId (setting.studentOf socket)
        setting.startTime c.clock)).setSocket socket
        { s with joining := s.joining - 1, joined := true }
  | .die socket => c.setSocket socket { c.sockets socket with alive := false }
  | .notice socket =>
    let s := c.sockets socket
    if s.alive ∨ s.noticed then c
    else
      (if s.accepted then
        c.insert (disconnectEvent setting.examSessionId (setting.studentOf socket) c.clock)
      else c).setSocket socket { s with noticed := true }

/-- No socket has come. -/
def start (rows : List AgentEvent) (clock : Int) : Room where
  rows := rows
  sockets := fun _ => ⟨false, 0, false, true, false⟩
  clock := clock

/-! ## What is claimed -/

/-- Every accepted join is recorded, and every end is noticed. -/
def AllRecorded (c : Room) : Prop :=
  ∀ socket, (c.sockets socket).joining = 0 ∧
    ((c.sockets socket).alive = true ∨ (c.sockets socket).noticed = true)

/-- A student is connected just where a socket that has joined is alive. -/
def Agrees (c : Room) : Prop :=
  ∀ events, LoadsEvents c.rows setting.examSessionId events → ∀ key,
    isConnected events key = true ↔
      ∃ socket, setting.keyOf socket = key ∧ (c.sockets socket).accepted = true ∧
        (c.sockets socket).alive = true

/-! ## Orderly moves -/

/-- The events of the student in the session, as they were inserted. -/
def log (c : Room) (key : String) : List AgentEvent :=
  eventsOf (c.rows.filter fun e => e.examSessionId = setting.examSessionId) key

/-- The clock is past the events of the student. -/
def IsLate (c : Room) (key : String) : Prop :=
  ∀ e ∈ c.log setting key, e.occurredAt < c.clock

instance (c : Room) (key : String) : Decidable (c.IsLate setting key) :=
  inferInstanceAs (Decidable (∀ e ∈ c.log setting key, e.occurredAt < c.clock))

/-- A join is recorded before the end of its socket is, an end is recorded
when no other socket of the student is alive, and no two events of the
student have one time. -/
def Orderly (c : Room) : RoomMove → Prop
  | .accept socket => (c.sockets socket).noticed = false
  | .recordJoin socket =>
    (c.sockets socket).noticed = false ∧ c.IsLate setting (setting.keyOf socket)
  | .notice socket =>
    (c.sockets socket).accepted = true →
      c.IsLate setting (setting.keyOf socket) ∧
        ∀ other, other ≠ socket → setting.keyOf other = setting.keyOf socket →
          (c.sockets other).joined = true → (c.sockets other).alive = false
  | .tick _ | .die _ => True

/-- What an orderly run keeps: a student whose last event is a join has a
socket that is not noticed, and a student whose last event is an end has no
socket alive. -/
structure Kept (c : Room) : Prop where
  increasing : ∀ key, (c.log setting key).Pairwise fun a b => a.occurredAt < b.occurredAt
  accepted : ∀ socket, (c.sockets socket).joined = true ∨ (c.sockets socket).joining ≠ 0 →
    (c.sockets socket).accepted = true
  pending : ∀ socket, (c.sockets socket).accepted = true →
    (c.sockets socket).joined = true ∨ (c.sockets socket).joining ≠ 0
  present : ∀ key, (c.log setting key).getLast?.any (fun e => e.eventType.isPresent) = true →
    ∃ socket, setting.keyOf socket = key ∧ (c.sockets socket).joined = true ∧
      (c.sockets socket).noticed = false
  absent : ∀ key, (c.log setting key).getLast?.any (fun e => e.eventType.isPresent) = false →
    ∀ socket, setting.keyOf socket = key → (c.sockets socket).joined = true →
      (c.sockets socket).alive = false

section Lemmas

variable {setting} {c : Room} {socket : Nat}

@[simp] theorem log_setSocket (s : SocketState) (key : String) :
    (c.setSocket socket s).log setting key = c.log setting key := rfl

variable {e : AgentEvent}

theorem log_insert (he : e.examSessionId = setting.examSessionId) (key : String) :
    (c.insert e).log setting key = c.log setting key ++ if e.key = key then [e] else [] := by
  unfold log insert
  rw [List.filter_append, List.filter_cons_of_pos (by simpa using he), List.filter_nil,
    eventsOf_concat]

theorem increasing_insert (he : e.examSessionId = setting.examSessionId)
    (hlate : c.IsLate setting e.key) (htime : e.occurredAt = c.clock)
    (h : ∀ key, (c.log setting key).Pairwise fun a b => a.occurredAt < b.occurredAt) (key : String) :
    ((c.insert e).log setting key).Pairwise fun a b => a.occurredAt < b.occurredAt := by
  rw [log_insert he]
  split_ifs with hkey
  · subst hkey
    refine List.pairwise_append.2 ⟨h _, List.pairwise_singleton _ _, fun a ha b hb => ?_⟩
    rw [List.mem_singleton.1 hb, htime]
    exact hlate a ha
  · rw [List.append_nil]
    exact h key

theorem last_insert (he : e.examSessionId = setting.examSessionId) (key : String) :
    ((c.insert e).log setting key).getLast?.any (fun e => e.eventType.isPresent) =
      if e.key = key then e.eventType.isPresent
      else (c.log setting key).getLast?.any fun e => e.eventType.isPresent := by
  rw [log_insert he]
  split_ifs with hkey
  · rw [List.getLast?_concat]
    rfl
  · rw [List.append_nil]

theorem joinEvent_isPresent (rows : List AgentEvent) (session mssv : String) (startTime at' : Int) :
    (joinEvent rows session mssv startTime at').eventType.isPresent = true := by
  unfold joinEvent
  dsimp only
  split_ifs <;> rfl

theorem sockets_setSocket (s : SocketState) (other : Nat) :
    (c.setSocket socket s).sockets other = if other = socket then s else c.sockets other := by
  show Function.update c.sockets socket s other = _
  rw [Function.update_apply]

/-! ## Runs -/

theorem Kept.quiet (h : c.Kept setting) {s : SocketState}
    (hjoined : s.joined = (c.sockets socket).joined)
    (hnoticed : (c.sockets socket).joined = true → s.noticed = (c.sockets socket).noticed)
    (halive : (c.sockets socket).alive = false → s.alive = false)
    (haccepted : s.joined = true ∨ s.joining ≠ 0 → s.accepted = true)
    (hpending : s.accepted = true → s.joined = true ∨ s.joining ≠ 0) :
    (c.setSocket socket s).Kept setting := by
  refine ⟨h.increasing, ?_, ?_, ?_, ?_⟩
  · intro other
    rw [sockets_setSocket]
    split_ifs
    · exact haccepted
    · exact h.accepted other
  · intro other
    rw [sockets_setSocket]
    split_ifs
    · exact hpending
    · exact h.pending other
  · intro key hlast
    obtain ⟨other, hkey, hother, hunnoticed⟩ := h.present key hlast
    refine ⟨other, hkey, ?_⟩
    rw [sockets_setSocket]
    split_ifs with heq
    · subst heq
      exact ⟨hjoined.trans hother, (hnoticed hother).trans hunnoticed⟩
    · exact ⟨hother, hunnoticed⟩
  · intro key hlast other hkey
    rw [sockets_setSocket]
    split_ifs with heq
    · subst heq
      intro hother
      exact halive (h.absent key hlast other hkey (hjoined ▸ hother))
    · exact h.absent key hlast other hkey

theorem Kept.insert (h : c.Kept setting) {s : SocketState}
    (hsession : e.examSessionId = setting.examSessionId) (htime : e.occurredAt = c.clock)
    (hkey : e.key = setting.keyOf socket) (hlate : c.IsLate setting (setting.keyOf socket))
    (haccepted : s.joined = true ∨ s.joining ≠ 0 → s.accepted = true)
    (hpending : s.accepted = true → s.joined = true ∨ s.joining ≠ 0)
    (hpresent : e.eventType.isPresent = true → s.joined = true ∧ s.noticed = false)
    (habsent : e.eventType.isPresent = false → s.alive = false ∧
      ∀ other, other ≠ socket → setting.keyOf other = setting.keyOf socket →
        (c.sockets other).joined = true → (c.sockets other).alive = false) :
    ((c.insert e).setSocket socket s).Kept setting := by
  refine ⟨fun key => increasing_insert hsession (hkey ▸ hlate) htime h.increasing key,
    ?_, ?_, ?_, ?_⟩
  · intro other
    rw [sockets_setSocket]
    split_ifs
    · exact haccepted
    · exact h.accepted other
  · intro other
    rw [sockets_setSocket]
    split_ifs
    · exact hpending
    · exact h.pending other
  · intro key hlast
    rw [log_setSocket, last_insert hsession] at hlast
    split_ifs at hlast with heq
    · refine ⟨socket, hkey.symm.trans heq, ?_⟩
      rw [sockets_setSocket, if_pos rfl]
      exact hpresent hlast
    · obtain ⟨other, hother, hjoined, hunnoticed⟩ := h.present key hlast
      have hne : other ≠ socket := fun hsame => heq (hkey.trans (hsame ▸ hother))
      refine ⟨other, hother, ?_⟩
      rw [sockets_setSocket, if_neg hne]
      exact ⟨hjoined, hunnoticed⟩
  · intro key hlast other hother
    rw [log_setSocket, last_insert hsession] at hlast
    rw [sockets_setSocket]
    split_ifs at hlast with heq
    · obtain ⟨hdead, hothers⟩ := habsent hlast
      split_ifs with hsame
      · exact fun _ => hdead
      · exact hothers other hsame (hother.trans (heq.symm.trans hkey))
    · have hne : other ≠ socket := fun hsame => heq (hkey.trans (hsame ▸ hother))
      rw [if_neg hne]
      exact h.absent key hlast other hother

theorem Kept.move (h : c.Kept setting) (m : RoomMove) (hm : c.Orderly setting m) :
    (c.move setting m).Kept setting := by
  cases m with
  | tick ms => exact ⟨h.increasing, h.accepted, h.pending, h.present, h.absent⟩
  | accept socket =>
    exact h.quiet rfl (fun _ => rfl) id (fun _ => rfl) fun _ => Or.inr (Nat.succ_ne_zero _)
  | die socket =>
    exact h.quiet rfl (fun _ => rfl) (fun _ => rfl) (h.accepted socket) (h.pending socket)
  | recordJoin socket =>
    unfold Room.move
    dsimp only
    by_cases hjoining : (c.sockets socket).joining = 0
    · rw [if_pos hjoining]
      exact h
    · rw [if_neg hjoining]
      have haccepted := h.accepted socket (Or.inr hjoining)
      refine h.insert rfl rfl rfl hm.2 (fun _ => haccepted) (fun _ => Or.inl rfl)
        (fun _ => ⟨rfl, hm.1⟩) fun habsent => ?_
      rw [joinEvent_isPresent] at habsent
      cases habsent
  | notice socket =>
    unfold Room.move
    dsimp only
    by_cases hquiet : (c.sockets socket).alive = true ∨ (c.sockets socket).noticed = true
    · rw [if_pos hquiet]
      exact h
    rw [if_neg hquiet]
    obtain ⟨halive, hnoticed⟩ := not_or.1 hquiet
    by_cases haccepted : (c.sockets socket).accepted = true
    · rw [if_pos haccepted]
      obtain ⟨hlate, hothers⟩ := hm haccepted
      exact h.insert rfl rfl rfl hlate (h.accepted socket) (h.pending socket)
        (fun hpresent => by cases hpresent) fun _ => ⟨Bool.not_eq_true _ |>.mp halive, hothers⟩
    · rw [if_neg haccepted]
      refine h.quiet rfl (fun hjoined => ?_) id (h.accepted socket) (h.pending socket)
      exact absurd (h.accepted socket (Or.inl hjoined)) haccepted

theorem start_kept (rows : List AgentEvent) (clock : Int)
    (hrows : ∀ e ∈ rows, e.examSessionId ≠ setting.examSessionId) :
    (start rows clock).Kept setting := by
  have hlog : ∀ key, (start rows clock).log setting key = [] := by
    intro key
    have hnone : (rows.filter fun e => e.examSessionId = setting.examSessionId) = [] := by
      refine List.filter_eq_nil_iff.2 fun e he heq => ?_
      exact hrows e he (of_decide_eq_true heq)
    show eventsOf (rows.filter fun e => e.examSessionId = setting.examSessionId) key = []
    rw [hnone]
    rfl
  refine ⟨fun key => ?_, fun _ h => ?_, fun _ h => ?_, fun key h => ?_, fun _ _ _ _ h => ?_⟩
  · rw [hlog]
    exact .nil
  · rcases h with h | h
    · cases h
    · exact absurd rfl h
  · cases h
  · rw [hlog] at h
    cases h
  · cases h

theorem eventsOf_loaded {events : List AgentEvent} (h : c.Kept setting)
    (hload : LoadsEvents c.rows setting.examSessionId events) (key : String) :
    eventsOf events key = c.log setting key := by
  have hperm : (eventsOf events key).Perm (c.log setting key) := hload.rows.filter _
  have hincreasing := h.increasing key
  have hnodup : ((c.log setting key).map AgentEvent.occurredAt).Nodup :=
    List.pairwise_map.2 (hincreasing.imp fun hlt => ne_of_lt hlt)
  refine List.Perm.eq_of_pairwise (fun a b ha hb hab hba => ?_) (hload.sorted.filter _)
    (hincreasing.imp fun hlt => le_of_lt hlt) hperm
  exact List.inj_on_of_nodup_map hnodup (hperm.mem_iff.1 ha) hb (le_antisymm hab hba)

theorem Kept.agrees (h : c.Kept setting) (hrecorded : c.AllRecorded) : c.Agrees setting := by
  intro events hload key
  rw [isConnected_eq, eventsOf_loaded h hload]
  constructor
  · intro hlast
    obtain ⟨socket, hkey, hjoined, hunnoticed⟩ := h.present key hlast
    refine ⟨socket, hkey, h.accepted socket (Or.inl hjoined), ?_⟩
    refine (hrecorded socket).2.resolve_right ?_
    rw [hunnoticed]
    exact Bool.false_ne_true
  · rintro ⟨socket, hkey, haccepted, halive⟩
    have hjoined : (c.sockets socket).joined = true :=
      (h.pending socket haccepted).resolve_right (not_not.2 (hrecorded socket).1)
    by_contra hlast
    have hdead := h.absent key (Bool.not_eq_true _ |>.mp hlast) socket hkey hjoined
    rw [hdead] at halive
    cases halive

end Lemmas

end Room

/-- In a run of orderly moves presence follows the sockets, whenever
everything is recorded. -/
theorem orderly_agrees (setting : RoomSetting) (rows : List AgentEvent) (clock : Int) (c : Room)
    (hrows : ∀ e ∈ rows, e.examSessionId ≠ setting.examSessionId)
    (hrun : Reach (Room.move setting) (Room.Orderly setting) (Room.start rows clock) c)
    (hrecorded : c.AllRecorded) : c.Agrees setting := by
  have hkept : c.Kept setting := hrun.invariant (Room.start_kept rows clock hrows)
    fun s m hs hm => Room.Kept.move hs m hm
  exact hkept.agrees hrecorded

/-! ## A late end -/

/-- Two machines of one student. -/
def twoMachines : RoomSetting := ⟨"s1", 0, fun _ => "SV01"⟩

/-- The first machine leaves, and then the second one comes. -/
def earlyEnd : Room :=
  [RoomMove.accept 1, .recordJoin 1, .tick 9, .die 1, .notice 1, .tick 9, .accept 2,
    .recordJoin 2].foldl (Room.move twoMachines) (Room.start [] 0)

/-- The first machine loses its network, the second one comes, and then the
end of the first one is noticed. -/
def lateEnd : Room :=
  [RoomMove.accept 1, .recordJoin 1, .die 1, .tick 9, .accept 2, .recordJoin 2, .tick 9,
    .notice 1].foldl (Room.move twoMachines) (Room.start [] 0)

theorem earlyEnd_allRecorded : earlyEnd.AllRecorded := by
  intro socket
  by_cases hone : socket = 1
  · subst hone
    decide
  by_cases htwo : socket = 2
  · subst htwo
    decide
  simp [earlyEnd, Room.move, Room.setSocket, Room.insert, Room.start, Function.update, hone, htwo]

theorem lateEnd_allRecorded : lateEnd.AllRecorded := by
  intro socket
  by_cases hone : socket = 1
  · subst hone
    decide
  by_cases htwo : socket = 2
  · subst htwo
    decide
  simp [lateEnd, Room.move, Room.setSocket, Room.insert, Room.start, Function.update, hone, htwo]

theorem earlyEnd_agrees : earlyEnd.Agrees twoMachines := by
  refine orderly_agrees twoMachines [] 0 earlyEnd (fun e he => absurd he List.not_mem_nil)
    (reach_foldl ?_) earlyEnd_allRecorded
  refine ⟨rfl, ⟨rfl, by decide⟩, trivial, trivial, fun _ => ⟨by decide, ?_⟩,
    trivial, rfl, ⟨rfl, by decide⟩, trivial⟩
  intro other hne _ hjoined
  simp [Room.move, Room.setSocket, Room.insert, Room.start, Function.update, hne] at hjoined

/-- The student is absent, and the second machine is there. -/
theorem lateEnd_absent :
    Reach (Room.move twoMachines) (fun _ _ => True) (Room.start [] 0) lateEnd ∧
      lateEnd.AllRecorded ∧ ¬ lateEnd.Agrees twoMachines := by
  refine ⟨reach_foldl ⟨trivial, trivial, trivial, trivial, trivial, trivial, trivial, trivial,
    trivial⟩, lateEnd_allRecorded, fun h => ?_⟩
  have hload : LoadsEvents lateEnd.rows twoMachines.examSessionId lateEnd.rows := by
    refine ⟨?_, by decide⟩
    rw [List.filter_eq_self.2 (by decide)]
  have hpresent := (h _ hload "sv01").2 ⟨2, by decide, by decide, by decide⟩
  revert hpresent
  decide

end Cine.Exam
