import Cine.Lib.LockedRow
import Cine.Lib.Machine
import Cine.Lib.Utf16

/-!
# Deciding a room proposal

`rejectRoomProposal`, `withdrawRoomProposal` and `acceptCreateRoom` of
`ide-extensions/ide-extensions.service.ts`, any number of them at once on one
proposal.  Each reads the proposal, checks that it is pending, and writes it
later, by its id alone.

* The rows, and what each request makes of them.
* A request as its statements: `save` reads the row again and writes the columns
  in which it differs (`writeChanged`); the row and the code of a new room are
  locked from their statement to the end of the transaction.
* `Open` and `Closed`: the invariants before and after the proposal is decided.
* `decided_once`: where every write finds the proposal pending, one request at
  most is carried out, and the room and the computers are those of the status.

Nothing deletes a proposal, and its machines are not written after it was sent,
so a request always finds them.  What the other constraints of the tables refuse
is a statement that fails.
-/

namespace Cine.Ide

open Cine.Lib

/-! ## The rows -/

inductive LabRoomProposalStatus
  | pending
  | accepted
  | rejected
  | withdrawn
deriving DecidableEq, Repr

inductive ComputerStatus
  | active
  | maintenance
  | inactive
deriving DecidableEq, Repr

/-- The row of `lab_room_proposal`. -/
structure RoomProposal where
  status : LabRoomProposalStatus
  code : String
  name : String
  capacity : Nat
  building : Option String
  floor : Option String
  proposedByAccountId : String
  note : Option String
  reviewedBy : Option String
  reviewedAt : Option Nat
  createdRoomId : Option String
deriving DecidableEq, Repr

/-- A row of `lab_room_proposal_machine`. -/
structure ProposalMachine where
  hostname : String
  cpu : String
  ramGb : Nat
  storage : String
  gpu : Option String
  os : String
  localIp : String
  macAddress : String
  status : ComputerStatus
deriving DecidableEq, Repr

structure Room where
  id : String
  code : String
  name : String
  capacity : Nat
  building : Option String
  floor : Option String
deriving DecidableEq, Repr

structure Computer where
  roomId : String
  hostname : String
  location : String
  cpu : String
  ramGb : Nat
  storage : String
  gpu : Option String
  os : String
  ipAddress : Option String
  macAddress : Option String
  status : ComputerStatus
deriving DecidableEq, Repr

/-- `AcceptCreateRoomDto`: `some none` is a `null` that was sent. -/
structure AcceptCreateRoomDto where
  code : Option String
  name : Option String
  capacity : Option Nat
  building : Option (Option String)
  floor : Option (Option String)
  note : Option (Option String)
deriving DecidableEq, Repr

/-! ## What a request makes of them -/

/-- `s?.trim() || null`. -/
def trimOrNull (s : Option String) : Option String :=
  match s.map trim with
  | some "" => none
  | t => t

def roomCode (dto : AcceptCreateRoomDto) (detail : RoomProposal) : String :=
  trim (dto.code.getD detail.code)

def newRoom (id : String) (dto : AcceptCreateRoomDto) (detail : RoomProposal) : Room :=
  { id := id
    code := roomCode dto detail
    name := trim (dto.name.getD detail.name)
    capacity := dto.capacity.getD detail.capacity
    building := (dto.building.map trimOrNull).getD detail.building
    floor := (dto.floor.map trimOrNull).getD detail.floor }

def newComputer (roomId : String) (m : ProposalMachine) : Computer :=
  { roomId := roomId
    hostname := m.hostname
    location := ""
    cpu := m.cpu
    ramGb := m.ramGb
    storage := m.storage
    gpu := m.gpu
    os := m.os
    ipAddress := some m.localIp
    macAddress := some m.macAddress
    status := m.status }

namespace RoomProposal

variable (p : RoomProposal)

/-- The proposal as `rejectRoomProposal` saves it. -/
def reject (reviewerId : String) (note : Option (Option String)) (now : Nat) : RoomProposal :=
  { p with
    status := .rejected
    reviewedBy := some reviewerId
    reviewedAt := some now
    note := note.getD p.note }

/-- The proposal as `withdrawRoomProposal` saves it. -/
def withdraw : RoomProposal :=
  { p with status := .withdrawn }

/-- The proposal as `acceptCreateRoom` saves it. -/
def accept (reviewerId : String) (note : Option (Option String)) (roomId : String) (now : Nat) :
    RoomProposal :=
  { p with
    status := .accepted
    reviewedBy := some reviewerId
    reviewedAt := some now
    createdRoomId := some roomId
    note := note.getD p.note }

end RoomProposal

/-- A column: written only if the entity differs from the row that was read. -/
def column {α : Type} [DecidableEq α] (entity row current : α) : α :=
  if entity = row then current else entity

/-- The `UPDATE` of `save`: `row` is what `save` read.  A row that was written in
between differs in `updated_at`, so there always is one. -/
def RoomProposal.writeChanged (entity row current : RoomProposal) : RoomProposal where
  status := column entity.status row.status current.status
  code := column entity.code row.code current.code
  name := column entity.name row.name current.name
  capacity := column entity.capacity row.capacity current.capacity
  building := column entity.building row.building current.building
  floor := column entity.floor row.floor current.floor
  proposedByAccountId := column entity.proposedByAccountId row.proposedByAccountId
    current.proposedByAccountId
  note := column entity.note row.note current.note
  reviewedBy := column entity.reviewedBy row.reviewedBy current.reviewedBy
  reviewedAt := column entity.reviewedAt row.reviewedAt current.reviewedAt
  createdRoomId := column entity.createdRoomId row.createdRoomId current.createdRoomId

@[simp] theorem column_self {α : Type} [DecidableEq α] (a b : α) : column a b b = a := by
  unfold column
  split_ifs with h
  · exact h.symm
  · rfl

theorem RoomProposal.writeChanged_self (entity row : RoomProposal) :
    entity.writeChanged row row = entity := by
  unfold RoomProposal.writeChanged
  simp only [column_self]

/-! ## The requests -/

inductive ProposalRequest
  | reject (reviewerId : String) (note : Option (Option String))
  | withdraw (accountId : String)
  | accept (reviewerId : String) (dto : AcceptCreateRoomDto)
deriving DecidableEq, Repr

/-- What a transaction of `acceptCreateRoom` has inserted. -/
structure CreatedRoom where
  room : Room
  computers : List Computer
deriving DecidableEq, Repr

/-- Where a request is: its next statement, and what it has read. -/
inductive ProposalCall
  | idle
  | readMachines (reviewerId : String) (dto : AcceptCreateRoomDto) (detail : RoomProposal)
  | findRoom (reviewerId : String) (dto : AcceptCreateRoomDto) (detail : RoomProposal)
    (machines : List ProposalMachine)
  | insertRoom (reviewerId : String) (dto : AcceptCreateRoomDto) (detail : RoomProposal)
    (machines : List ProposalMachine)
  | insertComputers (reviewerId : String) (note : Option (Option String)) (created : CreatedRoom)
    (machines : List ProposalMachine)
  /-- `save` reads the row again. -/
  | save (created : Option CreatedRoom) (entity : RoomProposal)
  | update (created : Option CreatedRoom) (entity row : RoomProposal)
  | commit (created : Option CreatedRoom)
  /-- `getRoomProposal`, for the answer. -/
  | readAnswer
  | succeeded
  | failed (message : String)
deriving DecidableEq, Repr

/-- The request is carried out. -/
def ProposalCall.decided : ProposalCall → Bool
  | .readAnswer => true
  | .succeeded => true
  | _ => false

/-- The machines of the proposal, and the id of the room that a call inserts. -/
structure ProposalEnv where
  machines : List ProposalMachine
  roomId : Nat → String

/-- The database and the requests. -/
structure ProposalWorld where
  row : LockedRow Nat RoomProposal
  rooms : List Room
  computers : List Computer
  /-- The codes of the rooms that are inserted and not committed. -/
  openCodes : List (Nat × String)
  calls : Nat → ProposalCall

inductive ProposalMove
  | request (request : ProposalRequest) (now : Nat)
  /-- The next statement, and what follows of it. -/
  | next (now : Nat)
  /-- The next statement throws. -/
  | fail
deriving DecidableEq, Repr

namespace ProposalWorld

/-- A proposal, and no request yet. -/
def start (proposal : RoomProposal) (rooms : List Room) (computers : List Computer) :
    ProposalWorld where
  row := ⟨proposal, none⟩
  rooms := rooms
  computers := computers
  openCodes := []
  calls := fun _ => .idle

def setCall (s : ProposalWorld) (i : Nat) (call : ProposalCall) : ProposalWorld :=
  { s with calls := Function.update s.calls i call }

/-- An error, with the rollback of what the call has written. -/
def abort (s : ProposalWorld) (i : Nat) (message : String) : ProposalWorld :=
  { s with
    row := s.row.rollback i
    openCodes := s.openCodes.filter fun c => c.1 ≠ i }.setCall i (.failed message)

/-- The first statement of a request, which reads the proposal. -/
def receive (s : ProposalWorld) (i now : Nat) : ProposalRequest → ProposalWorld
  | .reject reviewerId note =>
    let proposal := s.row.committed
    if proposal.status ≠ .pending then
      s.setCall i (.failed "Chỉ từ chối được đề xuất đang chờ duyệt.")
    else s.setCall i (.save none (proposal.reject reviewerId note now))
  | .withdraw accountId =>
    let proposal := s.row.committed
    if proposal.proposedByAccountId ≠ accountId then
      s.setCall i (.failed "Chỉ người gửi mới rút được đề xuất của mình.")
    else if proposal.status ≠ .pending then
      s.setCall i (.failed "Chỉ rút được đề xuất đang chờ duyệt.")
    else s.setCall i (.save none proposal.withdraw)
  | .accept reviewerId dto => s.setCall i (.readMachines reviewerId dto s.row.committed)

def statement (env : ProposalEnv) (s : ProposalWorld) (i now : Nat) :
    ProposalCall → ProposalWorld
  | .readMachines reviewerId dto detail =>
    if detail.status ≠ .pending then
      s.setCall i (.failed "Chỉ chấp nhận được đề xuất đang chờ duyệt.")
    else s.setCall i (.findRoom reviewerId dto detail env.machines)
  | .findRoom reviewerId dto detail machines =>
    let code := roomCode dto detail
    if s.rooms.any fun room => room.code = code then
      s.setCall i (.failed s!"Mã phòng «{code}» đã tồn tại — hãy đổi mã trước khi tạo.")
    else s.setCall i (.insertRoom reviewerId dto detail machines)
  | .insertRoom reviewerId dto detail machines =>
    let room := newRoom (env.roomId i) dto detail
    -- the index waits for the transaction that has inserted the code
    if s.openCodes.any fun c => c.2 = room.code then s
    else if s.rooms.any fun r => r.code = room.code then
      s.abort i "duplicate key value violates unique constraint \"uq_room_code\""
    else
      { s with openCodes := (i, room.code) :: s.openCodes }.setCall i
        (.insertComputers reviewerId dto.note ⟨room, []⟩ machines)
  | .insertComputers reviewerId note created (m :: machines) =>
    if created.computers.any fun c => c.hostname = m.hostname then
      s.abort i "duplicate key value violates unique constraint \"uq_computer_room_hostname\""
    else
      s.setCall i (.insertComputers reviewerId note
        { created with computers := created.computers ++ [newComputer created.room.id m] } machines)
  | .insertComputers reviewerId note created [] =>
    -- the proposal is read again, and its status is not looked at
    s.setCall i (.save (some created) (s.row.committed.accept reviewerId note created.room.id now))
  | .save created entity => s.setCall i (.update created entity s.row.committed)
  | .update created entity row =>
    match s.row.update i (fun _ => true) (entity.writeChanged row) with
    | none => s
    | some (_, row') => { s with row := row' }.setCall i (.commit created)
  | .commit none => { s with row := s.row.commit i }.setCall i .readAnswer
  | .commit (some created) =>
    { s with
      row := s.row.commit i
      rooms := s.rooms ++ [created.room]
      computers := s.computers ++ created.computers
      openCodes := s.openCodes.filter fun c => c.1 ≠ i }.setCall i .succeeded
  | .readAnswer => s.setCall i .succeeded
  | .idle | .succeeded | .failed _ => s

/-- One statement of one of the requests. -/
def move (env : ProposalEnv) (s : ProposalWorld) (m : Nat × ProposalMove) : ProposalWorld :=
  match m.2, s.calls m.1 with
  | .request request now, .idle => s.receive m.1 now request
  | .request _ _, _ => s
  | .next now, call => s.statement env m.1 now call
  | .fail, .succeeded => s
  | .fail, .failed _ => s
  | .fail, _ => s.abort m.1 "query failed"

/-- The status that everybody reads. -/
def status (s : ProposalWorld) : LabRoomProposalStatus := s.row.committed.status

/-- The `UPDATE` of a request finds the proposal pending. -/
def FindsPending (s : ProposalWorld) (m : Nat × ProposalMove) : Prop :=
  match m.2, s.calls m.1 with
  | .next _, .update _ _ _ => s.row.pending = none → s.status = .pending
  | _, _ => True

end ProposalWorld

/-! ## Before the decision and after it -/

section Invariants

variable (env : ProposalEnv) (proposal : RoomProposal)

/-- A room of this proposal, with computers for all machines but these. -/
structure MadeOf (created : CreatedRoom) (rest : List ProposalMachine) : Prop where
  room : ∃ i dto, created.room = newRoom (env.roomId i) dto proposal
  computers : created.computers ++ rest.map (newComputer created.room.id) =
    env.machines.map (newComputer created.room.id)

/-- A version of the row decides the proposal, with the room that goes with it. -/
def Decides : Option CreatedRoom → RoomProposal → Prop
  | none, version => version.status = .rejected ∨ version.status = .withdrawn
  | some created, version => version.status = .accepted ∧
      version.createdRoomId = some created.room.id ∧ MadeOf env proposal created []

/-- Before the decision a request has read the proposal as it was sent. -/
def CallOpen : ProposalCall → Prop
  | .readMachines _ _ detail => detail = proposal
  | .findRoom _ _ detail machines => detail = proposal ∧ machines = env.machines
  | .insertRoom _ _ detail machines => detail = proposal ∧ machines = env.machines
  | .insertComputers _ _ created machines => MadeOf env proposal created machines
  | .save created entity => Decides env proposal created entity
  | .update created entity row => Decides env proposal created entity ∧ row = proposal
  | .readAnswer | .succeeded => False
  | .idle | .commit _ | .failed _ => True

variable (rooms : List Room) (computers : List Computer)

structure Open (s : ProposalWorld) : Prop where
  row : s.row.committed = proposal
  rooms : s.rooms = rooms
  computers : s.computers = computers
  calls : ∀ i, CallOpen env proposal (s.calls i)
  holder : ∀ i created, s.calls i = .commit created →
    ∃ version, s.row.pending = some (i, version) ∧ Decides env proposal created version

/-- What the database has of a decision. -/
def Outcome (s : ProposalWorld) : Prop :=
  ∃ created, Decides env proposal created s.row.committed ∧
    s.rooms = rooms ++ (created.map CreatedRoom.room).toList ∧
    s.computers = computers ++ (created.map CreatedRoom.computers).getD []

structure Closed (s : ProposalWorld) : Prop where
  status : s.status ≠ .pending
  free : s.row.pending = none
  calls : ∀ i created, s.calls i ≠ .commit created
  once : ∀ i j, (s.calls i).decided = true → (s.calls j).decided = true → i = j
  outcome : Outcome env proposal rooms computers s

end Invariants

section Steps

variable {env : ProposalEnv} {proposal : RoomProposal} {rooms : List Room}
  {computers : List Computer} {s : ProposalWorld} {i : Nat} {call : ProposalCall}

theorem MadeOf.next {created : CreatedRoom} {m : ProposalMachine} {rest : List ProposalMachine}
    (h : MadeOf env proposal created (m :: rest)) :
    MadeOf env proposal
      { created with computers := created.computers ++ [newComputer created.room.id m] } rest where
  room := h.room
  computers := by
    rw [← h.computers, List.map_cons, List.append_assoc]
    rfl

theorem CallOpen.not_decided (h : CallOpen env proposal call) : call.decided ≠ true := by
  intro hdecided
  cases call <;> first | exact h | cases hdecided

theorem Decides.status_ne {created : Option CreatedRoom} {version : RoomProposal}
    (h : Decides env proposal created version) : version.status ≠ .pending := by
  intro hpending
  cases created with
  | none => rcases h with h | h <;> rw [hpending] at h <;> cases h
  | some created =>
    have h := h.1
    rw [hpending] at h
    cases h

namespace ProposalWorld

theorem setCall_calls (s : ProposalWorld) (i j : Nat) (call : ProposalCall) :
    (s.setCall i call).calls j = if j = i then call else s.calls j := by
  exact Function.update_apply s.calls i call j

end ProposalWorld

theorem Open.codes (h : Open env proposal rooms computers s) (codes : List (Nat × String)) :
    Open env proposal rooms computers { s with openCodes := codes } :=
  ⟨h.row, h.rooms, h.computers, h.calls, h.holder⟩

theorem Open.setCall (h : Open env proposal rooms computers s) (hcall : CallOpen env proposal call)
    (hne : ∀ created, call ≠ .commit created) :
    Open env proposal rooms computers (s.setCall i call) := by
  refine ⟨h.row, h.rooms, h.computers, fun j => ?_, fun j created hj => ?_⟩
  · rw [ProposalWorld.setCall_calls]
    split_ifs
    · exact hcall
    · exact h.calls j
  · rw [ProposalWorld.setCall_calls] at hj
    split_ifs at hj
    · exact absurd hj (hne created)
    · exact h.holder j created hj

theorem Open.abort (h : Open env proposal rooms computers s) (message : String) :
    Open env proposal rooms computers (s.abort i message) := by
  refine ⟨?_, h.rooms, h.computers, fun j => ?_, fun j created hj => ?_⟩
  · show (s.row.rollback i).committed = proposal
    rw [LockedRow.rollback_committed]
    exact h.row
  · unfold ProposalWorld.abort
    rw [ProposalWorld.setCall_calls]
    split_ifs
    · trivial
    · exact h.calls j
  · unfold ProposalWorld.abort at hj
    rw [ProposalWorld.setCall_calls] at hj
    split_ifs at hj with hji
    obtain ⟨version, hpending, hdecides⟩ := h.holder j created hj
    refine ⟨version, ?_, hdecides⟩
    show (s.row.rollback i).pending = _
    unfold LockedRow.rollback
    rw [hpending]
    dsimp only
    rw [if_neg hji]
    exact hpending

theorem Open.receive (h : Open env proposal rooms computers s) (hpending : proposal.status = .pending)
    (now : Nat) (request : ProposalRequest) :
    Open env proposal rooms computers (s.receive i now request) := by
  have hrow := h.row
  cases request with
  | reject reviewerId note =>
    unfold ProposalWorld.receive
    rw [hrow]
    dsimp only
    rw [if_neg (not_not.2 hpending)]
    exact h.setCall (Or.inl rfl) nofun
  | withdraw accountId =>
    unfold ProposalWorld.receive
    rw [hrow]
    dsimp only
    rw [if_neg (not_not.2 hpending)]
    split_ifs
    · exact h.setCall trivial nofun
    · exact h.setCall (Or.inr rfl) nofun
  | accept reviewerId dto => exact h.setCall hrow nofun

theorem Open.commit (h : Open env proposal rooms computers s) {created : Option CreatedRoom}
    (hcall : s.calls i = .commit created) (call : ProposalCall) (hdecided : call.decided = true)
    (codes : List (Nat × String)) :
    Closed env proposal rooms computers
      ({ s with
        row := s.row.commit i
        rooms := s.rooms ++ (created.map CreatedRoom.room).toList
        computers := s.computers ++ (created.map CreatedRoom.computers).getD []
        openCodes := codes }.setCall i call) := by
  obtain ⟨version, hpending, hdecides⟩ := h.holder i created hcall
  have hcommit : s.row.commit i = ⟨version, none⟩ := by
    unfold LockedRow.commit
    rw [hpending]
    exact if_pos rfl
  have hcalls : ∀ j, ({ s with
      row := s.row.commit i
      rooms := s.rooms ++ (created.map CreatedRoom.room).toList
      computers := s.computers ++ (created.map CreatedRoom.computers).getD []
      openCodes := codes }.setCall i call).calls j = if j = i then call else s.calls j :=
    fun j => ProposalWorld.setCall_calls _ i j call
  have hothers : ∀ j, (if j = i then call else s.calls j).decided = true → j = i := by
    intro j hj
    by_contra hne
    rw [if_neg hne] at hj
    exact (h.calls j).not_decided hj
  refine ⟨?_, ?_, fun j created' hj => ?_, fun j k hj hk => ?_, created, ?_, ?_, ?_⟩
  · show (s.row.commit i).committed.status ≠ _
    rw [hcommit]
    exact hdecides.status_ne
  · show (s.row.commit i).pending = none
    rw [hcommit]
  · rw [hcalls] at hj
    split_ifs at hj with hji
    · rw [hj] at hdecided
      cases hdecided
    · obtain ⟨version', hheld, _⟩ := h.holder j created' hj
      rw [hpending] at hheld
      exact hji (congrArg Prod.fst (Option.some.inj hheld)).symm
  · rw [hcalls] at hj hk
    rw [hothers j hj, hothers k hk]
  · show Decides env proposal created (s.row.commit i).committed
    rw [hcommit]
    exact hdecides
  · show s.rooms ++ _ = _
    rw [h.rooms]
  · show s.computers ++ _ = _
    rw [h.computers]

theorem Open.statement (h : Open env proposal rooms computers s) (now : Nat) :
    Open env proposal rooms computers (s.statement env i now (s.calls i)) ∨
      Closed env proposal rooms computers (s.statement env i now (s.calls i)) := by
  have hcall := h.calls i
  cases hi : s.calls i with
  | idle | succeeded | failed => exact Or.inl h
  | readAnswer =>
    rw [hi] at hcall
    exact hcall.elim
  | readMachines reviewerId dto detail =>
    rw [hi] at hcall
    left
    unfold ProposalWorld.statement
    dsimp only
    split_ifs
    · exact h.setCall trivial nofun
    · exact h.setCall ⟨hcall, rfl⟩ nofun
  | findRoom reviewerId dto detail machines =>
    rw [hi] at hcall
    left
    unfold ProposalWorld.statement
    dsimp only
    split_ifs
    · exact h.setCall trivial nofun
    · exact h.setCall hcall nofun
  | insertRoom reviewerId dto detail machines =>
    rw [hi] at hcall
    obtain ⟨rfl, rfl⟩ := hcall
    left
    unfold ProposalWorld.statement
    dsimp only
    split_ifs
    · exact h
    · exact h.abort _
    · exact (h.codes _).setCall ⟨⟨i, dto, rfl⟩, rfl⟩ nofun
  | insertComputers reviewerId note created machines =>
    rw [hi] at hcall
    left
    cases machines with
    | nil =>
      unfold ProposalWorld.statement
      dsimp only
      rw [h.row]
      exact h.setCall ⟨rfl, rfl, hcall⟩ nofun
    | cons m machines =>
      unfold ProposalWorld.statement
      dsimp only
      split_ifs
      · exact h.abort _
      · exact h.setCall hcall.next nofun
  | save created entity =>
    rw [hi] at hcall
    left
    unfold ProposalWorld.statement
    dsimp only
    exact h.setCall ⟨hcall, h.row⟩ nofun
  | update created entity row =>
    rw [hi] at hcall
    left
    obtain ⟨hdecides, rfl⟩ := hcall
    unfold ProposalWorld.statement LockedRow.update
    dsimp only
    cases hfree : s.row.pending with
    | some held => exact h
    | none =>
      -- the row is the one that `save` read, so the version is the entity
      dsimp only
      rw [if_pos rfl, h.row, RoomProposal.writeChanged_self]
      dsimp only
      refine ⟨rfl, h.rooms, h.computers, fun j => ?_, fun j created' hj => ?_⟩
      · rw [ProposalWorld.setCall_calls]
        split_ifs
        · trivial
        · exact h.calls j
      · rw [ProposalWorld.setCall_calls] at hj
        split_ifs at hj with hji
        · cases hj
          exact ⟨entity, by rw [hji]; rfl, hdecides⟩
        · obtain ⟨version, hheld, _⟩ := h.holder j created' hj
          rw [hfree] at hheld
          cases hheld
  | commit created =>
    right
    cases created with
    | none =>
      have hclosed := h.commit hi .readAnswer rfl s.openCodes
      rw [Option.map_none, Option.map_none, Option.toList_none, Option.getD_none,
        List.append_nil, List.append_nil] at hclosed
      exact hclosed
    | some created => exact h.commit hi .succeeded rfl _

theorem Closed.codes (h : Closed env proposal rooms computers s) (codes : List (Nat × String)) :
    Closed env proposal rooms computers { s with openCodes := codes } :=
  ⟨h.status, h.free, h.calls, h.once, h.outcome⟩

theorem Closed.setCall (h : Closed env proposal rooms computers s)
    (hdecided : call.decided = true → (s.calls i).decided = true)
    (hne : ∀ created, call ≠ .commit created) :
    Closed env proposal rooms computers (s.setCall i call) := by
  have hold : ∀ j, ((s.setCall i call).calls j).decided = true → (s.calls j).decided = true := by
    intro j hj
    rw [ProposalWorld.setCall_calls] at hj
    split_ifs at hj with hji
    · rw [hji]
      exact hdecided hj
    · exact hj
  refine ⟨h.status, h.free, fun j created hj => ?_,
    fun j k hj hk => h.once j k (hold j hj) (hold k hk), h.outcome⟩
  rw [ProposalWorld.setCall_calls] at hj
  split_ifs at hj
  · exact hne created hj
  · exact h.calls j created hj

theorem Closed.abort (h : Closed env proposal rooms computers s) (message : String) :
    Closed env proposal rooms computers (s.abort i message) ∧
      (s.abort i message).row = s.row := by
  have hrow : s.row.rollback i = s.row := by
    unfold LockedRow.rollback
    rw [h.free]
  unfold ProposalWorld.abort
  rw [hrow]
  exact ⟨(h.codes _).setCall nofun nofun, rfl⟩

theorem Closed.receive (h : Closed env proposal rooms computers s) (now : Nat)
    (request : ProposalRequest) :
    Closed env proposal rooms computers (s.receive i now request) ∧
      (s.receive i now request).row = s.row := by
  cases request with
  | reject reviewerId note =>
    unfold ProposalWorld.receive
    dsimp only
    split_ifs <;> exact ⟨h.setCall nofun nofun, rfl⟩
  | withdraw accountId =>
    unfold ProposalWorld.receive
    dsimp only
    split_ifs <;> exact ⟨h.setCall nofun nofun, rfl⟩
  | accept reviewerId dto => exact ⟨h.setCall nofun nofun, rfl⟩

theorem Closed.statement (h : Closed env proposal rooms computers s) {now : Nat}
    (hfind : s.FindsPending (i, .next now)) :
    Closed env proposal rooms computers (s.statement env i now (s.calls i)) ∧
      (s.statement env i now (s.calls i)).row = s.row := by
  unfold ProposalWorld.FindsPending at hfind
  cases hi : s.calls i with
  | idle | succeeded | failed => exact ⟨h, rfl⟩
  | readAnswer => exact ⟨h.setCall (fun _ => by rw [hi]; rfl) nofun, rfl⟩
  | readMachines reviewerId dto detail =>
    unfold ProposalWorld.statement
    dsimp only
    split_ifs <;> exact ⟨h.setCall nofun nofun, rfl⟩
  | findRoom reviewerId dto detail machines =>
    unfold ProposalWorld.statement
    dsimp only
    split_ifs <;> exact ⟨h.setCall nofun nofun, rfl⟩
  | insertRoom reviewerId dto detail machines =>
    unfold ProposalWorld.statement
    dsimp only
    split_ifs
    · exact ⟨h, rfl⟩
    · exact h.abort _
    · exact ⟨(h.codes _).setCall nofun nofun, rfl⟩
  | insertComputers reviewerId note created machines =>
    cases machines with
    | nil => exact ⟨h.setCall nofun nofun, rfl⟩
    | cons m machines =>
      unfold ProposalWorld.statement
      dsimp only
      split_ifs
      · exact h.abort _
      · exact ⟨h.setCall nofun nofun, rfl⟩
  | save created entity => exact ⟨h.setCall nofun nofun, rfl⟩
  | update created entity row =>
    rw [hi] at hfind
    exact absurd (hfind h.free) h.status
  | commit created => exact absurd hi (h.calls i created)

variable {m : Nat × ProposalMove}

theorem Open.move (h : Open env proposal rooms computers s)
    (hpending : proposal.status = .pending) :
    Open env proposal rooms computers (s.move env m) ∨
      Closed env proposal rooms computers (s.move env m) := by
  obtain ⟨i, m⟩ := m
  unfold ProposalWorld.move
  dsimp only
  split
  · exact Or.inl (h.receive hpending _ _)
  · exact Or.inl h
  · exact h.statement _
  · exact Or.inl h
  · exact Or.inl h
  · exact Or.inl (h.abort _)

theorem Closed.move (h : Closed env proposal rooms computers s) (hfind : s.FindsPending m) :
    Closed env proposal rooms computers (s.move env m) ∧ (s.move env m).row = s.row := by
  obtain ⟨i, m⟩ := m
  unfold ProposalWorld.move
  dsimp only
  split
  · exact h.receive _ _
  · exact ⟨h, rfl⟩
  · exact h.statement hfind
  · exact ⟨h, rfl⟩
  · exact ⟨h, rfl⟩
  · exact h.abort _

end Steps

/-! ## Every run -/

section Runs

variable {env : ProposalEnv} {proposal : RoomProposal} {rooms : List Room}
  {computers : List Computer} {s s' : ProposalWorld}

theorem open_start (env : ProposalEnv) (proposal : RoomProposal) (rooms : List Room)
    (computers : List Computer) :
    Open env proposal rooms computers (.start proposal rooms computers) :=
  ⟨rfl, rfl, rfl, fun _ => trivial, fun _ _ h => nomatch h⟩

theorem open_or_closed (hpending : proposal.status = .pending)
    (hs : Reach (ProposalWorld.move env) ProposalWorld.FindsPending
      (.start proposal rooms computers) s) :
    Open env proposal rooms computers s ∨ Closed env proposal rooms computers s := by
  refine hs.invariant (I := fun s => Open env proposal rooms computers s ∨
    Closed env proposal rooms computers s) (Or.inl (open_start ..)) fun s m h hfind => ?_
  rcases h with h | h
  · exact h.move hpending
  · exact Or.inr (h.move hfind).1

theorem closed_stays (h : Closed env proposal rooms computers s)
    (hs : Reach (ProposalWorld.move env) ProposalWorld.FindsPending s s') :
    Closed env proposal rooms computers s' ∧ s'.row = s.row := by
  refine hs.invariant (I := fun s' => Closed env proposal rooms computers s' ∧ s'.row = s.row)
    ⟨h, rfl⟩ fun t m ht hfind => ?_
  obtain ⟨hclosed, hrow⟩ := ht.1.move hfind
  exact ⟨hclosed, hrow.trans ht.2⟩

/-- One request at most is carried out, and the room and the computers are there for a
proposal that is accepted and for no other. -/
structure DecidedOnce (env : ProposalEnv) (proposal : RoomProposal) (rooms : List Room)
    (computers : List Computer) (s : ProposalWorld) : Prop where
  once : ∀ i j, (s.calls i).decided = true → (s.calls j).decided = true → i = j
  accepted : s.status = .accepted → ∃ room, (∃ i dto, room = newRoom (env.roomId i) dto proposal) ∧
    s.row.committed.createdRoomId = some room.id ∧ s.rooms = rooms ++ [room] ∧
    s.computers = computers ++ env.machines.map (newComputer room.id)
  others : s.status ≠ .accepted → s.rooms = rooms ∧ s.computers = computers

theorem Open.decidedOnce (h : Open env proposal rooms computers s)
    (hpending : proposal.status = .pending) : DecidedOnce env proposal rooms computers s where
  once := fun i _ hi => absurd hi (h.calls i).not_decided
  accepted := by
    intro haccepted
    unfold ProposalWorld.status at haccepted
    rw [h.row, hpending] at haccepted
    cases haccepted
  others := fun _ => ⟨h.rooms, h.computers⟩

theorem Closed.decidedOnce (h : Closed env proposal rooms computers s) :
    DecidedOnce env proposal rooms computers s := by
  obtain ⟨created, hdecides, hrooms, hcomputers⟩ := h.outcome
  refine ⟨h.once, fun haccepted => ?_, fun hothers => ?_⟩
  · cases created with
    | none =>
      have haccepted : s.row.committed.status = .accepted := haccepted
      rcases hdecides with hstatus | hstatus <;> rw [haccepted] at hstatus <;> cases hstatus
    | some created =>
      obtain ⟨_, hid, hmade⟩ := hdecides
      refine ⟨created.room, hmade.room, hid, hrooms, ?_⟩
      rw [hcomputers, ← hmade.computers, List.map_nil, List.append_nil]
      rfl
  · cases created with
    | none =>
      rw [hrooms, hcomputers]
      exact ⟨List.append_nil _, List.append_nil _⟩
    | some created => exact absurd hdecides.1 hothers

/-- Where every `UPDATE` finds the proposal pending, it is decided once, in any
interleaving of the statements. -/
theorem decided_once (hpending : proposal.status = .pending)
    (hs : Reach (ProposalWorld.move env) ProposalWorld.FindsPending
      (.start proposal rooms computers) s) :
    DecidedOnce env proposal rooms computers s ∧
      ∀ s', Reach (ProposalWorld.move env) ProposalWorld.FindsPending s s' →
        s.status ≠ .pending → s'.status = s.status := by
  rcases open_or_closed hpending hs with h | h
  · refine ⟨h.decidedOnce hpending, fun s' _ hstatus => absurd ?_ hstatus⟩
    unfold ProposalWorld.status
    rw [h.row]
    exact hpending
  · refine ⟨h.decidedOnce, fun s' hrun _ => ?_⟩
    unfold ProposalWorld.status
    rw [(closed_stays h hrun).2]

end Runs

/-! ## Two requests that read the same proposal -/

/-- A room of one machine. -/
def sentProposal : RoomProposal where
  status := .pending
  code := "A1"
  name := "A1"
  capacity := 1
  building := none
  floor := none
  proposedByAccountId := "t"
  note := none
  reviewedBy := none
  reviewedAt := none
  createdRoomId := none

def oneMachine : ProposalEnv where
  machines := [⟨"p1", "c", 8, "d", none, "o", "10.0.0.1", "m", .active⟩]
  roomId i := if i = 0 then "r0" else "r1"

def acceptAs (code : Option String) : ProposalRequest :=
  .accept "admin" ⟨code, none, none, none, none, none⟩

def runRequests (moves : List (Nat × ProposalMove)) : ProposalWorld :=
  moves.foldl (ProposalWorld.move oneMachine) (.start sentProposal [] [])

def statements (i n : Nat) : List (Nat × ProposalMove) :=
  List.replicate n (i, .next 5)

def acceptedRun : List (Nat × ProposalMove) :=
  (0, .request (acceptAs none) 5) :: statements 0 8

/-- A proposal is accepted, and stays so when a withdrawal comes later. -/
theorem accepted_once :
    (∃ room, (runRequests acceptedRun).rooms = [room]) ∧
      ((runRequests acceptedRun).move oneMachine (1, .request (.withdraw "t") 6)).status =
        .accepted := by
  have hrun : Reach (ProposalWorld.move oneMachine) ProposalWorld.FindsPending
      (.start sentProposal [] []) (runRequests acceptedRun) :=
    reach_foldl ⟨trivial, trivial, trivial, trivial, trivial, trivial, trivial, fun _ => rfl,
      trivial, trivial⟩
  have haccepted : (runRequests acceptedRun).status = .accepted := by decide
  obtain ⟨hdecided, hstays⟩ := decided_once rfl hrun
  obtain ⟨room, _, _, hrooms, _⟩ := hdecided.accepted haccepted
  have hnext : Reach (ProposalWorld.move oneMachine) ProposalWorld.FindsPending
      (runRequests acceptedRun)
      ((runRequests acceptedRun).move oneMachine (1, .request (.withdraw "t") 6)) :=
    .move (1, ProposalMove.request (.withdraw "t") 6) .start trivial
  refine ⟨⟨room, hrooms⟩, ?_⟩
  rw [hstays _ hnext (by rw [haccepted]; decide), haccepted]

/-- Two administrators accept the proposal under two codes. -/
def acceptedTwice : ProposalWorld :=
  runRequests ((0, .request (acceptAs none) 5) :: (1, .request (acceptAs (some "A2")) 5) ::
    statements 0 8 ++ statements 1 8)

def acceptedAndRejected : ProposalWorld :=
  runRequests ((0, .request (acceptAs none) 5) :: (1, .request (.reject "admin" none) 5) ::
    statements 0 8 ++ statements 1 4)

/-- Both requests succeed, with two rooms, or with a room of a rejected proposal. -/
theorem decided_twice :
    (acceptedTwice.calls 0 = .succeeded ∧ acceptedTwice.calls 1 = .succeeded ∧
      acceptedTwice.rooms.length = 2 ∧ acceptedTwice.computers.length = 2) ∧
    (acceptedAndRejected.calls 0 = .succeeded ∧ acceptedAndRejected.calls 1 = .succeeded ∧
      acceptedAndRejected.status = .rejected ∧
      acceptedAndRejected.row.committed.createdRoomId = none ∧
      acceptedAndRejected.rooms.length = 1) := by
  decide

end Cine.Ide
