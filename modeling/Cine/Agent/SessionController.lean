import Cine.Lib.Machine

/-!
# The agent's screen

The listeners of `connectSocket` in `session-controller.ts`, as they act on
the phase of the join and on what the agent sends, and the two tests that
`handleAgentJoin` makes on a message before it reads it.

`Room` is the agent and the server's end of its connection.  A message of
the server arrives only over an open connection; which message, and when
the connection opens and closes, is the choice of the environment.

There are three groups.

* The listeners.
* The connection, and what the server does with a join.
* `Law`, what an agent that has joined promises about one event, and the
  three messages that break it.
-/

namespace Cine.Agent.SessionController

open Cine.Lib

inductive ConnectionStatus
  | idle
  | connecting
  | connected
  | disconnected
  | connectError
  deriving DecidableEq

inductive JoinPhase
  | form
  | joining
  | joined
  | error
  | rateLimited
  | sessionNotActive
  | accessRequestForm
  | accessRequestPending
  | connectError
  deriving DecidableEq

/-- `AgentJoinErrorCode`.  The agent does not check the text that it gets. -/
inductive AgentJoinErrorCode
  | sessionNotFound
  | sessionNotActive
  | invalidInput
  | notEnrolled
  | rateLimited
  | unknown (code : String)
  deriving DecidableEq

inductive UiErrorCode
  | join (code : AgentJoinErrorCode)
  | accessDenied
  | accessRequestFailed
  deriving DecidableEq

structure JoinErrorState where
  code : UiErrorCode
  message : String
  retryUntil : Option Nat
  deriving DecidableEq

structure AgentJoinPayload where
  studentId : String
  sessionCode : String
  machineName : Option String
  deriving DecidableEq

structure RequiredDeliverable where
  id : String
  requiredFilename : String
  deriving DecidableEq

/-- What the listener keeps of an acknowledgement. -/
structure AgentJoinAck where
  examSessionId : Option String
  requiredDeliverables : List RequiredDeliverable
  studentName : Option String
  sessionName : Option String
  endTime : Option String

structure AgentJoinError where
  code : AgentJoinErrorCode
  message : Option String
  retryAfterMs : Option Nat

inductive CollectTrigger
  | finalize
  | recollect
  deriving DecidableEq

/-- What a listener sends or starts. -/
inductive AgentAction
  | join (payload : AgentJoinPayload)
  | ackRecollect
  | syncMaterials
  | upload (trigger : CollectTrigger)
  deriving DecidableEq

structure AgentState where
  connection : ConnectionStatus
  joinPhase : JoinPhase
  joinError : Option JoinErrorState
  studentName : Option String
  sessionName : Option String
  endTime : Option String
  examEnded : Bool
  hasJoinedOnce : Bool
  finalizing : Bool
  lastJoinPayload : Option AgentJoinPayload
  examSessionId : Option String
  requiredDeliverables : List RequiredDeliverable

/-! ## The listeners -/

def setJoinError (s : AgentState) (code : UiErrorCode) (message : String)
    (retryUntil : Option Nat) : AgentState :=
  { s with
    joinPhase := if code = .join .rateLimited then .rateLimited else .error
    joinError := some ⟨code, message, retryUntil⟩ }

def emitJoin (s : AgentState) : AgentState × List AgentAction :=
  match s.lastJoinPayload with
  | none => (s, [])
  | some payload => ({ s with joinPhase := .joining }, [.join payload])

def onConnect (s : AgentState) : AgentState × List AgentAction :=
  let s := { s with connection := .connected }
  if s.examEnded then (s, []) else emitJoin s

def onConnectError (s : AgentState) : AgentState :=
  { s with
    connection := .connectError
    joinPhase := if s.hasJoinedOnce then s.joinPhase else .connectError }

def onDisconnect (s : AgentState) : AgentState :=
  { s with connection := .disconnected }

/-- `doHandleJoinAck`, up to its first awaited call. -/
def handleJoinAck (s : AgentState) (ack : AgentJoinAck) : AgentState :=
  { s with
    hasJoinedOnce := true
    examSessionId := ack.examSessionId
    requiredDeliverables := ack.requiredDeliverables
    joinPhase := .joined
    joinError := none
    connection := .connected
    studentName := ack.studentName
    sessionName := ack.sessionName
    endTime := ack.endTime }

def noInformation : String := "(không có thông tin)"

def handleJoinError (s : AgentState) (now : Nat) (error : AgentJoinError) : AgentState :=
  if s.examEnded then s
  else
    let message := error.message.getD noInformation
    match error.code with
    | .notEnrolled => { s with joinPhase := .accessRequestForm }
    | .rateLimited =>
      setJoinError s (.join .rateLimited) message (some (now + error.retryAfterMs.getD 0))
    | .sessionNotActive =>
      { s with
        joinPhase := .sessionNotActive
        joinError := some ⟨.join .sessionNotActive, message, none⟩ }
    | code => setJoinError s (.join code) message none

/-- `collectAll`, up to the upload. -/
def collectAll (s : AgentState) (trigger : CollectTrigger) : AgentState × List AgentAction :=
  if s.finalizing then (s, [])
  else if s.requiredDeliverables.isEmpty || s.examSessionId.isNone then (s, [])
  else ({ s with finalizing := true }, [.upload trigger])

def handleFinalize (s : AgentState) : AgentState × List AgentAction :=
  collectAll { s with examEnded := true } .finalize

def handleRecollect (s : AgentState) : AgentState × List AgentAction :=
  let (s, actions) := collectAll s .recollect
  (s, .ackRecollect :: actions)

def handleMaterialsUpdated (s : AgentState) : List AgentAction :=
  if s.joinPhase = .joined then [.syncMaterials] else []

/-- The listener of `agent:access-granted`. -/
def onAccessGranted (s : AgentState) : AgentState × List AgentAction :=
  emitJoin { s with joinPhase := .joining }

def deniedMessage : String := "Giảng viên đã từ chối yêu cầu."

/-- The listener of `agent:access-denied`. -/
def onAccessDenied (s : AgentState) (message : Option String) : AgentState :=
  setJoinError s .accessDenied (message.getD deniedMessage) none

def invalidReply : String := "Server phản hồi không hợp lệ."

/-- A message of the server.  `none` is a body that is no plain object. -/
inductive ServerMessage
  | joinAck (ack : Option AgentJoinAck)
  | joinError (error : Option AgentJoinError)
  | finalize (valid : Bool)
  | recollect
  | materialsUpdated
  | accessGranted
  | accessDenied (message : Option String)

def onMessage (s : AgentState) (now : Nat) : ServerMessage → AgentState × List AgentAction
  | .joinAck none => (s, [])
  | .joinAck (some ack) => (handleJoinAck s ack, [])
  | .joinError none => (setJoinError s (.join .invalidInput) invalidReply none, [])
  | .joinError (some error) => (handleJoinError s now error, [])
  | .finalize false => (s, [])
  | .finalize true => handleFinalize s
  | .recollect => handleRecollect s
  | .materialsUpdated => (s, handleMaterialsUpdated s)
  | .accessGranted => onAccessGranted s
  | .accessDenied message => (onAccessDenied s message, [])

/-! ## The connection -/

/-- The server's end of a connection. -/
structure AgentSocket where
  /-- `client.data.examSessionId` is set. -/
  admitted : Bool
  /-- `agentJoinAttempts`, in milliseconds. -/
  attempts : List Nat
  deriving DecidableEq

def agentJoinRateLimit : Nat := 5

def agentJoinRateWindowMs : Nat := 60000

/-- What the server does with a join. -/
inductive JoinReaction
  | disconnects
  | ignores
  | answers
  deriving DecidableEq

def recentAttempts (attempts : List Nat) (now : Nat) : List Nat :=
  attempts.filter (fun timestamp => now < timestamp + agentJoinRateWindowMs) ++ [now]

/-- `isAgentJoinRateLimited` and the idempotency guard. -/
def joinReaction (socket : AgentSocket) (now : Nat) : JoinReaction :=
  if (recentAttempts socket.attempts now).length > agentJoinRateLimit then .disconnects
  else if socket.admitted then .ignores
  else .answers

/-- The agent, the server's end of its connection while one is open, and what
the server did with every join. -/
structure Room where
  agent : AgentState
  socket : Option AgentSocket
  joins : List JoinReaction

/-- A join reaches the server. -/
def Room.takeJoin (r : Room) (now : Nat) : Room :=
  match r.socket with
  | none => r
  | some socket =>
    let reaction := joinReaction socket now
    { r with
      socket := if reaction = .disconnects then none
        else some { socket with attempts := recentAttempts socket.attempts now }
      joins := r.joins ++ [reaction] }

def Room.takeAction (now : Nat) (r : Room) : AgentAction → Room
  | .join _ => r.takeJoin now
  | _ => r

/-- A listener has run. -/
def Room.ran (r : Room) (now : Nat) (outcome : AgentState × List AgentAction) : Room :=
  outcome.2.foldl (Room.takeAction now) { r with agent := outcome.1 }

inductive AgentEvent
  | connect
  | disconnect
  | connectError
  | message (message : ServerMessage)
  /-- An upload that was started has come to its end. -/
  | collected

structure Arrival where
  now : Nat
  event : AgentEvent

/-- The acknowledgement says that the server has written `client.data`. -/
def acknowledged (socket : AgentSocket) : ServerMessage → AgentSocket
  | .joinAck _ => { socket with admitted := true }
  | _ => socket

def step (r : Room) (a : Arrival) : Room :=
  match a.event with
  | .connect => { r with socket := some ⟨false, []⟩ }.ran a.now (onConnect r.agent)
  | .disconnect => { r with agent := onDisconnect r.agent, socket := none }
  | .connectError => { r with agent := onConnectError r.agent }
  | .collected => { r with agent := { r.agent with finalizing := false } }
  | .message message =>
    match r.socket with
    | none => r
    | some socket =>
      { r with socket := some (acknowledged socket message) }.ran a.now
        (onMessage r.agent a.now message)

/-- The agent while its first join is on its way. -/
def joining (payload : AgentJoinPayload) : AgentState :=
  ⟨.connected, .joining, none, none, none, none, false, false, false, some payload, none, []⟩

/-- The agent has joined: its first acknowledgement has arrived. -/
def joinedRoom (payload : AgentJoinPayload) (ack : AgentJoinAck) (attempts : List Nat) : Room :=
  ⟨handleJoinAck (joining payload) ack, some ⟨true, attempts⟩, [.answers]⟩

/-! ## What one event can do -/

/-- What an agent that has joined promises about one event. -/
structure Law (r : Room) (a : Arrival) : Prop where
  /-- After the exam it asks for nothing. -/
  silent : r.agent.examEnded = true → (step r a).joins = r.joins
  /-- After the exam it stays on the last screen. -/
  finished : r.agent.examEnded = true → r.agent.joinPhase = .joined →
    (step r a).agent.joinPhase = .joined
  /-- During the exam it waits only for what the server answers. -/
  answered : r.agent.examEnded = false → r.agent.joinPhase = .joined →
    (step r a).agent.joinPhase = .joining → (step r a).joins = r.joins ++ [.answers]

/-- A message whose listener goes to the error screen and does not ask whether
the exam is over. -/
def rejects : ServerMessage → Bool
  | .accessDenied _ => true
  | .joinError none => true
  | _ => false

/-- The messages of an open connection that keep the law: an approval before
the agent is in, a rejection while the agent is not finished. -/
def Allowed (r : Room) (a : Arrival) : Prop :=
  r.socket.isSome = true →
    match a.event with
    | .message .accessGranted => r.agent.examEnded = false ∧ r.agent.joinPhase ≠ .joined
    | .message message =>
      rejects message = true → ¬ (r.agent.examEnded = true ∧ r.agent.joinPhase = .joined)
    | _ => True

/-- What every event keeps.  An agent that is in the exam was acknowledged on
the connection it has. -/
structure Inv (r : Room) : Prop where
  once : r.agent.hasJoinedOnce = true
  payload : r.agent.lastJoinPayload.isSome = true
  admitted : r.agent.examEnded = false → r.agent.joinPhase = .joined →
    ∀ socket, r.socket = some socket → socket.admitted = true

theorem takeJoin_agent (r : Room) (now : Nat) : (r.takeJoin now).agent = r.agent := by
  unfold Room.takeJoin
  split <;> rfl

variable {r : Room} {socket : AgentSocket} {now : Nat} {message : ServerMessage} {s : AgentState}

theorem takeJoin_joins (hsocket : r.socket = some socket) (now : Nat) :
    (r.takeJoin now).joins = r.joins ++ [joinReaction socket now] := by
  unfold Room.takeJoin
  rw [hsocket]

theorem ran_of_quiet {outcome : AgentState × List AgentAction}
    (hquiet : ∀ payload, .join payload ∉ outcome.2) :
    r.ran now outcome = { r with agent := outcome.1 } := by
  unfold Room.ran
  obtain ⟨agent, actions⟩ := outcome
  dsimp only at hquiet ⊢
  generalize ({ r with agent } : Room) = room
  induction actions generalizing room with
  | nil => rfl
  | cons action actions ih =>
    have hstep : room.takeAction now action = room := by
      cases action with
      | join payload => exact absurd List.mem_cons_self (hquiet payload)
      | ackRecollect => rfl
      | syncMaterials => rfl
      | upload trigger => rfl
    rw [List.foldl_cons, hstep]
    exact ih (fun payload hmem => hquiet payload (List.mem_cons_of_mem _ hmem)) room

theorem collectAll_cases (s : AgentState) (trigger : CollectTrigger) :
    collectAll s trigger = (s, []) ∨
    collectAll s trigger = ({ s with finalizing := true }, [.upload trigger]) := by
  unfold collectAll
  split_ifs
  · exact .inl rfl
  · exact .inl rfl
  · exact .inr rfl

theorem collectAll_quiet (s : AgentState) (trigger : CollectTrigger)
    (payload : AgentJoinPayload) : .join payload ∉ (collectAll s trigger).2 := by
  rcases collectAll_cases s trigger with h | h <;> rw [h] <;> simp

theorem onMessage_quiet (s : AgentState) (now : Nat) (hother : message ≠ .accessGranted)
    (payload : AgentJoinPayload) : .join payload ∉ (onMessage s now message).2 := by
  fun_cases onMessage s now message
  case case6 => exact collectAll_quiet _ .finalize payload
  case case7 =>
    show AgentAction.join payload ∉ AgentAction.ackRecollect :: (collectAll s .recollect).2
    simpa using collectAll_quiet s .recollect payload
  case case8 =>
    unfold handleMaterialsUpdated
    split <;> simp
  case case9 => exact absurd rfl hother
  all_goals simp

theorem step_message (hsocket : r.socket = some socket) (now : Nat)
    (hother : message ≠ .accessGranted) :
    step r ⟨now, .message message⟩ =
      ⟨(onMessage r.agent now message).1, some (acknowledged socket message), r.joins⟩ := by
  unfold step
  dsimp only
  rw [hsocket]
  exact ran_of_quiet (onMessage_quiet r.agent now hother)

theorem step_message_closed (hsocket : r.socket = none) (now : Nat) (message : ServerMessage) :
    step r ⟨now, .message message⟩ = r := by
  unfold step
  dsimp only
  rw [hsocket]

theorem emitJoin_of_isSome (h : s.lastJoinPayload.isSome = true) :
    ∃ payload, emitJoin s = ({ s with joinPhase := .joining }, [.join payload]) := by
  obtain ⟨payload, hpayload⟩ := Option.isSome_iff_exists.1 h
  exact ⟨payload, by simp [emitJoin, hpayload]⟩

theorem step_accessGranted (hsocket : r.socket = some socket)
    (hpayload : r.agent.lastJoinPayload.isSome = true) (now : Nat) :
    step r ⟨now, .message .accessGranted⟩ =
      Room.takeJoin { r with agent := { r.agent with joinPhase := .joining } } now := by
  obtain ⟨payload, hemit⟩ := emitJoin_of_isSome (s := { r.agent with joinPhase := .joining })
    hpayload
  unfold step
  dsimp only [onMessage, onAccessGranted]
  rw [hsocket, hemit]
  dsimp only [Room.ran, List.foldl, Room.takeAction, acknowledged]

theorem onConnect_exam (hended : s.examEnded = false) :
    onConnect s = emitJoin { s with connection := .connected } := by
  simp [onConnect, hended]

theorem step_connect (hended : r.agent.examEnded = false)
    (hpayload : r.agent.lastJoinPayload.isSome = true) (now : Nat) :
    step r ⟨now, .connect⟩ = Room.takeJoin
      { r with
        agent := { r.agent with connection := .connected, joinPhase := .joining }
        socket := some ⟨false, []⟩ } now := by
  obtain ⟨payload, hemit⟩ := emitJoin_of_isSome (s := { r.agent with connection := .connected })
    hpayload
  show Room.ran { r with socket := some ⟨false, []⟩ } now (onConnect r.agent) = _
  rw [onConnect_exam hended, hemit]
  rfl

theorem step_connect_ended (hended : r.agent.examEnded = true) (now : Nat) :
    step r ⟨now, .connect⟩ =
      { r with
        agent := { r.agent with connection := .connected }
        socket := some ⟨false, []⟩ } := by
  unfold step
  dsimp only [onConnect]
  rw [hended]
  rfl

theorem joinReaction_first (now : Nat) : joinReaction ⟨false, []⟩ now = .answers := by
  rfl

theorem joinReaction_admitted (h : socket.admitted = true) (now : Nat) :
    joinReaction socket now ≠ .answers := by
  unfold joinReaction
  split_ifs with hlimited
  · simp
  · simp

/-- What a listener does to the controller's own flags, and that it does not
begin to wait. -/
structure Keeps (s s' : AgentState) : Prop where
  once : s.hasJoinedOnce = true → s'.hasJoinedOnce = true
  payload : s'.lastJoinPayload = s.lastJoinPayload
  ended : s.examEnded = true → s'.examEnded = true
  waiting : s.joinPhase = .joined → s'.joinPhase ≠ .joining

theorem Keeps.of_phase {s' : AgentState} (honce : s'.hasJoinedOnce = s.hasJoinedOnce)
    (hpayload : s'.lastJoinPayload = s.lastJoinPayload) (hended : s'.examEnded = s.examEnded)
    (hphase : s'.joinPhase = s.joinPhase ∨ s'.joinPhase ≠ .joining) : Keeps s s' := by
  refine ⟨fun h => honce.trans h, hpayload, fun h => hended.trans h, fun hjoined hjoining => ?_⟩
  rcases hphase with hphase | hphase
  · rw [hphase, hjoined] at hjoining
    cases hjoining
  · exact hphase hjoining

theorem setJoinError_phase (s : AgentState) (code : UiErrorCode) (message : String)
    (retryUntil : Option Nat) :
    (setJoinError s code message retryUntil).joinPhase ≠ .joining ∧
    (setJoinError s code message retryUntil).joinPhase ≠ .joined := by
  unfold setJoinError
  dsimp only
  split_ifs <;> simp

theorem setJoinError_keeps (s : AgentState) (code : UiErrorCode) (message : String)
    (retryUntil : Option Nat) : Keeps s (setJoinError s code message retryUntil) :=
  .of_phase rfl rfl rfl (.inr (setJoinError_phase s code message retryUntil).1)

theorem handleJoinError_keeps (s : AgentState) (now : Nat) (error : AgentJoinError) :
    Keeps s (handleJoinError s now error) := by
  unfold handleJoinError
  split
  · exact .of_phase rfl rfl rfl (.inl rfl)
  · dsimp only
    split
    · exact .of_phase rfl rfl rfl (.inr (by simp))
    · exact setJoinError_keeps s _ _ _
    · exact .of_phase rfl rfl rfl (.inr (by simp))
    · exact setJoinError_keeps s _ _ _

theorem collectAll_phase (s : AgentState) (trigger : CollectTrigger) :
    (collectAll s trigger).1.joinPhase = s.joinPhase := by
  rcases collectAll_cases s trigger with h | h <;> rw [h]

theorem collectAll_keeps (s : AgentState) (trigger : CollectTrigger) :
    Keeps s (collectAll s trigger).1 := by
  rcases collectAll_cases s trigger with h | h <;> rw [h] <;>
    exact .of_phase rfl rfl rfl (.inl rfl)

theorem handleFinalize_phase (s : AgentState) :
    (handleFinalize s).1.joinPhase = s.joinPhase :=
  collectAll_phase _ .finalize

theorem handleFinalize_keeps (s : AgentState) : Keeps s (handleFinalize s).1 := by
  have h := collectAll_keeps { s with examEnded := true } .finalize
  exact ⟨h.once, h.payload, fun _ => h.ended rfl, h.waiting⟩

theorem onMessage_keeps (s : AgentState) (now : Nat) (hother : message ≠ .accessGranted) :
    Keeps s (onMessage s now message).1 := by
  fun_cases onMessage s now message
  case case2 ack => exact ⟨fun _ => rfl, rfl, fun h => h, fun _ h => nomatch h⟩
  case case3 => exact setJoinError_keeps s _ _ _
  case case4 error => exact handleJoinError_keeps s now error
  case case6 => exact handleFinalize_keeps s
  case case7 => exact collectAll_keeps s .recollect
  case case9 => exact absurd rfl hother
  case case10 => exact setJoinError_keeps s _ _ _
  all_goals exact .of_phase rfl rfl rfl (.inl rfl)

theorem handleJoinError_joined {error : AgentJoinError}
    (h : (handleJoinError s now error).joinPhase = .joined) : s.joinPhase = .joined := by
  unfold handleJoinError at h
  split at h
  · exact h
  · dsimp only at h
    split at h
    · cases h
    · exact absurd h (setJoinError_phase s _ _ _).2
    · cases h
    · exact absurd h (setJoinError_phase s _ _ _).2

theorem joined_of_onMessage (hother : message ≠ .accessGranted)
    (h : (onMessage s now message).1.joinPhase = .joined) :
    s.joinPhase = .joined ∨ ∃ ack, message = .joinAck ack := by
  cases message with
  | joinAck ack => exact .inr ⟨ack, rfl⟩
  | joinError error =>
    cases error with
    | none => exact absurd h (setJoinError_phase s _ _ _).2
    | some error => exact .inl (handleJoinError_joined h)
  | finalize valid =>
    cases valid with
    | false => exact .inl h
    | true => exact .inl ((handleFinalize_phase s).symm.trans h)
  | recollect => exact .inl ((collectAll_phase s .recollect).symm.trans h)
  | materialsUpdated => exact .inl h
  | accessGranted => exact absurd rfl hother
  | accessDenied message => exact absurd h (setJoinError_phase s _ _ _).2

theorem onMessage_joined_iff (hended : s.examEnded = true) (hjoined : s.joinPhase = .joined)
    (now : Nat) (hother : message ≠ .accessGranted) :
    (onMessage s now message).1.joinPhase = .joined ↔ rejects message = false := by
  cases message with
  | joinAck ack =>
    cases ack with
    | none => exact iff_of_true hjoined rfl
    | some ack => exact iff_of_true rfl rfl
  | joinError error =>
    cases error with
    | none => exact iff_of_false (setJoinError_phase s _ _ _).2 nofun
    | some error =>
      have hsame : handleJoinError s now error = s := by simp [handleJoinError, hended]
      exact iff_of_true ((congrArg AgentState.joinPhase hsame).trans hjoined) rfl
  | finalize valid =>
    cases valid with
    | false => exact iff_of_true hjoined rfl
    | true => exact iff_of_true ((handleFinalize_phase s).trans hjoined) rfl
  | recollect => exact iff_of_true ((collectAll_phase s .recollect).trans hjoined) rfl
  | materialsUpdated => exact iff_of_true hjoined rfl
  | accessGranted => exact absurd rfl hother
  | accessDenied message =>
    exact iff_of_false (setJoinError_phase s _ _ _).2 nofun

/-! ## Runs -/

theorem inv_joinedRoom (payload : AgentJoinPayload) (ack : AgentJoinAck) (attempts : List Nat) :
    Inv (joinedRoom payload ack attempts) := by
  refine ⟨rfl, rfl, fun _ _ socket hsocket => ?_⟩
  cases hsocket
  rfl

theorem Inv.step (h : Inv r) (a : Arrival) : Inv (step r a) := by
  obtain ⟨now, event⟩ := a
  cases event with
  | disconnect => exact ⟨h.once, h.payload, fun _ _ _ hsocket => nomatch hsocket⟩
  | connectError =>
    refine ⟨h.once, h.payload, fun hended hjoined => h.admitted hended ?_⟩
    have hphase : (if r.agent.hasJoinedOnce = true then r.agent.joinPhase else .connectError) =
      .joined := hjoined
    rwa [if_pos h.once] at hphase
  | collected => exact ⟨h.once, h.payload, h.admitted⟩
  | connect =>
    cases hended : r.agent.examEnded with
    | true =>
      rw [step_connect_ended hended]
      exact ⟨h.once, h.payload, fun hexam => absurd (hended.symm.trans hexam) (by simp)⟩
    | false =>
      rw [step_connect hended h.payload]
      refine ⟨?_, ?_, ?_⟩ <;> rw [takeJoin_agent]
      · exact h.once
      · exact h.payload
      · exact fun _ hjoined => nomatch hjoined
  | message message =>
    cases hsocket : r.socket with
    | none =>
      rw [step_message_closed hsocket]
      exact h
    | some socket =>
      by_cases hgranted : message = .accessGranted
      · subst hgranted
        rw [step_accessGranted hsocket h.payload]
        refine ⟨?_, ?_, ?_⟩ <;> rw [takeJoin_agent]
        · exact h.once
        · exact h.payload
        · exact fun _ hjoined => nomatch hjoined
      · have hkeeps := onMessage_keeps r.agent now hgranted
        rw [step_message hsocket now hgranted]
        refine ⟨hkeeps.once h.once, ?_, ?_⟩
        · show (onMessage r.agent now message).1.lastJoinPayload.isSome = true
          rw [hkeeps.payload]
          exact h.payload
        · intro hended hjoined socket' hsocket'
          obtain rfl : acknowledged socket message = socket' := Option.some.inj hsocket'
          rcases joined_of_onMessage hgranted hjoined with hbefore | ⟨ack, rfl⟩
          · have hexam : r.agent.examEnded = false := by
              by_contra hover
              have := hkeeps.ended (by simpa using hover)
              exact absurd (hended.symm.trans this) (by simp)
            have hadmitted := h.admitted hexam hbefore socket hsocket
            unfold acknowledged
            split
            · rfl
            · exact hadmitted
          · rfl

theorem law_connect (h : Inv r) (now : Nat) : Law r ⟨now, .connect⟩ := by
  cases hended : r.agent.examEnded with
  | true =>
    have hstep := step_connect_ended hended now
    refine ⟨fun _ => ?_, fun _ hjoined => ?_, fun hexam => ?_⟩
    · rw [hstep]
    · rw [hstep]
      exact hjoined
    · exact absurd (hended.symm.trans hexam) (by simp)
  | false =>
    refine ⟨fun hover => absurd (hended.symm.trans hover) (by simp),
      fun hover => absurd (hended.symm.trans hover) (by simp), fun _ _ _ => ?_⟩
    rw [step_connect hended h.payload, takeJoin_joins rfl, joinReaction_first]

theorem law_accessGranted_iff (h : Inv r) (hsocket : r.socket = some socket) (now : Nat) :
    Law r ⟨now, .message .accessGranted⟩ ↔
      r.agent.examEnded = false ∧ r.agent.joinPhase ≠ .joined := by
  have hstep := step_accessGranted hsocket h.payload now
  have hjoins : (step r ⟨now, .message .accessGranted⟩).joins =
      r.joins ++ [joinReaction socket now] := by
    rw [hstep]
    exact takeJoin_joins (r := { r with agent := { r.agent with joinPhase := .joining } })
      hsocket now
  have hphase : (step r ⟨now, .message .accessGranted⟩).agent.joinPhase = .joining := by
    rw [hstep, takeJoin_agent]
  constructor
  · intro hlaw
    have hexam : r.agent.examEnded = false := by
      by_contra hover
      have hsilent := hlaw.silent (by simpa using hover)
      rw [hjoins] at hsilent
      simp at hsilent
    refine ⟨hexam, fun hjoined => ?_⟩
    have hanswered := hlaw.answered hexam hjoined hphase
    rw [hjoins] at hanswered
    exact joinReaction_admitted (h.admitted hexam hjoined socket hsocket) now
      (by simpa using hanswered)
  · intro ⟨hexam, houtside⟩
    exact ⟨fun hover => absurd (hexam.symm.trans hover) (by simp),
      fun _ hjoined => absurd hjoined houtside, fun _ hjoined => absurd hjoined houtside⟩

theorem law_message_iff (hsocket : r.socket = some socket) (now : Nat)
    (hother : message ≠ .accessGranted) :
    Law r ⟨now, .message message⟩ ↔
      (rejects message = true → ¬ (r.agent.examEnded = true ∧ r.agent.joinPhase = .joined)) := by
  have hstep := step_message hsocket now hother
  constructor
  · intro hlaw hrejects ⟨hended, hjoined⟩
    have hfinished := hlaw.finished hended hjoined
    rw [hstep] at hfinished
    have hquiet := (onMessage_joined_iff hended hjoined now hother).1 hfinished
    exact absurd (hrejects.symm.trans hquiet) (by simp)
  · intro hallowed
    refine ⟨fun _ => by rw [hstep], fun hended hjoined => ?_, fun _ hjoined hwaiting => ?_⟩
    · rw [hstep]
      refine (onMessage_joined_iff hended hjoined now hother).2 ?_
      by_contra hrejects
      exact hallowed (by simpa using hrejects) ⟨hended, hjoined⟩
    · rw [hstep] at hwaiting
      exact absurd hwaiting ((onMessage_keeps r.agent now hother).waiting hjoined)

theorem law_iff (h : Inv r) (a : Arrival) : Law r a ↔ Allowed r a := by
  obtain ⟨now, event⟩ := a
  cases event with
  | connect => exact iff_of_true (law_connect h now) fun _ => trivial
  | disconnect =>
    refine iff_of_true ⟨fun _ => rfl, fun _ hjoined => hjoined, fun _ hjoined hwaiting => ?_⟩
      fun _ => trivial
    have hphase : r.agent.joinPhase = .joining := hwaiting
    exact absurd (hjoined.symm.trans hphase) (by simp)
  | collected =>
    refine iff_of_true ⟨fun _ => rfl, fun _ hjoined => hjoined, fun _ hjoined hwaiting => ?_⟩
      fun _ => trivial
    have hphase : r.agent.joinPhase = .joining := hwaiting
    exact absurd (hjoined.symm.trans hphase) (by simp)
  | connectError =>
    have hphase : (step r ⟨now, .connectError⟩).agent.joinPhase = r.agent.joinPhase := by
      show (if r.agent.hasJoinedOnce = true then r.agent.joinPhase else .connectError) = _
      rw [if_pos h.once]
    refine iff_of_true ⟨fun _ => rfl, fun _ hjoined => hphase.trans hjoined,
      fun _ hjoined hwaiting => ?_⟩ fun _ => trivial
    exact absurd ((hphase.trans hjoined).symm.trans hwaiting) (by simp)
  | message message =>
    cases hsocket : r.socket with
    | none =>
      have hstep := step_message_closed hsocket now message
      refine iff_of_true ⟨fun _ => by rw [hstep], fun _ hjoined => by rw [hstep]; exact hjoined,
        fun _ hjoined hwaiting => ?_⟩ fun hopen => ?_
      · rw [hstep] at hwaiting
        exact absurd (hjoined.symm.trans hwaiting) (by simp)
      · rw [hsocket] at hopen
        cases hopen
    | some socket =>
      have hopen : r.socket.isSome = true := by rw [hsocket]; rfl
      by_cases hgranted : message = .accessGranted
      · subst hgranted
        rw [law_accessGranted_iff h hsocket now]
        exact ⟨fun hlaw _ => hlaw, fun hallowed => hallowed hopen⟩
      · rw [law_message_iff hsocket now hgranted]
        unfold Allowed
        cases message with
        | accessGranted => exact absurd rfl hgranted
        | _ => exact ⟨fun hlaw _ => hlaw, fun hallowed => hallowed hopen⟩

/-- Whatever the server sends to an agent that has joined, and however its
connection comes and goes: after the exam it asks for nothing and stays on the
last screen, and during the exam it never waits for an answer that does not
come, exactly when no approval arrives while it is in or after the exam, and
no rejection after the exam. -/
theorem allAllowed_law_iff (payload : AgentJoinPayload) (ack : AgentJoinAck)
    (attempts : List Nat) (events : List Arrival) :
    AllAllowed step Law (joinedRoom payload ack attempts) events ↔
      AllAllowed step Allowed (joinedRoom payload ack attempts) events :=
  allAllowed_congr (I := Inv) (fun _ a h => Inv.step h a) (fun _ a h => law_iff h a)
    (inv_joinedRoom payload ack attempts) events

def student : AgentJoinPayload := ⟨"SV20120001", "ABC123", none⟩

def firstAck : AgentJoinAck :=
  ⟨some "exam-1", [⟨"d1", "Cau1.docx"⟩], some "Nguyễn Văn A", some "Thi cuối kỳ", none⟩

/-- An approval that arrives while the agent is in makes it wait for an answer
that the server does not send, and after the exam it takes the agent off the
last screen. -/
theorem accessGranted_breaks_law :
    let r := joinedRoom student firstAck []
    let waiting := step r ⟨1000, .message .accessGranted⟩
    let finished := step r ⟨1000, .message (.finalize true)⟩
    let asked := step finished ⟨2000, .message .accessGranted⟩
    (waiting.agent.joinPhase = .joining ∧ waiting.joins = [.answers, .ignores]) ∧
    (finished.agent.joinPhase = .joined ∧ finished.joins = [.answers]) ∧
    (asked.agent.joinPhase = .joining ∧ asked.joins = [.answers, .ignores]) := by
  decide

end Cine.Agent.SessionController
