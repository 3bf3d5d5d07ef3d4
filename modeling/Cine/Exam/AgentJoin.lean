import Cine.Lib.Machine
import Cine.Lib.OrderedMap

/-!
# A socket that joins

`handleAgentJoin` and `handleDisconnect` of `exam-session.gateway.ts`, for
one socket.  Every message on the socket has a run of the handler of its
own, which stands at one of its awaited calls; what an awaited call answers,
and in which order the runs go on, is the choice of the environment.

The guard reads `client.data` when a message arrives, and the same handler
writes it five awaited calls later.  Between the two any number of messages
may pass the guard.

There are three groups.

* The handler, cut at its awaited calls.
* What one step can do: `resume_cases`.  A run of the handler that has
  written the identity and has not ended is `past`.
* Runs in which every run of the handler that writes the identity finds it
  unset.
-/

namespace Cine.Exam.AgentJoin

open Cine.Lib

structure AgentJoinDto where
  fullName : String
  studentId : String
  sessionCode : String
  machineName : Option String
  deriving DecidableEq

/-- What the handler uses of a session. -/
structure ExamSession where
  id : String
  name : String
  teacherId : String
  deriving DecidableEq

/-- What the handler uses of a row of the session's roster. -/
structure RosterEntry where
  studentName : String
  homeClassId : String
  homeTeacherId : Option String
  deriving DecidableEq

/-- `client.data`, once it is written. -/
structure SocketData where
  studentId : String
  examSessionId : String
  fullName : String
  homeClassId : String
  homeTeacherId : String
  machineName : Option String
  deriving DecidableEq

/-- What the handler writes to `client.data`. -/
def identityOf (dto : AgentJoinDto) (session : ExamSession) (enrollment : RosterEntry) :
    SocketData where
  studentId := dto.studentId
  examSessionId := session.id
  fullName := enrollment.studentName
  homeClassId := enrollment.homeClassId
  homeTeacherId := enrollment.homeTeacherId.getD session.teacherId
  machineName := dto.machineName

inductive AgentJoinErrorCode
  | sessionNotFound
  | sessionNotActive
  | invalidInput
  | notEnrolled
  | sessionNotOpen
  | rateLimited
  deriving DecidableEq

/-- What the socket is sent. -/
inductive AgentReply
  | error (code : AgentJoinErrorCode)
  | ack (examSessionId studentName : String)
  deriving DecidableEq

/-- `emitJoinFailure`.  The failure that tips the lock is answered with the
lock. -/
def joinFailure (tipped : Bool) (code : AgentJoinErrorCode) : AgentReply :=
  if tipped then .error .rateLimited else .error code

/-- The awaited call that a run of the handler stands at. -/
inductive JoinStep
  | validating (dto : AgentJoinDto)
  | findingSession (dto : AgentJoinDto)
  | checkingFrozen (dto : AgentJoinDto) (session : ExamSession)
  | findingEntry (dto : AgentJoinDto) (session : ExamSession)
  | listingDeliverables (dto : AgentJoinDto) (session : ExamSession) (enrollment : RosterEntry)
  | checkingBackup (data : SocketData)
  | listingMaterials (data : SocketData)
  | recordingJoin (data : SocketData)
  | finished
  deriving DecidableEq

/-- The socket: what stands on it, and what its runs have done. -/
structure JoinSocket where
  connected : Bool
  data : Option SocketData
  rooms : List String
  running : OrderedMap Nat JoinStep
  replies : List AgentReply
  /-- The joins that were recorded, with their session and student. -/
  recorded : List (String × String)
  /-- `lobby:student_joined`. -/
  announced : List (String × String)
  /-- `agent:disconnected`. -/
  departed : List (String × String)

def connectedSocket : JoinSocket := ⟨true, none, [], .empty, [], [], [], []⟩

/-! ## The handler -/

def JoinSocket.goTo (s : JoinSocket) (id : Nat) (at_ : JoinStep) : JoinSocket :=
  { s with running := s.running.set id at_ }

def JoinSocket.reply (s : JoinSocket) (reply : AgentReply) : JoinSocket :=
  { s with replies := s.replies ++ [reply] }

/-- A run that ends with an answer to the socket. -/
def JoinSocket.refuse (s : JoinSocket) (id : Nat) (reply : AgentReply) : JoinSocket :=
  (s.reply reply).goTo id .finished

/-- `handleDisconnect`. -/
def JoinSocket.leave (s : JoinSocket) : JoinSocket :=
  if s.connected then
    { s with
      connected := false
      departed := s.departed ++ (s.data.map fun d => (d.examSessionId, d.studentId)).toList }
  else s

/-- `client.data` is written and the agents' room of the session joined. -/
def JoinSocket.identify (s : JoinSocket) (data : SocketData) : JoinSocket :=
  { s with
    data := some data
    rooms := if data.examSessionId ∈ s.rooms then s.rooms else s.rooms ++ [data.examSessionId] }

/-- The end of a run: the acknowledgement, and the message to the lobby.
`logged` is whether `recordJoin` could write. -/
def JoinSocket.complete (s : JoinSocket) (data : SocketData) (logged : Bool) : JoinSocket :=
  { s with
    recorded :=
      if logged then s.recorded ++ [(data.examSessionId, data.studentId)] else s.recorded
    replies := s.replies ++ [.ack data.examSessionId data.fullName]
    announced := s.announced ++ [(data.examSessionId, data.studentId)] }

/-- The handler up to its first awaited call. -/
def JoinSocket.receive (s : JoinSocket) (id : Nat) (body : Option AgentJoinDto)
    (rateLimited locked tipped : Bool) : JoinSocket :=
  if !s.connected ∨ (s.running.get? id).isSome then s
  else if rateLimited then s.leave
  else if s.data.isSome then s
  else
    match body with
    | none => s.refuse id (joinFailure tipped .invalidInput)
    | some dto =>
      if locked then s.refuse id (.error .rateLimited) else s.goTo id (.validating dto)

/-- What an awaited call answers. -/
inductive Answer
  | valid
  | invalid (tipped : Bool)
  | noSession (tipped : Bool)
  | session (session : ExamSession) (joinable : Bool)
  | frozen (isFrozen : Bool)
  | entry (enrollment : Option RosterEntry)
  | settled
  | recorded (logged : Bool)
  | rejected
  deriving DecidableEq

/-- A run of the handler from one awaited call to the next. -/
def JoinSocket.resume (s : JoinSocket) (id : Nat) (answer : Answer) : JoinSocket :=
  match s.running.get? id, answer with
  | some (.validating dto), .valid => s.goTo id (.findingSession dto)
  | some (.validating _), .invalid tipped => s.refuse id (joinFailure tipped .invalidInput)
  | some (.findingSession _), .noSession tipped =>
    s.refuse id (joinFailure tipped .sessionNotFound)
  | some (.findingSession dto), .session session true => s.goTo id (.checkingFrozen dto session)
  | some (.findingSession _), .session _ false => s.refuse id (.error .sessionNotActive)
  | some (.checkingFrozen dto session), .frozen true => s.goTo id (.findingEntry dto session)
  | some (.checkingFrozen _ _), .frozen false => s.refuse id (.error .sessionNotOpen)
  | some (.findingEntry _ _), .entry none => s.refuse id (.error .notEnrolled)
  | some (.findingEntry dto session), .entry (some enrollment) =>
    s.goTo id (.listingDeliverables dto session enrollment)
  | some (.listingDeliverables dto session enrollment), .settled =>
    (s.identify (identityOf dto session enrollment)).goTo id
      (.checkingBackup (identityOf dto session enrollment))
  | some (.checkingBackup data), .settled => s.goTo id (.listingMaterials data)
  -- a storage that does not answer is caught
  | some (.checkingBackup data), .rejected => s.goTo id (.listingMaterials data)
  | some (.listingMaterials data), .settled => s.goTo id (.recordingJoin data)
  | some (.recordingJoin data), .recorded logged => (s.complete data logged).goTo id .finished
  | some (.recordingJoin _), _ => s
  | some .finished, _ => s
  | some _, .rejected => s.goTo id .finished
  | _, _ => s

inductive JoinEvent
  | message (id : Nat) (body : Option AgentJoinDto) (rateLimited locked tipped : Bool)
  | resume (id : Nat) (answer : Answer)
  | disconnect

def step (s : JoinSocket) : JoinEvent → JoinSocket
  | .message id body rateLimited locked tipped => s.receive id body rateLimited locked tipped
  | .resume id answer => s.resume id answer
  | .disconnect => s.leave

/-! ## What one step can do -/

/-- The run has written the identity and has not ended. -/
def JoinStep.past : JoinStep → Nat
  | .checkingBackup _ => 1
  | .listingMaterials _ => 1
  | .recordingJoin _ => 1
  | _ => 0

/-- The number of runs that are past. -/
def JoinSocket.past (s : JoinSocket) : Nat := (s.running.values.map JoinStep.past).sum

theorem past_goTo (s : JoinSocket) (id : Nat) (at_ : JoinStep) :
    (s.goTo id at_).past + ((s.running.get? id).map JoinStep.past).getD 0 = s.past + at_.past :=
  OrderedMap.sum_values_set s.running id at_ JoinStep.past

/-- Nothing that the socket is known by has changed, and no run has come past
the writing. -/
structure Quiet (s s' : JoinSocket) : Prop where
  data : s'.data = s.data
  rooms : s'.rooms = s.rooms
  recorded : s'.recorded = s.recorded
  announced : s'.announced = s.announced
  past : s'.past ≤ s.past

theorem Quiet.refl (s : JoinSocket) : Quiet s s := ⟨rfl, rfl, rfl, rfl, Nat.le_refl _⟩

theorem quiet_goTo (s : JoinSocket) (id : Nat) {at_ : JoinStep}
    (h : at_.past ≤ ((s.running.get? id).map JoinStep.past).getD 0) : Quiet s (s.goTo id at_) := by
  have hsum := past_goTo s id at_
  exact ⟨rfl, rfl, rfl, rfl, by omega⟩

theorem quiet_refuse (s : JoinSocket) (id : Nat) (reply : AgentReply) :
    Quiet s (s.refuse id reply) := by
  have hsum := past_goTo (s.reply reply) id .finished
  have hpast : (s.reply reply).past = s.past := rfl
  have hzero : JoinStep.past .finished = 0 := rfl
  refine ⟨rfl, rfl, rfl, rfl, ?_⟩
  show ((s.reply reply).goTo id .finished).past ≤ s.past
  omega

theorem quiet_leave (s : JoinSocket) : Quiet s s.leave := by
  unfold JoinSocket.leave
  split_ifs
  · exact ⟨rfl, rfl, rfl, rfl, Nat.le_refl _⟩
  · exact .refl s

theorem quiet_receive (s : JoinSocket) (id : Nat) (body : Option AgentJoinDto)
    (rateLimited locked tipped : Bool) : Quiet s (s.receive id body rateLimited locked tipped) := by
  unfold JoinSocket.receive
  cases body with
  | none =>
    dsimp only
    split_ifs
    · exact .refl s
    · exact quiet_leave s
    · exact .refl s
    · exact quiet_refuse s id _
  | some dto =>
    dsimp only
    split_ifs
    · exact .refl s
    · exact quiet_leave s
    · exact .refl s
    · exact quiet_refuse s id _
    · exact quiet_goTo s id (Nat.zero_le _)

theorem resume_cases (s : JoinSocket) (id : Nat) (answer : Answer) :
    (∃ dto session enrollment,
      s.running.get? id = some (.listingDeliverables dto session enrollment) ∧
        answer = .settled ∧
        s.resume id answer = (s.identify (identityOf dto session enrollment)).goTo id
          (.checkingBackup (identityOf dto session enrollment))) ∨
      (∃ data logged, s.running.get? id = some (.recordingJoin data) ∧
        s.resume id answer = (s.complete data logged).goTo id .finished) ∨
      Quiet s (s.resume id answer) := by
  unfold JoinSocket.resume
  split
  case h_10 dto session enrollment hget => exact .inl ⟨dto, session, enrollment, hget, rfl, rfl⟩
  case h_14 data logged hget => exact .inr (.inl ⟨data, logged, hget, rfl⟩)
  case h_11 hget => exact .inr (.inr (quiet_goTo s id (by rw [hget]; exact Nat.le_refl _)))
  case h_12 hget => exact .inr (.inr (quiet_goTo s id (by rw [hget]; exact Nat.le_refl _)))
  case h_13 hget => exact .inr (.inr (quiet_goTo s id (by rw [hget]; exact Nat.le_refl _)))
  all_goals
    first
    | exact .inr (.inr (.refl s))
    | exact .inr (.inr (quiet_refuse s id _))
    | exact .inr (.inr (quiet_goTo s id (Nat.zero_le _)))

/-! ## Runs -/

/-- The condition on one step: a run that is about to write the identity finds
it unset. -/
def Allowed (s : JoinSocket) : JoinEvent → Prop
  | .resume id .settled =>
    match s.running.get? id with
    | some (.listingDeliverables _ _ _) => s.data = none
    | _ => True
  | _ => True

instance (s : JoinSocket) (event : JoinEvent) : Decidable (Allowed s event) := by
  unfold Allowed
  split
  · split <;> infer_instance
  · infer_instance

/-- The socket is in the room of one session only, and at most one join is
recorded and announced for it. -/
structure JoinsOnce (s : JoinSocket) : Prop where
  room : ∀ r ∈ s.rooms, ∃ d, s.data = some d ∧ r = d.examSessionId
  recorded : s.recorded.length ≤ 1
  announced : s.announced.length ≤ 1

/-- The invariant: before the identity is written nothing has come of any run;
after it there is one room, and a join that is not announced yet is that of
the one run that is past. -/
def Inv (s : JoinSocket) : Prop :=
  match s.data with
  | none => s.rooms = [] ∧ s.recorded.length + s.announced.length + s.past = 0
  | some d => s.rooms = [d.examSessionId] ∧ s.recorded.length + s.past ≤ 1 ∧
      s.announced.length + s.past ≤ 1

theorem inv_connected : Inv connectedSocket := ⟨rfl, rfl⟩

variable {s : JoinSocket}

theorem Inv.joinsOnce (h : Inv s) : JoinsOnce s := by
  unfold Inv at h
  cases hdata : s.data with
  | none =>
    rw [hdata] at h
    obtain ⟨hrooms, hzero⟩ := h
    refine ⟨fun r hr => ?_, by omega, by omega⟩
    rw [hrooms] at hr
    exact nomatch hr
  | some d =>
    rw [hdata] at h
    obtain ⟨hrooms, hrecorded, hannounced⟩ := h
    refine ⟨fun r hr => ⟨d, hdata, ?_⟩, by omega, by omega⟩
    rw [hrooms] at hr
    exact List.mem_singleton.1 hr

theorem Inv.quiet {s' : JoinSocket} (h : Inv s) (hq : Quiet s s') : Inv s' := by
  have hpast := hq.past
  unfold Inv at h ⊢
  rw [hq.data, hq.rooms, hq.recorded, hq.announced]
  cases hdata : s.data with
  | none =>
    rw [hdata] at h
    obtain ⟨hrooms, hzero⟩ := h
    exact ⟨hrooms, by omega⟩
  | some d =>
    rw [hdata] at h
    obtain ⟨hrooms, hrecorded, hannounced⟩ := h
    exact ⟨hrooms, by omega, by omega⟩

theorem Inv.identify {id : Nat} {dto : AgentJoinDto} {session : ExamSession}
    {enrollment : RosterEntry} (h : Inv s) (hunset : s.data = none)
    (hat : s.running.get? id = some (.listingDeliverables dto session enrollment)) (d : SocketData) :
    Inv ((s.identify d).goTo id (.checkingBackup d)) := by
  have hsum := past_goTo (s.identify d) id (.checkingBackup d)
  have hsame : (s.identify d).past = s.past := rfl
  have hweight : (((s.identify d).running.get? id).map JoinStep.past).getD 0 = 0 := by
    show ((s.running.get? id).map JoinStep.past).getD 0 = 0
    rw [hat]
    rfl
  have hone : JoinStep.past (.checkingBackup d) = 1 := rfl
  unfold Inv at h
  rw [hunset] at h
  obtain ⟨hrooms, hzero⟩ := h
  refine ⟨?_, ?_, ?_⟩
  · show (if d.examSessionId ∈ s.rooms then s.rooms else s.rooms ++ [d.examSessionId]) = _
    rw [hrooms]
    rfl
  · show s.recorded.length + ((s.identify d).goTo id (.checkingBackup d)).past ≤ 1
    omega
  · show s.announced.length + ((s.identify d).goTo id (.checkingBackup d)).past ≤ 1
    omega

theorem Inv.complete {id : Nat} {data : SocketData} (h : Inv s)
    (hat : s.running.get? id = some (.recordingJoin data)) (logged : Bool) :
    Inv ((s.complete data logged).goTo id .finished) := by
  have hsum := past_goTo (s.complete data logged) id .finished
  have hsame : (s.complete data logged).past = s.past := rfl
  have hweight : (((s.complete data logged).running.get? id).map JoinStep.past).getD 0 = 1 := by
    show ((s.running.get? id).map JoinStep.past).getD 0 = 1
    rw [hat]
    rfl
  have hzero : JoinStep.past .finished = 0 := rfl
  have hrecorded : (s.complete data logged).recorded.length ≤ s.recorded.length + 1 := by
    cases logged
    · exact Nat.le_succ _
    · exact Nat.le_of_eq (List.length_append)
  have hannounced : (s.complete data logged).announced.length = s.announced.length + 1 :=
    List.length_append
  unfold Inv at h ⊢
  show match s.data with
    | none => _
    | some d => _
  cases hdata : s.data with
  | none =>
    rw [hdata] at h
    obtain ⟨-, hnone⟩ := h
    omega
  | some d =>
    rw [hdata] at h
    obtain ⟨hrooms, hrec, hann⟩ := h
    refine ⟨hrooms, ?_, ?_⟩
    · show (s.complete data logged).recorded.length + _ ≤ 1
      omega
    · show (s.complete data logged).announced.length + _ ≤ 1
      omega

theorem step_inv {event : JoinEvent} (h : Inv s) (hallowed : Allowed s event) :
    Inv (step s event) ∧ ∀ d, s.data = some d → (step s event).data = some d := by
  have hquiet : ∀ {s'}, Quiet s s' → Inv s' ∧ ∀ d, s.data = some d → s'.data = some d :=
    fun hq => ⟨h.quiet hq, fun d hd => hq.data.trans hd⟩
  cases event with
  | message id body rateLimited locked tipped =>
    exact hquiet (quiet_receive s id body rateLimited locked tipped)
  | disconnect => exact hquiet (quiet_leave s)
  | resume id answer =>
    show Inv (s.resume id answer) ∧ ∀ d, s.data = some d → (s.resume id answer).data = some d
    rcases resume_cases s id answer with ⟨dto, session, enrollment, hat, rfl, hrun⟩ |
      ⟨data, logged, hat, hrun⟩ | hq
    · have hunset : s.data = none := by
        have hmatch : (match s.running.get? id with
            | some (.listingDeliverables _ _ _) => s.data = none
            | _ => True) := hallowed
        rw [hat] at hmatch
        exact hmatch
      rw [hrun]
      refine ⟨h.identify hunset hat _, fun d hd => ?_⟩
      rw [hunset] at hd
      cases hd
    · rw [hrun]
      exact ⟨h.complete hat logged, fun d hd => hd⟩
    · exact hquiet hq

theorem inv_reach (h : Reach step Allowed connectedSocket s) : Inv s :=
  h.invariant inv_connected fun _ _ hinv hallowed => (step_inv hinv hallowed).1

/-- In every run whose steps meet the condition: the socket is in one room, one
join at most is recorded and announced for it, and its identity never changes
once it is set. -/
theorem socket_joins_once {s : JoinSocket} (h : Reach step Allowed connectedSocket s) :
    JoinsOnce s ∧ ∀ t, Reach step Allowed s t → ∀ d, s.data = some d → t.data = some d := by
  refine ⟨(inv_reach h).joinsOnce, fun t ht d hd => ?_⟩
  have hkept : Inv t ∧ t.data = some d :=
    ht.invariant (I := fun u => Inv u ∧ u.data = some d) ⟨inv_reach h, hd⟩
      fun _ _ hu hallowed =>
        ⟨(step_inv hu.1 hallowed).1, (step_inv hu.1 hallowed).2 d hu.2⟩
  exact hkept.2

private def dto (studentId : String) : AgentJoinDto := ⟨"Lê An", studentId, "ABC123", some "PC-07"⟩

private def session : ExamSession := ⟨"s1", "Thi cuối kỳ", "t1"⟩

/-- A run of the handler from its message to its end. -/
private def wholeRun (id : Nat) (studentId : String) : List JoinEvent :=
  [.message id (some (dto studentId)) false false false, .resume id .valid,
    .resume id (.session session true), .resume id (.frozen true),
    .resume id (.entry (some ⟨"Lê An", "c1", none⟩)), .resume id .settled, .resume id .settled,
    .resume id .settled, .resume id (.recorded true)]

theorem two_messages_one_join :
    JoinsOnce ((wholeRun 0 "B1" ++ wholeRun 1 "B2").foldl step connectedSocket) ∧
      ∀ t, Reach step Allowed ((wholeRun 0 "B1" ++ wholeRun 1 "B2").foldl step connectedSocket) t →
        ∀ d, ((wholeRun 0 "B1" ++ wholeRun 1 "B2").foldl step connectedSocket).data = some d →
          t.data = some d :=
  socket_joins_once (reach_foldl (by decide))

/-- Both messages pass the guard before either run has written the identity. -/
private def bothPass : List JoinEvent :=
  (wholeRun 0 "B1").take 1 ++ wholeRun 1 "B2" ++ (wholeRun 0 "B1").drop 1

/-- Two messages in flight: the socket is first one student and then another,
and two joins are announced. -/
theorem two_in_flight_join_twice : ¬ ∀ s, Reach step (fun _ _ => True) connectedSocket s →
    JoinsOnce s ∧ ∀ t, Reach step (fun _ _ => True) s t →
      ∀ d, s.data = some d → t.data = some d := by
  intro h
  have hall : AllAllowed step (fun _ _ => True) connectedSocket bothPass := by decide
  have htwice := (h _ (reach_foldl hall)).1.announced
  revert htwice
  decide

end Cine.Exam.AgentJoin
