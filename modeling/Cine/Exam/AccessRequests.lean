import Cine.Lib.Machine
import Cine.Lib.OrderedMap

/-!
# A request for access that is decided

`handleResolve` and `handleDisconnect` of `access-request.gateway.ts`, for
one request of `AccessRequestStore`.  Any number of sockets of the owner may
send a decision; every message has a run of the handler of its own, cut at
its awaited calls, and the environment chooses what these answer and in
which order the runs go on.

A run looks the request up once, at its beginning.  A denial takes effect
after two awaited calls, a grant after six, and neither looks again.

There are three groups.

* The handler, cut at its awaited calls.
* What one step can do: it denies, enters the student, records the grant, or
  is `Quiet`.  `Allowed` is the test before each of the three that the
  handler does not make.
* Runs of any length.
-/

namespace Cine.Exam.AccessRequests

open Cine.Lib

/-- `ResolveAccessRequestDto`, about the one request. -/
structure ResolveDto where
  approve : Bool
  homeClassId : Option String
  deriving DecidableEq

structure HomeClass where
  id : String
  teacherId : Option String
  deriving DecidableEq

/-- The row that an approval writes for the student. -/
structure ManualEntry where
  homeClassId : String
  homeTeacherId : String
  deriving DecidableEq

/-- `exam_session.access_granted` in the audit log. -/
structure GrantRecord where
  actorId : String
  homeClassId : String
  deriving DecidableEq

inductive AccessErrorCode
  | sessionNotFound
  | invalidInput
  | requestNotFound
  | unauthorized
  | forbidden
  | classRequired
  deriving DecidableEq

inductive ResolveAck
  | ok
  | fail (code : AccessErrorCode)
  deriving DecidableEq

/-- What the asking socket is told. -/
inductive Decision
  | denied
  | granted
  deriving DecidableEq

/-- The awaited call that a run of the handler stands at. -/
inductive ResolveStep
  | validating (dto : ResolveDto)
  | authenticating (dto : ResolveDto)
  | findingSession (dto : ResolveDto) (actorId : String)
  | findingClass (actorId : String)
  | enrolling (actorId : String) (entry : ManualEntry)
  | addingToRoster (actorId : String) (entry : ManualEntry)
  | auditing (actorId : String) (entry : ManualEntry)
  | finished
  deriving DecidableEq

/-- The request, and what its runs have done. -/
structure AccessRequest where
  pending : Bool
  /-- The asking socket is open. -/
  connected : Bool
  running : OrderedMap Nat ResolveStep
  acks : List (Nat × ResolveAck)
  received : List Decision
  /-- A denial has taken effect. -/
  denied : Bool
  enrolled : List ManualEntry
  /-- The row of the student in the session's roster. -/
  roster : Option ManualEntry
  audit : List GrantRecord

/-- A request that was created: nobody has decided, and the student is not on
the roster. -/
def created : AccessRequest := ⟨true, true, .empty, [], [], false, [], none, []⟩

/-! ## The handler -/

def AccessRequest.goTo (s : AccessRequest) (id : Nat) (at_ : ResolveStep) : AccessRequest :=
  { s with running := s.running.set id at_ }

/-- A run that returns. -/
def AccessRequest.answer (s : AccessRequest) (id : Nat) (ack : ResolveAck) : AccessRequest :=
  { s with
    running := s.running.set id .finished
    acks := s.acks ++ [(id, ack)] }

/-- A message to the asking socket.  After the socket has closed nobody gets
it. -/
def AccessRequest.tell (s : AccessRequest) (decision : Decision) : List Decision :=
  if s.connected then s.received ++ [decision] else s.received

def AccessRequest.deny (s : AccessRequest) : AccessRequest :=
  { s with
    pending := false
    denied := true
    received := s.tell .denied }

/-- `ensureManual`.  A row that is there already stays. -/
def AccessRequest.ensureManual (s : AccessRequest) (entry : ManualEntry) : AccessRequest :=
  { s with roster := s.roster.or (some entry) }

/-- The end of an approval. -/
def AccessRequest.grant (s : AccessRequest) (record : GrantRecord) : AccessRequest :=
  { s with
    audit := s.audit ++ [record]
    pending := false
    received := s.tell .granted }

/-- What an awaited call answers. -/
inductive Answer
  | valid (ok : Bool)
  | actor (actorId : Option String)
  | ownSession
  | forbidden
  | noSession
  | homeClass (homeClass : Option HomeClass)
  | settled
  | rejected
  deriving DecidableEq

/-- The handler behind the lookup of the session. -/
def AccessRequest.decide (s : AccessRequest) (id : Nat) (dto : ResolveDto) (actorId : String) :
    AccessRequest :=
  if !dto.approve then s.deny.answer id .ok
  else if dto.homeClassId.isNone then s.answer id (.fail .classRequired)
  else s.goTo id (.findingClass actorId)

/-- A class that a submission can be routed to. -/
def HomeClass.entry (homeClass : HomeClass) : Option ManualEntry :=
  homeClass.teacherId.map fun teacherId => ⟨homeClass.id, teacherId⟩

/-- A run of the handler from one awaited call to the next. -/
def AccessRequest.resume (s : AccessRequest) (id : Nat) (answer : Answer) : AccessRequest :=
  match s.running.get? id, answer with
  | some (.validating _), .valid false => s.answer id (.fail .invalidInput)
  | some (.validating dto), .valid true =>
    if s.pending then s.goTo id (.authenticating dto)
    else s.answer id (.fail .requestNotFound)
  | some (.authenticating _), .actor none => s.answer id (.fail .unauthorized)
  | some (.authenticating dto), .actor (some actorId) => s.goTo id (.findingSession dto actorId)
  | some (.findingSession _ _), .forbidden => s.answer id (.fail .forbidden)
  | some (.findingSession _ _), .noSession => s.answer id (.fail .sessionNotFound)
  | some (.findingSession dto actorId), .ownSession => s.decide id dto actorId
  | some (.findingClass actorId), .homeClass homeClass =>
    match homeClass.bind HomeClass.entry with
    | none => s.answer id (.fail .classRequired)
    | some entry => s.goTo id (.enrolling actorId entry)
  | some (.enrolling actorId entry), .settled =>
    { s with enrolled := s.enrolled ++ [entry] }.goTo id (.addingToRoster actorId entry)
  | some (.addingToRoster actorId entry), .settled =>
    (s.ensureManual entry).goTo id (.auditing actorId entry)
  | some (.auditing actorId entry), .settled =>
    (s.grant ⟨actorId, entry.homeClassId⟩).answer id .ok
  | some .finished, _ => s
  | some _, .rejected => s.goTo id .finished
  | _, _ => s

/-- `handleDisconnect`, of the asking socket. -/
def AccessRequest.disconnect (s : AccessRequest) : AccessRequest :=
  { s with
    connected := false
    pending := false }

inductive ResolveEvent
  /-- A decision arrives.  What is no plain object is answered at once. -/
  | message (id : Nat) (body : Option ResolveDto)
  | resume (id : Nat) (answer : Answer)
  | disconnect

def step (s : AccessRequest) : ResolveEvent → AccessRequest
  | .message id body =>
    match s.running.get? id, body with
    | some _, _ => s
    | none, none => s.answer id (.fail .invalidInput)
    | none, some dto => s.goTo id (.validating dto)
  | .resume id answer => s.resume id answer
  | .disconnect => s.disconnect

/-! ## What one step can do -/

/-- At most one decision has taken effect. -/
structure DecidedOnce (s : AccessRequest) : Prop where
  told : ¬ (.denied ∈ s.received ∧ .granted ∈ s.received)
  audit : s.audit.length ≤ 1
  roster : s.denied = true → s.roster = none

/-- What every step keeps: an approval that is being recorded has entered the
student, and what the student was told has happened. -/
structure Inv (s : AccessRequest) : Prop where
  auditing : ∀ id actorId entry, s.running.get? id = some (.auditing actorId entry) →
    s.roster.isSome = true
  granted : .granted ∈ s.received → s.roster.isSome = true
  denied : .denied ∈ s.received → s.denied = true

/-- Nothing but the runs and their answers has changed, and no run has come to
the audit log. -/
structure Quiet (s s' : AccessRequest) : Prop where
  received : s'.received = s.received
  denied : s'.denied = s.denied
  roster : s'.roster = s.roster
  audit : s'.audit = s.audit
  auditing : ∀ id actorId entry, s'.running.get? id = some (.auditing actorId entry) →
    s.running.get? id = some (.auditing actorId entry)

theorem Quiet.refl (s : AccessRequest) : Quiet s s :=
  ⟨rfl, rfl, rfl, rfl, fun _ _ _ h => h⟩

variable {at_ : ResolveStep} {s s' : AccessRequest}

theorem quiet_of_running {id : Nat} (hreceived : s'.received = s.received)
    (hdenied : s'.denied = s.denied) (hroster : s'.roster = s.roster) (haudit : s'.audit = s.audit)
    (hrunning : s'.running = s.running.set id at_)
    (hat : ∀ actorId entry, at_ ≠ .auditing actorId entry) : Quiet s s' := by
  refine ⟨hreceived, hdenied, hroster, haudit, fun other actorId entry h => ?_⟩
  rw [hrunning, OrderedMap.get?_set] at h
  split_ifs at h
  · exact absurd (Option.some.inj h) (hat actorId entry)
  · exact h

theorem quiet_goTo (s : AccessRequest) (id : Nat)
    (hat : ∀ actorId entry, at_ ≠ .auditing actorId entry) : Quiet s (s.goTo id at_) :=
  quiet_of_running rfl rfl rfl rfl rfl hat

theorem quiet_answer (s : AccessRequest) (id : Nat) (ack : ResolveAck) :
    Quiet s (s.answer id ack) :=
  quiet_of_running rfl rfl rfl rfl rfl fun _ _ h => nomatch h

theorem Inv.quiet (h : Inv s) (hq : Quiet s s') : Inv s' := by
  refine ⟨fun id actorId entry hat => ?_, ?_, ?_⟩
  · rw [hq.roster]
    exact h.auditing id actorId entry (hq.auditing id actorId entry hat)
  · rw [hq.roster, hq.received]
    exact h.granted
  · rw [hq.denied, hq.received]
    exact h.denied

theorem DecidedOnce.quiet_iff (hq : Quiet s s') : DecidedOnce s' ↔ DecidedOnce s := by
  constructor <;> intro h <;> refine ⟨?_, ?_, ?_⟩
  · rw [← hq.received]
    exact h.told
  · rw [← hq.audit]
    exact h.audit
  · rw [← hq.denied, ← hq.roster]
    exact h.roster
  · rw [hq.received]
    exact h.told
  · rw [hq.audit]
    exact h.audit
  · rw [hq.denied, hq.roster]
    exact h.roster

/-- A run that is about to take effect. -/
inductive Effect
  | deny
  | enter
  | record

def effect (s : AccessRequest) : ResolveEvent → Option Effect
  | .resume id answer =>
    match s.running.get? id, answer with
    | some (.findingSession dto _), .ownSession => if dto.approve then none else some .deny
    | some (.addingToRoster _ _), .settled => some .enter
    | some (.auditing _ _), .settled => some .record
    | _, _ => none
  | _ => none

/-- What an effect has to find, for the request not to be decided otherwise. -/
def Undecided (s : AccessRequest) : Option Effect → Prop
  | some .deny => s.roster = none
  | some .enter => s.denied = false
  | some .record => s.audit = []
  | none => True

/-- The condition on a step. -/
def Allowed (s : AccessRequest) (event : ResolveEvent) : Prop :=
  Undecided s (effect s event)

/-- What a step does: it denies, enters the student, records the grant, or is
quiet. -/
inductive Moves (s s' : AccessRequest) : Option Effect → Prop
  | deny (id : Nat) : s' = s.deny.answer id .ok → Moves s s' (some .deny)
  | enter (id : Nat) (actorId : String) (entry : ManualEntry) :
    s' = (s.ensureManual entry).goTo id (.auditing actorId entry) → Moves s s' (some .enter)
  | record (id : Nat) (actorId : String) (entry : ManualEntry) :
    s.running.get? id = some (.auditing actorId entry) →
    s' = (s.grant ⟨actorId, entry.homeClassId⟩).answer id .ok → Moves s s' (some .record)
  | quiet : Quiet s s' → Moves s s' none

theorem moves_goTo {event : ResolveEvent} (heffect : effect s event = none) (id : Nat)
    (hat : ∀ actorId entry, at_ ≠ .auditing actorId entry) :
    Moves s (s.goTo id at_) (effect s event) := by
  rw [heffect]
  exact .quiet (quiet_goTo s id hat)

theorem moves_answer {event : ResolveEvent} (heffect : effect s event = none) (id : Nat)
    (ack : ResolveAck) : Moves s (s.answer id ack) (effect s event) := by
  rw [heffect]
  exact .quiet (quiet_answer s id ack)

theorem decide_moves {id : Nat} {dto : ResolveDto} {actorId : String}
    (hat : s.running.get? id = some (.findingSession dto actorId)) :
    Moves s (s.decide id dto actorId) (effect s (.resume id .ownSession)) := by
  have heffect : effect s (.resume id .ownSession) =
      if dto.approve then none else some .deny := by simp [effect, hat]
  unfold AccessRequest.decide
  cases happrove : dto.approve with
  | false =>
    rw [heffect, happrove]
    exact .deny id rfl
  | true =>
    rw [happrove] at heffect
    simp only [Bool.not_true, Bool.false_eq_true, if_false]
    split
    · exact moves_answer heffect id _
    · exact moves_goTo heffect id (by simp)

theorem resume_moves (s : AccessRequest) (id : Nat) (answer : Answer) :
    Moves s (s.resume id answer) (effect s (.resume id answer)) := by
  fun_cases AccessRequest.resume s id answer
  case case1 hat => exact moves_answer (by simp [effect, hat]) id _
  case case2 hat _ => exact moves_goTo (by simp [effect, hat]) id (by simp)
  case case3 hat _ => exact moves_answer (by simp [effect, hat]) id _
  case case4 hat => exact moves_answer (by simp [effect, hat]) id _
  case case5 hat => exact moves_goTo (by simp [effect, hat]) id (by simp)
  case case6 hat => exact moves_answer (by simp [effect, hat]) id _
  case case7 hat => exact moves_answer (by simp [effect, hat]) id _
  case case8 hat => exact decide_moves hat
  case case9 hat _ => exact moves_answer (by simp [effect, hat]) id _
  case case10 hat _ _ => exact moves_goTo (by simp [effect, hat]) id (by simp)
  case case11 hat =>
    have heffect : effect s (.resume id .settled) = none := by simp [effect, hat]
    rw [heffect]
    exact .quiet (quiet_of_running rfl rfl rfl rfl rfl (fun _ _ h => nomatch h))
  case case12 entry hat =>
    have heffect : effect s (.resume id .settled) = some .enter := by simp [effect, hat]
    rw [heffect]
    exact .enter id _ entry rfl
  case case13 entry hat =>
    have heffect : effect s (.resume id .settled) = some .record := by simp [effect, hat]
    rw [heffect]
    exact .record id _ entry hat rfl
  case case14 hat =>
    have heffect : effect s (.resume id answer) = none := by simp [effect, hat]
    rw [heffect]
    exact .quiet (Quiet.refl s)
  case case15 => exact moves_goTo (by simp [effect]) id (by simp)
  case case16 =>
    have heffect : effect s (.resume id answer) = none := by
      dsimp only [effect]
      split <;> simp_all
    rw [heffect]
    exact .quiet (Quiet.refl s)

theorem step_moves (s : AccessRequest) (event : ResolveEvent) :
    Moves s (step s event) (effect s event) := by
  cases event with
  | disconnect => exact .quiet ⟨rfl, rfl, rfl, rfl, fun _ _ _ h => h⟩
  | resume id answer => exact resume_moves s id answer
  | message id body =>
    show Moves s (step s (.message id body)) none
    unfold step
    dsimp only
    split
    · exact .quiet (Quiet.refl s)
    · exact .quiet (quiet_answer s id _)
    · exact .quiet (quiet_goTo s id (by simp))

/-! ## Runs -/

theorem mem_tell {told decision : Decision} :
    decision ∈ s.tell told → decision ∈ s.received ∨ decision = told := by
  intro h
  unfold AccessRequest.tell at h
  split at h
  · simpa using h
  · exact .inl h

theorem inv_created : Inv created :=
  ⟨fun _ _ _ h => (nomatch h), fun h => (nomatch h), fun h => nomatch h⟩

theorem decidedOnce_created : DecidedOnce created :=
  ⟨fun h => (nomatch h.1), Nat.zero_le 1, fun h => nomatch h⟩

theorem Inv.moves {effect : Option Effect} (h : Inv s) (hmoves : Moves s s' effect) : Inv s' := by
  cases hmoves with
  | quiet hquiet => exact h.quiet hquiet
  | deny id hs' =>
    have hquiet := quiet_answer s.deny id .ok
    rw [← hs'] at hquiet
    refine Inv.quiet (s := s.deny) ⟨h.auditing, ?_, fun _ => rfl⟩ hquiet
    intro hgranted
    rcases mem_tell hgranted with hgranted | hgranted
    · exact h.granted hgranted
    · cases hgranted
  | enter id actorId entry hs' =>
    have hentered : s'.roster.isSome = true := by
      rw [hs']
      show (s.roster.or (some entry)).isSome = true
      cases s.roster <;> rfl
    refine ⟨fun _ _ _ _ => hentered, fun _ => hentered, ?_⟩
    rw [hs']
    exact h.denied
  | record id actorId entry hat hs' =>
    have hentered := h.auditing id actorId entry hat
    have hquiet := quiet_answer (s.grant ⟨actorId, entry.homeClassId⟩) id .ok
    rw [← hs'] at hquiet
    refine Inv.quiet (s := s.grant ⟨actorId, entry.homeClassId⟩)
      ⟨h.auditing, fun _ => hentered, ?_⟩ hquiet
    intro hdenied
    rcases mem_tell hdenied with hdenied | hdenied
    · exact h.denied hdenied
    · cases hdenied

theorem DecidedOnce.moves_iff {effect : Option Effect} (hinv : Inv s) (h : DecidedOnce s)
    (hmoves : Moves s s' effect) : DecidedOnce s' ↔ Undecided s effect := by
  cases hmoves with
  | quiet hquiet => exact iff_of_true ((DecidedOnce.quiet_iff hquiet).2 h) trivial
  | deny id hs' =>
    have hquiet := quiet_answer s.deny id .ok
    rw [← hs'] at hquiet
    rw [DecidedOnce.quiet_iff hquiet]
    constructor
    · intro hdeny
      exact hdeny.roster rfl
    · intro (hroster : s.roster = none)
      refine ⟨fun ⟨_, hgranted⟩ => ?_, h.audit, fun _ => hroster⟩
      rcases mem_tell hgranted with hgranted | hgranted
      · have hentered := hinv.granted hgranted
        simp [hroster] at hentered
      · cases hgranted
  | enter id actorId entry hs' =>
    constructor
    · intro henter
      by_contra hdenied
      have hnone := henter.roster (by rw [hs']; exact Bool.eq_true_of_not_eq_false hdenied)
      rw [hs'] at hnone
      change s.roster.or (some entry) = none at hnone
      cases hroster : s.roster <;> simp [hroster] at hnone
    · intro hdenied
      rw [hs']
      exact ⟨h.told, h.audit, fun htrue => absurd (hdenied.symm.trans htrue) (by simp)⟩
  | record id actorId entry hat hs' =>
    have hquiet := quiet_answer (s.grant ⟨actorId, entry.homeClassId⟩) id .ok
    rw [← hs'] at hquiet
    rw [DecidedOnce.quiet_iff hquiet]
    have hnotDenied : s.denied = false := by
      by_contra hdenied
      have hnone := h.roster (Bool.eq_true_of_not_eq_false hdenied)
      have hentered := hinv.auditing id actorId entry hat
      simp [hnone] at hentered
    constructor
    · intro hrecord
      have hlength : (s.audit ++ [GrantRecord.mk actorId entry.homeClassId]).length ≤ 1 :=
        hrecord.audit
      rw [List.length_append] at hlength
      exact List.length_eq_zero_iff.1 (by simpa using hlength)
    · intro (haudit : s.audit = [])
      refine ⟨fun ⟨hdenied, _⟩ => ?_, ?_, h.roster⟩
      · rcases mem_tell hdenied with hdenied | hdenied
        · exact absurd (hnotDenied.symm.trans (hinv.denied hdenied)) (by simp)
        · cases hdenied
      · show (s.audit ++ [_]).length ≤ 1
        simp [haudit]

end Cine.Exam.AccessRequests
