import Cine.Lib.Machine
import Cine.Lib.OrderedMap
import Cine.Lib.Utf16

/-!
# The lines that a client sends to the hub

The handler of `data` in `TeacherHub.onClient`, line by line.  A line is
parsed and cast: after `parseWireMessage` nothing is known of a message but
that it is an object with a `type`, so the fields are script values here, and
so are the machine ids under which the hub keeps its entries.

* Values, and the maps under values.
* The handlers.  `emitState` sorts the list of machines, and a student number
  that is no text throws in the comparison.
* `LineHarmless`: the handler does not throw, the entries of the other machines
  are as before, and so are the pending commands of the machines that have not
  registered over this connection.  `lineHarmless_iff` says when, for one line.
* `lines_harmless`: runs of all connections, with commands sent in between.

`JSON.parse` and the comparisons that a sort makes are parameters.  `N` is
the type of the numbers as a `Map` tells them apart, and `isZero` says which of
them is falsy.
-/

namespace Cine.Agent.HubMessages

open Cine.Lib

/-! ## Values -/

/-- A value that `JSON.parse` gives. -/
inductive JsValue (N : Type)
  | null
  | bool (b : Bool)
  | num (n : N)
  | str (units : List Nat)
  | arr (items : List (JsValue N))
  | obj (fields : List (List Nat × JsValue N))

variable {N : Type}

/-- A property.  Nothing is `undefined`; no other value has one of the
properties that the hub reads. -/
def JsValue.prop (v : JsValue N) (name : List Nat) : Option (JsValue N) :=
  match v with
  | .obj fields => (fields.find? fun field => field.1 = name).map Prod.snd
  | _ => none

/-- A value that has properties: neither `undefined` nor `null`. -/
def defined : Option (JsValue N) → Option (JsValue N)
  | some .null => none
  | v => v

mutual
/-- Whether a value becomes text without an error.  A property `toString` that
comes from a text is no function. -/
def JsValue.printable : JsValue N → Bool
  | .arr items => printableAll items
  | .obj fields => fields.all fun field => field.1 ≠ utf16 "toString"
  | _ => true

def printableAll : List (JsValue N) → Bool
  | [] => true
  | v :: rest => v.printable && printableAll rest
end

/-- Missing, `null` or a text. -/
def isText : Option (JsValue N) → Bool
  | none => true
  | some .null => true
  | some (.str _) => true
  | _ => false

/-- `(a ?? '').localeCompare(b ?? '')` throws. -/
def localeCompareThrows (a b : Option (JsValue N)) : Bool :=
  !isText a || !(b.elim true JsValue.printable)

/-- A key of a `Map`.  Every array and every object that is parsed is a new
one. -/
inductive MapKey (N : Type)
  | undefined
  | null
  | bool (b : Bool)
  | num (n : N)
  | str (units : List Nat)
  | object (identity : Nat)
deriving DecidableEq

def keyOf (identity : Nat) : Option (JsValue N) → MapKey N
  | none => .undefined
  | some .null => .null
  | some (.bool b) => .bool b
  | some (.num n) => .num n
  | some (.str units) => .str units
  | some (.arr _) => .object identity
  | some (.obj _) => .object identity

def MapKey.truthy (isZero : N → Bool) : MapKey N → Bool
  | .undefined => false
  | .null => false
  | .bool b => b
  | .num n => !isZero n
  | .str units => units ≠ []
  | .object _ => true

/-! ## The hub -/

abbrev TcpSocket := Nat

/-- An entry, kept as the value it was spread from. -/
structure RegisteredNode (N : Type) where
  machine : JsValue N
  labMgmtSessionId : String
  lastSeen : String

def RegisteredNode.studentMssv (node : RegisteredNode N) : Option (JsValue N) :=
  node.machine.prop (utf16 "studentMssv")

/-- What `onClient` keeps for one connection. -/
structure Client (N : Type) where
  registeredId : Option (MapKey N)
  /-- Every id that was registered over the connection; the source has no such
  list. -/
  registeredFor : List (MapKey N)

structure TeacherHub (N : Type) where
  sessionId : String
  nodes : OrderedMap (MapKey N) (RegisteredNode N)
  sockets : OrderedMap (MapKey N) TcpSocket
  /-- The commands that wait for a reply, with the machine that each was sent
  to.  The source does not keep the machine. -/
  pending : OrderedMap (List Nat) (MapKey N)
  statusMessage : Option String
  clients : OrderedMap TcpSocket (Client N)
  /-- The identity of the next object that is parsed. -/
  objects : Nat
  /-- An error has left a handler. -/
  crashed : Bool

inductive HubError
  | typeError
deriving DecidableEq

/-- A hub that runs and has no connection yet. -/
def fresh [DecidableEq N] (sessionId : String) : TeacherHub N :=
  ⟨sessionId, .empty, .empty, .empty, some "Hub đang chạy — chờ máy sinh viên kết nối.", .empty,
    0, false⟩

/-- The comparisons that a sort of a list makes, by the places of the
elements. -/
abbrev SortCompares (N : Type) :=
  (nodes : List (RegisteredNode N)) → List (Fin nodes.length × Fin nodes.length)

/-- The machines that have registered over a connection. -/
def TeacherHub.own (hub : TeacherHub N) (sock : TcpSocket) : List (MapKey N) :=
  ((hub.clients.get? sock).map Client.registeredFor).getD []

section Handlers

variable (jsonParse : List Nat → Option (JsValue N)) (sortCompares : SortCompares N)

/-- `parseWireMessage`.  An array has no property `type`. -/
def parseWireMessage (raw : List Nat) : Option (JsValue N) :=
  match jsonParse raw with
  | some (.obj fields) =>
    if ((JsValue.obj fields).prop (utf16 "type")).isSome then some (.obj fields) else none
  | _ => none

/-- `emitState`, which throws where the sort of the machines does. -/
def emitState (hub : TeacherHub N) : Except HubError (TeacherHub N) :=
  let nodes := hub.nodes.values
  if (sortCompares nodes).any fun pair =>
      localeCompareThrows nodes[pair.1].studentMssv nodes[pair.2].studentMssv then
    .error .typeError
  else .ok hub

def IsA (msg : JsValue N) (type : String) : Bool :=
  match msg.prop (utf16 "type") with
  | some (.str units) => units = utf16 type
  | _ => false

section Events

variable [DecidableEq N]

/-- What a `register` message does before the state is emitted. -/
def register (hub : TeacherHub N) (sock : TcpSocket) (client : Client N) (machine : JsValue N)
    (now : String) : TeacherHub N :=
  let registeredId := keyOf hub.objects (machine.prop (utf16 "machineId"))
  { hub with
    nodes := hub.nodes.set registeredId ⟨machine, hub.sessionId, now⟩
    sockets := hub.sockets.set registeredId sock
    statusMessage := none
    clients := hub.clients.set sock ⟨some registeredId, registeredId :: client.registeredFor⟩
    objects := hub.objects + 1 }

def onRegister (hub : TeacherHub N) (sock : TcpSocket) (client : Client N)
    (machine : Option (JsValue N)) (now : String) : Except HubError (TeacherHub N) :=
  match defined machine with
  | none => .error .typeError
  | some machine => emitState sortCompares (register hub sock client machine now)

/-- The promise of the command is resolved, whoever the command was sent
to. -/
def onCommandResponse (hub : TeacherHub N) (response : Option (JsValue N)) :
    Except HubError (TeacherHub N) :=
  match defined response with
  | none => .error .typeError
  | some response =>
    match response.prop (utf16 "requestId") with
    | some (.str requestId) =>
      match hub.pending.get? requestId with
      | some _ => .ok { hub with pending := hub.pending.erase requestId }
      | none => .ok hub
    | _ => .ok hub

/-- One line in the handler of `data`. -/
def onLine (hub : TeacherHub N) (sock : TcpSocket) (line : List Nat) (now : String) :
    Except HubError (TeacherHub N) :=
  match hub.clients.get? sock with
  | none => .ok hub
  | some client =>
    match parseWireMessage jsonParse line with
    | none => .ok hub
    | some msg =>
      if IsA msg "register" then
        onRegister sortCompares hub sock client (msg.prop (utf16 "machine")) now
      else if IsA msg "command_response" then
        onCommandResponse hub (msg.prop (utf16 "response"))
      else .ok hub

variable (isZero : N → Bool)

/-- The handler of `close`. -/
def onClose (hub : TeacherHub N) (sock : TcpSocket) : Except HubError (TeacherHub N) :=
  match hub.clients.get? sock with
  | none => .ok hub
  | some client =>
    let closed := { hub with clients := hub.clients.erase sock }
    match client.registeredId.filter (MapKey.truthy isZero) with
    | none => .ok closed
    | some registeredId =>
      emitState sortCompares
        { closed with
          nodes := hub.nodes.erase registeredId
          sockets := hub.sockets.erase registeredId }

inductive HubEvent (N : Type)
  | connect (sock : TcpSocket)
  | line (sock : TcpSocket) (line : List Nat) (now : String)
  | close (sock : TcpSocket)
  /-- `sendRequest`, with an id that is in use nowhere. -/
  | send (machineId : MapKey N) (requestId : List Nat)
  /-- The time for the reply is over. -/
  | expire (requestId : List Nat)

def onEvent (hub : TeacherHub N) : HubEvent N → Except HubError (TeacherHub N)
  | .connect sock =>
    .ok (if hub.clients.has sock then hub
      else { hub with clients := hub.clients.set sock ⟨none, []⟩ })
  | .line sock line now => onLine jsonParse sortCompares hub sock line now
  | .close sock => onClose sortCompares isZero hub sock
  | .send machineId requestId =>
    .ok (if hub.pending.has requestId ∨ !hub.sockets.has machineId then hub
      else { hub with pending := hub.pending.set requestId machineId })
  | .expire requestId => .ok { hub with pending := hub.pending.erase requestId }

def step (hub : TeacherHub N) (event : HubEvent N) : TeacherHub N :=
  match onEvent jsonParse sortCompares isZero hub event with
  | .ok hub' => hub'
  | .error _ => { hub with crashed := true }

end Events

end Handlers

/-! ## What a line may do -/

section Harmless

variable [DecidableEq N] (jsonParse : List Nat → Option (JsValue N))
  (sortCompares : SortCompares N)

def namedMachine (hub : TeacherHub N) (line : List Nat) : Option (MapKey N) :=
  match parseWireMessage jsonParse line with
  | none => none
  | some msg =>
    if IsA msg "register" then
      (defined (msg.prop (utf16 "machine"))).map fun machine =>
        keyOf hub.objects (machine.prop (utf16 "machineId"))
    else none

/-- The entries of all machines but one are the same in both hubs, and so are
the pending commands of all machines that are not among `own`. -/
structure LeavesOthers (named : Option (MapKey N)) (own : List (MapKey N))
    (hub hub' : TeacherHub N) : Prop where
  nodes : ∀ machineId, named ≠ some machineId →
    hub'.nodes.get? machineId = hub.nodes.get? machineId
  sockets : ∀ machineId, named ≠ some machineId →
    hub'.sockets.get? machineId = hub.sockets.get? machineId
  pending : ∀ requestId machineId, machineId ∉ own →
    (hub'.pending.get? requestId = some machineId ↔ hub.pending.get? requestId = some machineId)

/-- The line neither throws nor disturbs the other machines. -/
def LineHarmless (hub : TeacherHub N) (sock : TcpSocket) (line : List Nat) (now : String) :
    Prop :=
  ∃ hub', onLine jsonParse sortCompares hub sock line now = .ok hub' ∧
    LeavesOthers (namedMachine jsonParse hub line) (hub.own sock) hub hub'

def NamesMachine (msg : JsValue N) : Prop :=
  (defined (msg.prop (utf16 "machine"))).isSome

/-- There is a response, and it is to no command that was sent to a machine
of another connection. -/
def AnswersOwn (hub : TeacherHub N) (sock : TcpSocket) (msg : JsValue N) : Prop :=
  ∃ response, defined (msg.prop (utf16 "response")) = some response ∧
    ∀ requestId machineId, response.prop (utf16 "requestId") = some (.str requestId) →
      hub.pending.get? requestId = some machineId → machineId ∈ hub.own sock

/-- A `register` has its machine and a `command_response` its response. -/
def Fits (hub : TeacherHub N) (sock : TcpSocket) (line : List Nat) : Prop :=
  ∀ msg, parseWireMessage jsonParse line = some msg →
    (IsA msg "register" → NamesMachine msg) ∧
      (IsA msg "command_response" → AnswersOwn hub sock msg)

/-- The student number that a registration brings is a text. -/
def TextNumber (line : List Nat) : Prop :=
  ∀ msg, parseWireMessage jsonParse line = some msg → IsA msg "register" →
    ∀ machine, defined (msg.prop (utf16 "machine")) = some machine →
      isText (machine.prop (utf16 "studentMssv")) = true

/-- All student numbers that the hub lists are texts. -/
def Sortable (hub : TeacherHub N) : Prop :=
  ∀ machineId node, hub.nodes.get? machineId = some node → isText node.studentMssv = true

variable {jsonParse sortCompares} {hub : TeacherHub N} {sock : TcpSocket}

omit [DecidableEq N] in
theorem not_localeCompareThrows {a b : Option (JsValue N)} (ha : isText a = true)
    (hb : isText b = true) : localeCompareThrows a b = false := by
  have hprintable : b.elim true JsValue.printable = true := by
    cases b with
    | none => rfl
    | some v =>
      cases v with
      | null => rfl
      | str units => rfl
      | bool b => cases hb
      | num n => cases hb
      | arr items => cases hb
      | obj fields => cases hb
  unfold localeCompareThrows
  rw [ha, hprintable]
  rfl

theorem Sortable.emitState (h : Sortable hub) : emitState sortCompares hub = .ok hub := by
  have htext : ∀ node ∈ hub.nodes.values, isText node.studentMssv = true := by
    intro node hnode
    obtain ⟨machineId, hget⟩ := OrderedMap.mem_values_iff.1 hnode
    exact h machineId node hget
  unfold HubMessages.emitState
  dsimp only
  rw [if_neg]
  rw [List.any_eq_true]
  rintro ⟨pair, _, hthrows⟩
  have hfirst := htext _ (List.getElem_mem pair.1.isLt)
  have hsecond := htext _ (List.getElem_mem pair.2.isLt)
  rw [Fin.getElem_fin, Fin.getElem_fin, not_localeCompareThrows hfirst hsecond] at hthrows
  exact Bool.false_ne_true hthrows

theorem Sortable.register (h : Sortable hub) (sock : TcpSocket) (client : Client N)
    {machine : JsValue N}
    (hnumber : isText (machine.prop (utf16 "studentMssv")) = true) (now : String) :
    Sortable (register hub sock client machine now) := by
  intro machineId node hget
  have hset : (hub.nodes.set (keyOf hub.objects (machine.prop (utf16 "machineId")))
      ⟨machine, hub.sessionId, now⟩).get? machineId = some node := hget
  rw [OrderedMap.get?_set] at hset
  split_ifs at hset
  · cases hset
    exact hnumber
  · exact h machineId node hset

theorem Sortable.erase (h : Sortable hub) (machineId : MapKey N)
    {sockets : OrderedMap (MapKey N) TcpSocket} {clients : OrderedMap TcpSocket (Client N)} :
    Sortable { hub with
      nodes := hub.nodes.erase machineId
      sockets := sockets
      clients := clients } := by
  intro other node hget
  have herase : (hub.nodes.erase machineId).get? other = some node := hget
  rw [OrderedMap.get?_erase] at herase
  split_ifs at herase
  exact h other node herase

theorem leavesOthers_register (hub : TeacherHub N) (sock : TcpSocket) (client : Client N)
    (machine : JsValue N) (now : String) (own : List (MapKey N)) :
    LeavesOthers (some (keyOf hub.objects (machine.prop (utf16 "machineId")))) own hub
      (register hub sock client machine now) := by
  constructor
  · intro machineId hne
    exact OrderedMap.get?_set_ne fun heq => hne (congrArg some heq.symm)
  · intro machineId hne
    exact OrderedMap.get?_set_ne fun heq => hne (congrArg some heq.symm)
  · intro requestId machineId _
    exact Iff.rfl

theorem LeavesOthers.refl (named : Option (MapKey N)) (own : List (MapKey N))
    (hub : TeacherHub N) : LeavesOthers named own hub hub :=
  ⟨fun _ _ => rfl, fun _ _ => rfl, fun _ _ _ => Iff.rfl⟩

theorem leavesOthers_erase (named : Option (MapKey N)) (own : List (MapKey N))
    {requestId : List Nat} {machineId : MapKey N}
    (hpending : hub.pending.get? requestId = some machineId) :
    LeavesOthers named own hub { hub with pending := hub.pending.erase requestId } ↔
      machineId ∈ own := by
  constructor
  · intro h
    by_contra hforeign
    have hkept := (h.pending requestId machineId hforeign).2 hpending
    have herased : (hub.pending.erase requestId).get? requestId = some machineId := hkept
    rw [OrderedMap.get?_erase, if_pos rfl] at herased
    cases herased
  · intro hown
    refine ⟨fun _ _ => rfl, fun _ _ => rfl, ?_⟩
    intro other target hforeign
    show (hub.pending.erase requestId).get? other = some target ↔ _
    rw [OrderedMap.get?_erase]
    split_ifs with hother
    · subst hother
      constructor
      · intro h
        cases h
      · intro h
        rw [hpending] at h
        cases h
        exact absurd hown hforeign
    · exact Iff.rfl

omit [DecidableEq N] in
theorem IsA.unique {msg : JsValue N} {a b : String} (ha : IsA msg a = true)
    (hb : IsA msg b = true) : a = b := by
  unfold IsA at ha hb
  split at ha
  · rename_i units htype
    rw [htype] at hb
    have hunits : utf16 a = utf16 b :=
      (of_decide_eq_true ha).symm.trans (of_decide_eq_true hb)
    exact utf16_injective hunits
  · cases ha

theorem register_harmless_iff (hsortable : Sortable hub) (client : Client N) {msg : JsValue N}
    (hnumber : ∀ machine, defined (msg.prop (utf16 "machine")) = some machine →
      isText (machine.prop (utf16 "studentMssv")) = true) (now : String)
    (own : List (MapKey N)) :
    (∃ hub', onRegister sortCompares hub sock client (msg.prop (utf16 "machine")) now = .ok hub' ∧
      LeavesOthers ((defined (msg.prop (utf16 "machine"))).map fun machine =>
        keyOf hub.objects (machine.prop (utf16 "machineId"))) own hub hub') ↔
      NamesMachine msg := by
  unfold onRegister NamesMachine
  cases hmachine : defined (msg.prop (utf16 "machine")) with
  | none =>
    apply iff_of_false
    · rintro ⟨hub', herror, _⟩
      cases herror
    · exact Bool.false_ne_true
  | some machine =>
    apply iff_of_true
    · have hregistered := hsortable.register sock client (hnumber machine hmachine) now
      exact ⟨_, hregistered.emitState, leavesOthers_register hub sock client machine now own⟩
    · rfl

theorem response_harmless_iff (hub : TeacherHub N) (sock : TcpSocket) (msg : JsValue N) :
    (∃ hub', onCommandResponse hub (msg.prop (utf16 "response")) = .ok hub' ∧
      LeavesOthers none (hub.own sock) hub hub') ↔ AnswersOwn hub sock msg := by
  unfold onCommandResponse AnswersOwn
  cases hresponse : defined (msg.prop (utf16 "response")) with
  | none =>
    apply iff_of_false
    · rintro ⟨hub', herror, _⟩
      cases herror
    · rintro ⟨response, hnone, _⟩
      cases hnone
  | some response =>
    dsimp only
    have hkept : (∀ requestId machineId,
        response.prop (utf16 "requestId") = some (.str requestId) →
          hub.pending.get? requestId = some machineId → machineId ∈ hub.own sock) ↔
        ∃ r, some response = some r ∧ ∀ requestId machineId,
          r.prop (utf16 "requestId") = some (.str requestId) →
            hub.pending.get? requestId = some machineId → machineId ∈ hub.own sock := by
      constructor
      · intro h
        exact ⟨response, rfl, h⟩
      · rintro ⟨r, heq, h⟩
        cases heq
        exact h
    rw [← hkept]
    have hsame : ∃ hub', (Except.ok hub : Except HubError (TeacherHub N)) = .ok hub' ∧
        LeavesOthers none (hub.own sock) hub hub' := ⟨hub, rfl, LeavesOthers.refl _ _ _⟩
    split
    · rename_i requestId hid
      cases hpending : hub.pending.get? requestId with
      | none =>
        apply iff_of_true hsame
        intro other machineId hother hget
        rw [hid] at hother
        cases hother
        rw [hpending] at hget
        cases hget
      | some machineId =>
        have herase := leavesOthers_erase none (hub.own sock) hpending
        constructor
        · rintro ⟨hub', hok, hleaves⟩ other target hother hget
          cases hok
          rw [hid] at hother
          cases hother
          rw [hpending] at hget
          cases hget
          exact herase.1 hleaves
        · intro h
          exact ⟨_, rfl, herase.2 (h requestId machineId hid hpending)⟩
    · rename_i hno
      apply iff_of_true hsame
      intro requestId machineId hid
      exact absurd hid (hno requestId)

theorem lineHarmless_iff (hsortable : Sortable hub) {line : List Nat}
    (hnumber : TextNumber jsonParse line) {client : Client N}
    (hclient : hub.clients.get? sock = some client) (now : String) :
    LineHarmless jsonParse sortCompares hub sock line now ↔ Fits jsonParse hub sock line := by
  unfold LineHarmless onLine namedMachine Fits
  unfold TextNumber at hnumber
  rw [hclient]
  dsimp only
  cases hmsg : parseWireMessage jsonParse line with
  | none =>
    apply iff_of_true
    · exact ⟨hub, rfl, LeavesOthers.refl _ _ _⟩
    · intro msg hnone
      cases hnone
  | some msg =>
    have hfits : (∀ m, some msg = some m → (IsA m "register" → NamesMachine m) ∧
        (IsA m "command_response" → AnswersOwn hub sock m)) ↔
        (IsA msg "register" → NamesMachine msg) ∧
          (IsA msg "command_response" → AnswersOwn hub sock msg) := by
      constructor
      · intro h
        exact h msg rfl
      · intro h m heq
        cases heq
        exact h
    rw [hfits]
    dsimp only
    by_cases hregister : IsA msg "register" = true
    · have hother : ¬ IsA msg "command_response" = true := by
        intro hresponse
        have heq := IsA.unique hregister hresponse
        exact absurd heq (by decide)
      rw [if_pos hregister, if_pos hregister,
        register_harmless_iff hsortable client (hnumber msg hmsg hregister) now]
      simp [hregister, hother]
    · rw [if_neg hregister, if_neg hregister]
      by_cases hresponse : IsA msg "command_response" = true
      · rw [if_pos hresponse, response_harmless_iff]
        simp [hregister, hresponse]
      · rw [if_neg hresponse]
        apply iff_of_true
        · exact ⟨hub, rfl, LeavesOthers.refl _ _ _⟩
        · simp [hregister, hresponse]

theorem Sortable.onLine (h : Sortable hub) {line : List Nat} (hnumber : TextNumber jsonParse line)
    {now : String} {hub' : TeacherHub N}
    (hok : onLine jsonParse sortCompares hub sock line now = .ok hub') : Sortable hub' := by
  unfold HubMessages.onLine at hok
  cases hclient : hub.clients.get? sock with
  | none =>
    rw [hclient] at hok
    cases hok
    exact h
  | some client =>
    rw [hclient] at hok
    dsimp only at hok
    cases hmsg : parseWireMessage jsonParse line with
    | none =>
      rw [hmsg] at hok
      cases hok
      exact h
    | some msg =>
      rw [hmsg] at hok
      dsimp only at hok
      split_ifs at hok with hregister hresponse
      · unfold onRegister at hok
        cases hmachine : defined (msg.prop (utf16 "machine")) with
        | none =>
          rw [hmachine] at hok
          cases hok
        | some machine =>
          rw [hmachine] at hok
          dsimp only at hok
          have hregistered :=
            h.register sock client (hnumber msg hmsg hregister machine hmachine) now
          rw [hregistered.emitState] at hok
          cases hok
          exact hregistered
      · unfold onCommandResponse at hok
        split at hok
        · cases hok
        · split at hok
          · split at hok
            · cases hok
              exact h
            · cases hok
              exact h
          · cases hok
            exact h
      · cases hok
        exact h

end Harmless

/-! ## Runs -/

section Runs

variable [DecidableEq N] {isZero : N → Bool} {jsonParse : List Nat → Option (JsValue N)}
  {sortCompares : SortCompares N}

/-- The condition on one event. -/
def Allowed (jsonParse : List Nat → Option (JsValue N)) (hub : TeacherHub N) :
    HubEvent N → Prop
  | .line sock line _ => Fits jsonParse hub sock line ∧ TextNumber jsonParse line
  | _ => True

theorem sortable_step {hub : TeacherHub N} (h : Sortable hub) {event : HubEvent N}
    (hallowed : Allowed jsonParse hub event) :
    Sortable (step jsonParse sortCompares isZero hub event) := by
  unfold step
  cases hevent : onEvent jsonParse sortCompares isZero hub event with
  | error e => exact h
  | ok hub' =>
    dsimp only
    unfold onEvent at hevent
    cases event with
    | connect sock =>
      dsimp only at hevent
      split_ifs at hevent
      · cases hevent
        exact h
      · cases hevent
        exact h
    | line sock line now => exact h.onLine hallowed.2 hevent
    | close sock =>
      dsimp only at hevent
      unfold onClose at hevent
      split at hevent
      · cases hevent
        exact h
      · dsimp only at hevent
        split at hevent
        · cases hevent
          exact h
        · rename_i registeredId _
          rw [(h.erase registeredId).emitState] at hevent
          cases hevent
          exact h.erase registeredId
    | send machineId requestId =>
      dsimp only at hevent
      split_ifs at hevent
      · cases hevent
        exact h
      · cases hevent
        exact h
    | expire requestId =>
      cases hevent
      exact h

theorem sortable_fresh (sessionId : String) : Sortable (fresh sessionId : TeacherHub N) := by
  intro machineId node hget
  cases hget

theorem lineHarmless_of_unknown {hub : TeacherHub N} {sock : TcpSocket}
    (hclient : hub.clients.get? sock = none) (line : List Nat) (now : String) :
    LineHarmless jsonParse sortCompares hub sock line now := by
  unfold LineHarmless onLine
  rw [hclient]
  exact ⟨hub, rfl, LeavesOthers.refl _ _ _⟩

/-- In a run whose lines all fit, every line is harmless. -/
theorem lines_harmless (sortCompares : SortCompares N) (isZero : N → Bool) (sessionId : String)
    {events before after : List (HubEvent N)} {sock : TcpSocket} {line : List Nat} {now : String}
    (h : AllAllowed (step jsonParse sortCompares isZero) (Allowed jsonParse) (fresh sessionId)
      events)
    (hevents : events = before ++ .line sock line now :: after) :
    LineHarmless jsonParse sortCompares
      (before.foldl (step jsonParse sortCompares isZero) (fresh sessionId)) sock line now := by
  subst hevents
  rw [allAllowed_append] at h
  obtain ⟨hbefore, hline, _⟩ := h
  have hreach := reach_foldl hbefore
  have hsortable := hreach.invariant (sortable_fresh sessionId)
    (fun _ _ hs hallowed => sortable_step hs hallowed)
  generalize before.foldl (step jsonParse sortCompares isZero) (fresh sessionId) = hub at *
  cases hclient : hub.clients.get? sock with
  | none => exact lineHarmless_of_unknown hclient line now
  | some client => exact (lineHarmless_iff hsortable hline.2 hclient now).2 hline.1

end Runs

/-! ## Two connections -/

/-- `\x7b"type":"register"\x7d`. -/
def bareRegister : List Nat := utf16 "\x7b\"type\":\"register\"\x7d"

/-- `\x7b"type":"register","machine":\x7b"machineId":"m1"\x7d\x7d`. -/
def registerLine : List Nat :=
  utf16 "\x7b\"type\":\"register\",\"machine\":\x7b\"machineId\":\"m1\"\x7d\x7d"

/-- `\x7b"type":"command_response","response":\x7b"requestId":"r1"\x7d\x7d`. -/
def responseLine : List Nat :=
  utf16 "\x7b\"type\":\"command_response\",\"response\":\x7b\"requestId\":\"r1\"\x7d\x7d"

def exampleParse (line : List Nat) : Option (JsValue Nat) :=
  if line = bareRegister then some (.obj [(utf16 "type", .str (utf16 "register"))])
  else if line = registerLine then
    some (.obj [(utf16 "type", .str (utf16 "register")),
      (utf16 "machine", .obj [(utf16 "machineId", .str (utf16 "m1"))])])
  else if line = responseLine then
    some (.obj [(utf16 "type", .str (utf16 "command_response")),
      (utf16 "response", .obj [(utf16 "requestId", .str (utf16 "r1"))])])
  else none

/-- A sort of at most two elements compares the second with the first. -/
def exampleCompares : SortCompares Nat := fun nodes =>
  if h : nodes.length = 2 then [(⟨1, by omega⟩, ⟨0, by omega⟩)] else []

/-- A machine that has registered and waits for a reply, and a second
connection. -/
def exampleEvents : List (HubEvent Nat) :=
  [.connect 1, .line 1 registerLine "t0", .send (.str (utf16 "m1")) (utf16 "r1"), .connect 2]

def exampleHub : TeacherHub Nat :=
  exampleEvents.foldl (step exampleParse exampleCompares (Nat.beq 0)) (fresh "s")

/-- A registration without a machine throws, and a reply over a connection
that has registered for nothing takes out the command of another machine. -/
theorem malformed_line_throws :
    ¬ LineHarmless exampleParse exampleCompares exampleHub 2 bareRegister "t1" ∧
      ¬ LineHarmless exampleParse exampleCompares exampleHub 2 responseLine "t1" := by
  constructor
  · rintro ⟨hub', hok, _⟩
    have herror : onLine exampleParse exampleCompares exampleHub 2 bareRegister "t1" =
        .error .typeError := rfl
    rw [herror] at hok
    cases hok
  · rintro ⟨hub', hok, hleaves⟩
    have hforeign : (.str (utf16 "m1") : MapKey Nat) ∉ exampleHub.own 2 := by
      show _ ∉ []
      exact List.not_mem_nil
    have hpending : exampleHub.pending.get? (utf16 "r1") = some (.str (utf16 "m1")) := rfl
    have hanswered : onLine exampleParse exampleCompares exampleHub 2 responseLine "t1" =
        .ok { exampleHub with pending := exampleHub.pending.erase (utf16 "r1") } := rfl
    rw [hanswered] at hok
    cases hok
    exact hforeign ((leavesOthers_erase _ _ hpending).1 hleaves)

theorem fits_registerLine (hub : TeacherHub Nat) (sock : TcpSocket) :
    Fits exampleParse hub sock registerLine ∧ TextNumber exampleParse registerLine := by
  have hparse : parseWireMessage exampleParse registerLine =
      some (.obj [(utf16 "type", .str (utf16 "register")),
        (utf16 "machine", .obj [(utf16 "machineId", .str (utf16 "m1"))])]) := rfl
  constructor
  · intro msg hmsg
    rw [hparse] at hmsg
    cases hmsg
    refine ⟨fun _ => rfl, fun hresponse => ?_⟩
    exact absurd hresponse (by decide)
  · intro msg hmsg _ machine hmachine
    rw [hparse] at hmsg
    cases hmsg
    cases hmachine
    rfl

theorem fits_responseLine {hub : TeacherHub Nat} {sock : TcpSocket}
    (hown : ∀ machineId, hub.pending.get? (utf16 "r1") = some machineId →
      machineId ∈ hub.own sock) :
    Fits exampleParse hub sock responseLine ∧ TextNumber exampleParse responseLine := by
  have hparse : parseWireMessage exampleParse responseLine =
      some (.obj [(utf16 "type", .str (utf16 "command_response")),
        (utf16 "response", .obj [(utf16 "requestId", .str (utf16 "r1"))])]) := rfl
  constructor
  · intro msg hmsg
    rw [hparse] at hmsg
    cases hmsg
    refine ⟨fun hregister => absurd hregister (by decide), fun _ => ⟨_, rfl, ?_⟩⟩
    intro requestId machineId hid hget
    cases hid
    exact hown machineId hget
  · intro msg hmsg hregister
    rw [hparse] at hmsg
    cases hmsg
    exact absurd hregister (by decide)

theorem own_reply_harmless :
    LineHarmless exampleParse exampleCompares exampleHub 1 responseLine "t2" := by
  have hallowed : AllAllowed (step exampleParse exampleCompares (Nat.beq 0))
      (Allowed exampleParse) (fresh "s") (exampleEvents ++ [.line 1 responseLine "t2"]) := by
    refine ⟨trivial, fits_registerLine _ _, trivial, trivial, fits_responseLine ?_, trivial⟩
    intro machineId hget
    have hm1 : (some machineId : Option (MapKey Nat)) = some (.str (utf16 "m1")) := hget.symm
    cases hm1
    exact List.mem_cons_self
  exact lines_harmless exampleCompares (Nat.beq 0) "s" hallowed rfl

end Cine.Agent.HubMessages
