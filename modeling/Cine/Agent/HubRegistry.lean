import Cine.Lib.Machine
import Cine.Lib.OrderedMap

/-!
# The teacher hub's registry of machines

`TeacherHub` keeps two maps under the machine id: `nodes`, what it lists,
and `sockets`, where it sends commands.  `onClient` serves one connection.
Its variable `registeredId` is the id of the last `register` message, and
the handler of `close` takes that id out of both maps.

A machine whose old connection has not closed yet may already have a new
one.  The history of registrations, `registeredFor`, is not in the source:
it is there to say which connections a machine has.

There are three groups.

* The handlers, as steps of the hub, and what each does to the connections
  that are open for a machine.
* `Mirrors`: the maps agree with the open connections.  `Client.ForgetsOnly`
  is when a close keeps this, and `mirrors_step_iff` says so for one event.
* Runs of any length.
-/

namespace Cine.Agent.HubRegistry

open Cine.Lib

inductive MachineRole
  | teacherHub
  | studentNode
  deriving DecidableEq

structure LabMachineInfo where
  machineId : String
  hostname : String
  localIp : String
  role : MachineRole
  studentMssv : Option String
  studentFullName : Option String
  teacherAccountId : Option String
  teacherEmail : Option String
  labMgmtSessionId : String
  appVersion : String
  os : String
  lastSeen : String
  cpu : Option String
  ramGb : Option Nat
  storage : Option String
  gpu : Option String
  macAddress : Option String
  deriving DecidableEq

abbrev TcpSocket := Nat

/-- What `onClient` keeps for one connection. -/
structure Client where
  registeredId : Option String
  closed : Bool
  /-- Every id that was registered over the connection. -/
  registeredFor : List String

structure TeacherHub where
  sessionId : String
  nodes : OrderedMap String LabMachineInfo
  sockets : OrderedMap String TcpSocket
  statusMessage : Option String
  clients : OrderedMap TcpSocket Client

/-- A hub that runs and has no connection yet. -/
def fresh (sessionId : String) : TeacherHub :=
  ⟨sessionId, .empty, .empty, some "Hub đang chạy — chờ máy sinh viên kết nối.", .empty⟩

/-! ## The handlers -/

/-- A connection whose `close` has not been seen. -/
def TeacherHub.openClient (hub : TeacherHub) (sock : TcpSocket) : Option Client :=
  (hub.clients.get? sock).filter fun client => !client.closed

/-- `onClient`, for a socket that is new. -/
def TeacherHub.onClient (hub : TeacherHub) (sock : TcpSocket) : TeacherHub :=
  match hub.clients.get? sock with
  | some _ => hub
  | none => { hub with clients := hub.clients.set sock ⟨none, false, []⟩ }

/-- The entry that `register` writes. -/
def registeredNode (hub : TeacherHub) (machine : LabMachineInfo) (now : String) :
    LabMachineInfo :=
  { machine with
    labMgmtSessionId := hub.sessionId
    lastSeen := now }

/-- A `register` message in the handler of `data`. -/
def TeacherHub.onRegister (hub : TeacherHub) (sock : TcpSocket) (machine : LabMachineInfo)
    (now : String) : TeacherHub :=
  match hub.openClient sock with
  | none => hub
  | some client =>
    { hub with
      nodes := hub.nodes.set machine.machineId (registeredNode hub machine now)
      sockets := hub.sockets.set machine.machineId sock
      statusMessage := none
      clients := hub.clients.set sock
        ⟨some machine.machineId, false, machine.machineId :: client.registeredFor⟩ }

/-- The id that the handler of `close` takes out.  An empty id is falsy. -/
def Client.forgets (client : Client) : Option String :=
  client.registeredId.filter fun machineId => machineId ≠ ""

/-- The maps without an id. -/
def TeacherHub.without (hub : TeacherHub) : Option String → TeacherHub
  | none => hub
  | some machineId =>
    { hub with
      nodes := hub.nodes.erase machineId
      sockets := hub.sockets.erase machineId }

/-- The handler of `close`. -/
def TeacherHub.onClose (hub : TeacherHub) (sock : TcpSocket) : TeacherHub :=
  match hub.openClient sock with
  | none => hub
  | some client =>
    { hub.without client.forgets with
      clients := hub.clients.set sock ⟨client.registeredId, true, client.registeredFor⟩ }

inductive HubEvent
  | connect (sock : TcpSocket)
  | register (sock : TcpSocket) (machine : LabMachineInfo) (now : String)
  | close (sock : TcpSocket)

def step (hub : TeacherHub) : HubEvent → TeacherHub
  | .connect sock => hub.onClient sock
  | .register sock machine now => hub.onRegister sock machine now
  | .close sock => hub.onClose sock

/-! ## The connections that are open for a machine -/

/-- The connection is open and has registered for the machine. -/
def TeacherHub.OpenFor (hub : TeacherHub) (sock : TcpSocket) (machineId : String) : Prop :=
  ∃ client, hub.openClient sock = some client ∧ machineId ∈ client.registeredFor

variable {hub : TeacherHub} {sock other : TcpSocket} {client : Client} {machineId : String}

@[simp] theorem clients_without (forgotten : Option String) :
    (hub.without forgotten).clients = hub.clients := by
  cases forgotten <;> rfl

theorem get?_sockets_without (forgotten : Option String) (machineId : String) :
    (hub.without forgotten).sockets.get? machineId =
      if forgotten = some machineId then none else hub.sockets.get? machineId := by
  cases forgotten with
  | none => rfl
  | some forgotten =>
    show (hub.sockets.erase forgotten).get? machineId = _
    simp only [OrderedMap.get?_erase, Option.some.injEq, eq_comm]

theorem get?_nodes_without (forgotten : Option String) (machineId : String) :
    (hub.without forgotten).nodes.get? machineId =
      if forgotten = some machineId then none else hub.nodes.get? machineId := by
  cases forgotten with
  | none => rfl
  | some forgotten =>
    show (hub.nodes.erase forgotten).get? machineId = _
    simp only [OrderedMap.get?_erase, Option.some.injEq, eq_comm]

theorem openClient_of_clients (hub : TeacherHub) (sock : TcpSocket) {hub' : TeacherHub}
    {client' : Client} (h : hub'.clients = hub.clients.set sock client') (other : TcpSocket) :
    hub'.openClient other =
      if other = sock then (some client').filter (fun client => !client.closed)
      else hub.openClient other := by
  unfold TeacherHub.openClient
  rw [h, OrderedMap.get?_set]
  split_ifs <;> rfl

theorem openFor_onClient : (hub.onClient sock).OpenFor other machineId ↔
    hub.OpenFor other machineId := by
  unfold TeacherHub.onClient
  cases hnew : hub.clients.get? sock with
  | some client => exact Iff.rfl
  | none =>
    unfold TeacherHub.OpenFor
    dsimp only
    rw [openClient_of_clients hub sock rfl]
    by_cases h : other = sock
    · subst h
      simp [TeacherHub.openClient, hnew]
    · rw [if_neg h]

theorem openFor_onRegister (hopen : hub.openClient sock = some client)
    (machine : LabMachineInfo) (now : String) :
    (hub.onRegister sock machine now).OpenFor other machineId ↔
      hub.OpenFor other machineId ∨ (other = sock ∧ machineId = machine.machineId) := by
  unfold TeacherHub.onRegister TeacherHub.OpenFor
  rw [hopen]
  dsimp only
  rw [openClient_of_clients hub sock rfl]
  by_cases h : other = sock
  · subst h
    simp [hopen, or_comm]
  · simp [h]

theorem openFor_onClose (hopen : hub.openClient sock = some client) :
    (hub.onClose sock).OpenFor other machineId ↔ other ≠ sock ∧ hub.OpenFor other machineId := by
  unfold TeacherHub.onClose TeacherHub.OpenFor
  rw [hopen]
  dsimp only
  rw [openClient_of_clients hub sock rfl]
  by_cases h : other = sock
  · simp [h]
  · simp [h]

/-! ## The maps agree with the connections -/

/-- The hub lists a machine, and holds a socket for it, exactly when a
connection that registered for it is open, and the socket is such a
connection's. -/
def Mirrors (hub : TeacherHub) : Prop :=
  ∀ machineId,
    ((hub.nodes.get? machineId).isSome ↔ ∃ sock, hub.OpenFor sock machineId) ∧
    ((hub.sockets.get? machineId).isSome ↔ ∃ sock, hub.OpenFor sock machineId) ∧
    ∀ sock, hub.sockets.get? machineId = some sock → hub.OpenFor sock machineId

/-- No other connection is open for the id that the close takes out, and for
the other ids of the connection the hub holds another socket. -/
def Client.ForgetsOnly (client : Client) (hub : TeacherHub) (sock : TcpSocket) : Prop :=
  ∀ machineId ∈ client.registeredFor,
    (client.forgets = some machineId → ∀ other, hub.OpenFor other machineId → other = sock) ∧
    (client.forgets ≠ some machineId → hub.sockets.get? machineId ≠ some sock)

def Allowed (hub : TeacherHub) : HubEvent → Prop
  | .close sock => ∀ client, hub.openClient sock = some client → client.ForgetsOnly hub sock
  | _ => True

/-- The last id of a connection is one of its ids. -/
def Tracked (hub : TeacherHub) : Prop :=
  ∀ sock client, hub.clients.get? sock = some client →
    ∀ machineId, client.registeredId = some machineId → machineId ∈ client.registeredFor

theorem tracked_fresh (sessionId : String) : Tracked (fresh sessionId) :=
  fun _ _ h => by cases h

theorem get?_of_openClient (h : hub.openClient sock = some client) :
    hub.clients.get? sock = some client :=
  (Option.filter_eq_some_iff.1 h).1

private theorem tracked_of_clients {hub' : TeacherHub} {client' : Client} (h : Tracked hub)
    (hclients : hub'.clients = hub.clients.set sock client')
    (hid : ∀ machineId, client'.registeredId = some machineId →
      machineId ∈ client'.registeredFor) : Tracked hub' := by
  intro other client hget
  rw [hclients, OrderedMap.get?_set] at hget
  split_ifs at hget with heq
  · cases hget
    exact hid
  · exact h other client hget

theorem tracked_step (event : HubEvent) (h : Tracked hub) : Tracked (step hub event) := by
  cases event with
  | connect sock =>
    show Tracked (hub.onClient sock)
    unfold TeacherHub.onClient
    cases hnew : hub.clients.get? sock with
    | some client => exact h
    | none => exact tracked_of_clients h rfl fun _ hid => by cases hid
  | register sock machine now =>
    show Tracked (hub.onRegister sock machine now)
    unfold TeacherHub.onRegister
    cases hopen : hub.openClient sock with
    | none => exact h
    | some client =>
      refine tracked_of_clients h rfl fun machineId hid => ?_
      cases hid
      exact List.mem_cons_self
  | close sock =>
    show Tracked (hub.onClose sock)
    unfold TeacherHub.onClose
    cases hopen : hub.openClient sock with
    | none => exact h
    | some client =>
      exact tracked_of_clients h rfl (h sock client (get?_of_openClient hopen))

theorem Tracked.forgets (h : Tracked hub) (hopen : hub.openClient sock = some client)
    (hid : client.forgets = some machineId) : machineId ∈ client.registeredFor :=
  h sock client (get?_of_openClient hopen) machineId (Option.filter_eq_some_iff.1 hid).1

theorem mirrors_fresh (sessionId : String) : Mirrors (fresh sessionId) := by
  intro machineId
  have hnone : ¬ ∃ sock, (fresh sessionId).OpenFor sock machineId := by
    rintro ⟨sock, client, hopen, -⟩
    cases hopen
  exact ⟨iff_of_false Bool.false_ne_true hnone, iff_of_false Bool.false_ne_true hnone,
    fun sock hsock => nomatch (show none = some sock from hsock)⟩

theorem mirrors_onClient (h : Mirrors hub) : Mirrors (hub.onClient sock) := by
  have hnodes : (hub.onClient sock).nodes = hub.nodes := by
    unfold TeacherHub.onClient
    split <;> rfl
  have hsockets : (hub.onClient sock).sockets = hub.sockets := by
    unfold TeacherHub.onClient
    split <;> rfl
  intro machineId
  simp only [hnodes, hsockets, openFor_onClient]
  exact h machineId

theorem mirrors_onRegister (h : Mirrors hub) (machine : LabMachineInfo) (now : String) :
    Mirrors (hub.onRegister sock machine now) := by
  cases hopen : hub.openClient sock with
  | none =>
    unfold TeacherHub.onRegister
    rw [hopen]
    exact h
  | some client =>
    have hnodes : (hub.onRegister sock machine now).nodes =
        hub.nodes.set machine.machineId (registeredNode hub machine now) := by
      unfold TeacherHub.onRegister
      rw [hopen]
    have hsockets : (hub.onRegister sock machine now).sockets =
        hub.sockets.set machine.machineId sock := by
      unfold TeacherHub.onRegister
      rw [hopen]
    intro machineId
    simp only [hnodes, hsockets, OrderedMap.get?_set, openFor_onRegister hopen]
    by_cases hid : machineId = machine.machineId
    · simp only [hid, if_true, Option.isSome_some, true_iff, and_true]
      refine ⟨⟨sock, Or.inr rfl⟩, ⟨sock, Or.inr rfl⟩, fun s hs => Or.inr ?_⟩
      exact (Option.some.inj hs).symm
    · simpa only [hid, if_false, and_false, or_false] using h machineId

theorem mirrors_onClose_iff (htracked : Tracked hub) (h : Mirrors hub)
    (hopen : hub.openClient sock = some client) :
    Mirrors (hub.onClose sock) ↔ client.ForgetsOnly hub sock := by
  have hnodes : ∀ machineId, (hub.onClose sock).nodes.get? machineId =
      if client.forgets = some machineId then none else hub.nodes.get? machineId := by
    intro machineId
    rw [← get?_nodes_without]
    unfold TeacherHub.onClose
    rw [hopen]
  have hsockets : ∀ machineId, (hub.onClose sock).sockets.get? machineId =
      if client.forgets = some machineId then none else hub.sockets.get? machineId := by
    intro machineId
    rw [← get?_sockets_without]
    unfold TeacherHub.onClose
    rw [hopen]
  have hself : ∀ machineId, hub.OpenFor sock machineId → machineId ∈ client.registeredFor := by
    rintro machineId ⟨client', hopen', hmem⟩
    rw [hopen] at hopen'
    cases hopen'
    exact hmem
  unfold Mirrors
  simp only [hnodes, hsockets, openFor_onClose hopen]
  constructor
  · intro hafter machineId hmem
    constructor
    · intro hid other hother
      by_contra hne
      have hlisted := (hafter machineId).1.2 ⟨other, hne, hother⟩
      rw [if_pos hid] at hlisted
      cases hlisted
    · intro hid hheld
      exact ((hafter machineId).2.2 sock (by rw [if_neg hid, hheld])).1 rfl
  · intro honly machineId
    obtain ⟨hlist, hhold, hsock⟩ := h machineId
    by_cases hid : client.forgets = some machineId
    · -- the id is taken out, and nobody else has it
      have hnobody : ¬ ∃ other, other ≠ sock ∧ hub.OpenFor other machineId := by
        rintro ⟨other, hne, hother⟩
        exact hne ((honly machineId (htracked.forgets hopen hid)).1 hid other hother)
      simp [hid, hnobody]
    · simp only [if_neg hid]
      by_cases hmem : machineId ∈ client.registeredFor
      · -- the held socket is that of another connection
        have hheld : ∃ other, hub.sockets.get? machineId = some other ∧ other ≠ sock := by
          obtain ⟨other, hother⟩ := Option.isSome_iff_exists.1
            (hhold.2 ⟨sock, client, hopen, hmem⟩)
          refine ⟨other, hother, fun heq => ?_⟩
          exact (honly machineId hmem).2 hid (heq ▸ hother)
        obtain ⟨other, hother, hne⟩ := hheld
        have hlive : ∃ s, s ≠ sock ∧ hub.OpenFor s machineId :=
          ⟨other, hne, hsock other hother⟩
        refine ⟨⟨fun _ => hlive, fun _ => hlist.2 ⟨other, hsock other hother⟩⟩,
          ⟨fun _ => hlive, fun _ => hhold.2 ⟨other, hsock other hother⟩⟩, fun s hs => ?_⟩
        rw [hother] at hs
        cases hs
        exact ⟨hne, hsock other hother⟩
      · have hother : ∀ s, s ≠ sock ∧ hub.OpenFor s machineId ↔ hub.OpenFor s machineId := by
          intro s
          refine and_iff_right_of_imp fun hs heq => hmem ?_
          subst heq
          exact hself machineId hs
        simp only [hother]
        exact ⟨hlist, hhold, hsock⟩

theorem mirrors_step_iff (event : HubEvent) (htracked : Tracked hub) (h : Mirrors hub) :
    Mirrors (step hub event) ↔ Allowed hub event := by
  cases event with
  | connect sock => exact iff_of_true (mirrors_onClient h) trivial
  | register sock machine now => exact iff_of_true (mirrors_onRegister h machine now) trivial
  | close sock =>
    show Mirrors (hub.onClose sock) ↔ ∀ client, _ → _
    cases hopen : hub.openClient sock with
    | none =>
      refine iff_of_true ?_ fun client h => by cases h
      unfold TeacherHub.onClose
      rw [hopen]
      exact h
    | some client =>
      rw [mirrors_onClose_iff htracked h hopen]
      exact ⟨fun honly client' h' => by cases h'; exact honly, fun hall => hall client rfl⟩

/-! ## Runs -/

/-- The registry mirrors the live connections after every event of a run
exactly when every event of the run meets the condition. -/
theorem registry_mirrors_iff (sessionId : String) (events : List HubEvent) :
    Throughout step Mirrors (fresh sessionId) events ↔
      AllAllowed step Allowed (fresh sessionId) events :=
  throughout_iff_allAllowed (I := Tracked) (fun _ event => tracked_step event)
    (fun _ event => mirrors_step_iff event) (tracked_fresh sessionId) (mirrors_fresh sessionId)

/-- A student machine. -/
private def pc : LabMachineInfo :=
  ⟨"pc-07", "LAB-PC-07", "10.0.0.7", .studentNode, some "B2111111", none, none, none, "s1", "1.4.0",
    "Windows 11", "", none, some 16, none, none, none⟩

/-- The machine reconnects before its old connection closes: the close takes
the live connection out. -/
theorem old_close_hides_machine : ¬ ∀ sessionId events,
    Throughout step Mirrors (fresh sessionId) events := by
  intro h
  have hlast := (h "s1" [.connect 0, .register 0 pc "t0", .connect 1, .register 1 pc "t1",
    .close 0]).2.2.2.2.2
  have hlisted := (hlast "pc-07").1.2 ⟨1, ⟨some "pc-07", false, ["pc-07"]⟩, rfl, by decide⟩
  revert hlisted
  decide

end Cine.Agent.HubRegistry
