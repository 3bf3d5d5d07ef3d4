import Cine.Grading.AiProvider.ProviderFailure
import Cine.Lib.OrderedMap
import Cine.Lib.Utf16

/-!
# The pool of model tiers

`grading/investigator/model-pool.ts`.  A pool asks its tiers in order and
remembers the tiers that it has excluded, for as long as an investigation
lasts.

The clock, the providers and the sleep are functions of a world.  Time goes
by in a call and in a sleep, and a reading of the clock takes none.  The
fields of a request other than its time limit are handed through, and so
are they here.  A price and a ceiling of a tier are read by others.

`Asking.attempts` is a history that the code does not keep: the calls of one
`ask`, in order.
-/

namespace Cine.Grading

open Cine.Lib

/-! ## Tiers, usage and calls -/

structure ModelTier where
  label : String
  model : String
deriving DecidableEq, Repr

structure ChatUsage where
  inputTokens : Nat
  outputTokens : Nat
  cacheReadTokens : Nat
  cacheCreationTokens : Nat
deriving DecidableEq, Repr

def ChatUsage.zero : ChatUsage := ⟨0, 0, 0, 0⟩

/-- `addUsage`. -/
def ChatUsage.add (a b : ChatUsage) : ChatUsage where
  inputTokens := a.inputTokens + b.inputTokens
  outputTokens := a.outputTokens + b.outputTokens
  cacheReadTokens := a.cacheReadTokens + b.cacheReadTokens
  cacheCreationTokens := a.cacheCreationTokens + b.cacheCreationTokens

structure ModelUsage where
  inputTokens : Nat
  outputTokens : Nat
deriving DecidableEq, Repr

abbrev UsageByModel := OrderedMap String ModelUsage

def UsageByModel.charge (spentBy : UsageByModel) (model : String) (u : ChatUsage) :
    UsageByModel :=
  let cur := (spentBy.get? model).getD ⟨0, 0⟩
  spentBy.set model ⟨cur.inputTokens + u.inputTokens, cur.outputTokens + u.outputTokens⟩

structure ChatTextRequest (R : Type) where
  fields : R
  timeoutMs : Option Int
deriving DecidableEq

/-- How a call to a provider ends: with a text, or with an error, its own
text and the usage that is attached to it. -/
inductive CallResult
  | reply (content : String) (usage : ChatUsage) (finishReason : Option String)
  | failed (error : ProviderError) (text : String) (usage : Option ChatUsage)

/-- The tokens that a call reports. -/
def CallResult.usage : CallResult → ChatUsage
  | reply _ usage _ => usage
  | failed _ _ usage => usage.getD .zero

structure TierRotation where
  source : String
  reason : String
deriving DecidableEq, Repr

/-- `MIN_ATTEMPT_MS`. -/
def minAttemptMs : Int := 1000

/-- `DEFAULT_TIMEOUT_MS`. -/
def defaultTimeoutMs : Int := 90000

/-! ## Texts -/

def describeUnreadable (content : String) (finishReason : Option String) : String :=
  let text := (trim content).toList
  let first :=
    if text.head? = some '{' then "bắt đầu bằng \x7b"
    else if "```".toList.isPrefixOf text then "bọc trong ```"
    else "không bắt đầu bằng \x7b"
  let last :=
    if text.getLast? = some '}' then "kết thúc bằng \x7d" else "KHÔNG kết thúc bằng \x7d"
  let size := (utf16 content).length
  let finish := finishReason.getD "không rõ"
  s!"{size} ký tự, {first}, {last}, finish_reason={finish}"

/-- `describe` of an error whose text as a string is `text`. -/
def describeError (error : ProviderError) (text : String) : String :=
  let parts := [error.status.map fun n => s!"HTTP {n}", error.code, error.message].filterMap fun p =>
    p.filter (· ≠ "")
  if parts = [] then text else " ".intercalate parts

def ProviderFailureKind.text : ProviderFailureKind → String
  | .transient => "transient"
  | .tierDead => "tier_dead"
  | .badOutput => "bad_output"

/-- The reason of a tier that gave two texts that cannot be read. -/
def unreadableReason (unreadable : List String) : String :=
  let parts := unreadable.zipIdx.map fun (d, i) => s!"lần {i + 1}: {d}"
  let all := "; ".intercalate parts
  s!"bad_output: phản hồi không đọc được ({all})"

/-! ## The state of `ask` -/

/-- A call to a tier, with the time that was left when it started. -/
structure Attempt (R : Type) where
  tier : ModelTier
  request : ChatTextRequest R
  left : Option Int
  result : CallResult

/-- The variables of `ask`, with the excluded tiers of the pool. -/
structure Asking (R W : Type) where
  world : W
  excluded : List String
  rotations : List TierRotation
  reasons : List String
  spent : ChatUsage
  spentBy : UsageByModel
  attempts : List (Attempt R)

/-- The variables of the loop over one tier. -/
structure Tally where
  badOutputs : Nat
  transients : Nat
  unreadable : List String

def Tally.start : Tally := ⟨0, 0, []⟩

/-- How `ask` ends.  The usage, the rotations and the reasons that go with
it are the ones of the state. -/
inductive AskEnd (T : Type)
  | reply (value : T) (model : String)
  /-- `DeadlineExceededError`. -/
  | deadlineExceeded
  /-- `ModelsExhaustedError`. -/
  | modelsExhausted
deriving DecidableEq

/-- How one pass of the loop over a tier ends. -/
inductive Pass (T : Type)
  | again (t : Tally)
  | nextTier
  | ends (e : AskEnd T)

/-- `ModelPool`, with the providers and the sleep. -/
structure PoolDeps (R W : Type) where
  tiers : List ModelTier
  transientRetries : Nat
  call : ModelTier → ChatTextRequest R → W → CallResult × W
  sleep : Nat → W → W

/-- The arguments of `ask`. -/
structure AskInput (R W T : Type) where
  request : ChatTextRequest R
  parse : String → Option T
  deadline : Option Int
  now : W → Int

namespace Asking

variable {R W : Type}

/-- `spent` and `charge`. -/
def charge (s : Asking R W) (model : String) (u : ChatUsage) : Asking R W :=
  { s with spent := s.spent.add u, spentBy := s.spentBy.charge model u }

def exclude (s : Asking R W) (tier : ModelTier) (reason : String) : Asking R W :=
  { s with
    excluded := if tier.label ∈ s.excluded then s.excluded else s.excluded ++ [tier.label]
    rotations := s.rotations ++ [⟨tier.label, reason⟩]
    reasons := s.reasons ++ [s!"{tier.label}: {reason}"] }

def called (s : Asking R W) (a : Attempt R) (world : W) : Asking R W :=
  { s with world := world, attempts := s.attempts ++ [a] }

end Asking

/-! ## The loops -/

namespace PoolDeps

variable {R W T : Type} (deps : PoolDeps R W) (input : AskInput R W T)

/-- `left()`: nothing where there is no deadline. -/
def left (w : W) : Option Int := input.deadline.map fun deadline => deadline - input.now w

/-- Less than `ms` is left. -/
def isShort (left : Option Int) (ms : Int) : Bool := left.any fun l => l < ms

def attemptRequest (left : Option Int) : ChatTextRequest R :=
  let timeoutMs := input.request.timeoutMs.getD defaultTimeoutMs
  { input.request with timeoutMs := some (left.elim timeoutMs (min timeoutMs)) }

/-- The rest of the loop after a reply. -/
def onReply (tier : ModelTier) (t : Tally) (content : String) (finishReason : Option String)
    (s : Asking R W) : Pass T × Asking R W :=
  match input.parse content with
  | some value => (.ends (.reply value tier.model), s)
  | none =>
    let unreadable := t.unreadable ++ [describeUnreadable content finishReason]
    if t.badOutputs + 1 ≥ 2 then (.nextTier, s.exclude tier (unreadableReason unreadable))
    else (.again { t with badOutputs := t.badOutputs + 1, unreadable := unreadable }, s)

/-- The rest of the catch block. -/
def onError (tier : ModelTier) (t : Tally) (error : ProviderError) (text : String)
    (s : Asking R W) : Pass T × Asking R W :=
  let kind := classifyProviderFailure error
  let reason := s!"{kind.text}: {describeError error text}"
  if kind = .badOutput ∧ t.badOutputs + 1 < 2 then
    (.again { t with badOutputs := t.badOutputs + 1 }, s)
  else if kind = .transient ∧ t.transients < deps.transientRetries then
    let wait := 1000 * (t.transients + 1)
    if isShort (left input s.world) (minAttemptMs + wait) then (.ends .deadlineExceeded, s)
    else
      (.again { t with transients := t.transients + 1 },
        { s with world := deps.sleep wait s.world })
  else (.nextTier, s.exclude tier reason)

/-- The loop from the end of a call on. -/
def onResult (tier : ModelTier) (t : Tally) (result : CallResult) (s : Asking R W) :
    Pass T × Asking R W :=
  match result with
  | .reply content usage finishReason =>
    onReply input tier t content finishReason (s.charge tier.model usage)
  | .failed error text usage =>
    deps.onError input tier t error text (usage.elim s (s.charge tier.model))

/-- One pass of the loop over a tier. -/
def pass (tier : ModelTier) (t : Tally) (s : Asking R W) : Pass T × Asking R W :=
  let left := left input s.world
  if isShort left minAttemptMs then (.ends .deadlineExceeded, s)
  else
    let request := attemptRequest input left
    let (result, world) := deps.call tier request s.world
    deps.onResult input tier t result (s.called ⟨tier, request, left, result⟩ world)

/-- The loop over a tier: nothing where the fuel does not suffice, and
`none` inside where the next tier is to be asked. -/
def askTier (tier : ModelTier) : Nat → Tally → Asking R W → Option (Option (AskEnd T) × Asking R W)
  | 0, _, _ => none
  | fuel + 1, t, s =>
    match deps.pass input tier t s with
    | (.again t, s) => askTier tier fuel t s
    | (.nextTier, s) => some (none, s)
    | (.ends e, s) => some (some e, s)

/-- The loop over the tiers. -/
def askTiers : List ModelTier → Asking R W → Option (AskEnd T × Asking R W)
  | [], s => some (.modelsExhausted, s)
  | tier :: tiers, s =>
    if tier.label ∈ s.excluded then askTiers tiers s
    else
      match deps.askTier input tier (deps.transientRetries + 2) .start s with
      | none => none
      | some (some e, s) => some (e, s)
      | some (none, s) => askTiers tiers s

def ask (excluded : List String) (w : W) : Option (AskEnd T × Asking R W) :=
  deps.askTiers input deps.tiers
    { world := w
      excluded := excluded
      rotations := []
      reasons := []
      spent := .zero
      spentBy := .empty
      attempts := [] }

/-- One `ask` after the other, on one pool. -/
def askAll : List (AskInput R W T) → List String → W → Option (List (AskEnd T × Asking R W))
  | [], _, _ => some []
  | input :: inputs, excluded, w =>
    match deps.ask input excluded w with
    | none => none
    | some run => (askAll inputs run.2.excluded run.2.world).map (run :: ·)

end PoolDeps

end Cine.Grading
