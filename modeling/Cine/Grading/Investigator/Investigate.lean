import Cine.Grading.Pipeline.InvestigationContext

/-!
# The loop of an investigation

`grading/investigator/investigate.ts`, with `dedup.ts` and the part of
`protocol.ts` that names the arguments of a call.

The models, the tools and the clock are the surroundings of the loop:
`InvestigateDeps` answers every question from a state `W` of its own, which
may be anything, so a statement about every `W` is one about every sequence
of replies, outcomes and times.  A message only goes to a model and a
rotation, a token count for each model, the text of an output and the check
by replay only into the record of the run; these are left out, and so are
the flags that `finish` sets.
-/

namespace Cine.Grading

open Cine.Lib

/-! ## Calls and the guard against repeating them -/

/-- `argsFor`: the arguments of a call, those its tool takes. -/
inductive CallArgs
  | run (input : Option String)
  | runTests (group : Option String)
  | readFile (path : Option String) (fromLine toLine : Option Int)
  | listFiles
deriving DecidableEq, Repr

structure ModelCall where
  tool : ToolName
  input : Option String
  group : Option String
  path : Option String
  fromLine : Option Int
  toLine : Option Int
deriving DecidableEq, Repr

def argsFor (call : ModelCall) : CallArgs :=
  match call.tool with
  | .run => .run call.input
  | .runTests => .runTests call.group
  | .readFile => .readFile call.path call.fromLine call.toLine
  | .listFiles => .listFiles

def argValue : Option String → ArgValue
  | some s => .str s
  | none => .other

/-- The arguments as the record of a call keeps them. -/
def CallArgs.toArgs : CallArgs → List (String × ArgValue)
  | .run input => [("input", argValue input)]
  | .runTests group => [("group", argValue group)]
  | .readFile path _ _ => [("path", argValue path), ("fromLine", .other), ("toLine", .other)]
  | .listFiles => []

/-- `DUPLICATE_LIMITS`. -/
def duplicateLimit : ToolName → Nat
  | .run => 8
  | .readFile => 4
  | .runTests => 2
  | .listFiles => 2

/-- `MAX_CONSECUTIVE_BLOCKED`. -/
def maxConsecutiveBlocked : Nat := 3

/-- `DuplicateGuard`.  The arguments name their tool, so they are the key. -/
structure DuplicateGuard where
  counts : CallArgs → Nat
  consecutiveBlocked : Nat

def DuplicateGuard.new : DuplicateGuard where
  counts := fun _ => 0
  consecutiveBlocked := 0

/-- `admit`: whether the call is let through, and the guard afterwards. -/
def DuplicateGuard.admit (guard : DuplicateGuard) (tool : ToolName) (args : CallArgs) :
    Bool × DuplicateGuard :=
  let used := guard.counts args
  if duplicateLimit tool ≤ used then
    (false, { guard with consecutiveBlocked := guard.consecutiveBlocked + 1 })
  else
    (true, { counts := Function.update guard.counts args (used + 1), consecutiveBlocked := 0 })

def DuplicateGuard.stuck (guard : DuplicateGuard) : Bool :=
  maxConsecutiveBlocked ≤ guard.consecutiveBlocked

/-! ## The surroundings -/

inductive ModelReply
  | call (calls : List ModelCall)
  | final (verdict : Verdict)

/-- How `pool.ask` ends. -/
inductive AskOutcome
  | reply (value : ModelReply) (model : String) (tokens : Nat)
  /-- `ModelsExhaustedError`. -/
  | modelsExhausted (reasons : List String) (tokens : Nat)
  /-- `DeadlineExceededError`. -/
  | deadlineExceeded (tokens : Nat)
  /-- Any other error. -/
  | thrown (error : String)

/-- What `runner.execute` answers: it never throws. -/
structure ToolOutcome where
  status : ToolCallStatus
  structured : Option StructuredResult

structure InvestigateDeps (W : Type) where
  ask : W → AskOutcome × W
  execute : String → CallArgs → W → ToolOutcome × W
  /-- `now() - started`. -/
  elapsed : W → Nat × W

structure InvestigationBudget where
  maxToolCalls : Nat
  maxWallMs : Nat
  maxTokens : Nat
  maxRounds : Nat

/-- `InvestigateComponents.tools`. -/
abbrev InvestigateComponents := ToolName → Bool

/-- `MAX_CALLS_PER_ROUND`. -/
def maxCallsPerRound : Nat := 5

/-- `STALL_AFTER_ROUNDS`. -/
def stallAfterRounds : Nat := 2

/-- `STALL_AFTER_MS`. -/
def stallAfterMs : Nat := 60000

/-! ## The loop -/

/-- The variables of `investigate`. -/
structure Inquiry (W : Type) where
  world : W
  guard : DuplicateGuard
  toolCalls : List ToolCall
  structured : StructuredResults
  modelsUsed : List String
  rounds : Nat
  /-- `inputTokens + outputTokens`. -/
  tokens : Nat
  verdict : Option Verdict
  poolFailure : Option String

namespace Inquiry

def new {W : Type} (world : W) : Inquiry W where
  world := world
  guard := .new
  toolCalls := []
  structured := []
  modelsUsed := []
  rounds := 0
  tokens := 0
  verdict := none
  poolFailure := none

variable {W : Type} (deps : InvestigateDeps W) (budget : InvestigationBudget)
  (tools : InvestigateComponents)

def okCount (s : Inquiry W) : Nat :=
  s.toolCalls.countP fun t => t.status = .ok

/-- `tc-${toolCalls.length + 1}`. -/
def nextId (s : Inquiry W) : String :=
  "tc-" ++ toString (s.toolCalls.length + 1)

def elapsed (s : Inquiry W) : Nat × Inquiry W :=
  let (ms, world) := deps.elapsed s.world
  (ms, { s with world })

/-- How `ask` ends: with a reply, with one of the two errors that the loop
knows, or with another one. -/
inductive Asked
  | reply (value : ModelReply)
  | modelsExhausted
  | deadlineExceeded
  | thrown (error : String)

def ask (s : Inquiry W) : Asked × Inquiry W :=
  let (outcome, world) := deps.ask s.world
  let s := { s with world }
  match outcome with
  | .reply value model tokens =>
    let modelsUsed := if model ∈ s.modelsUsed then s.modelsUsed else s.modelsUsed ++ [model]
    (.reply value, { s with tokens := s.tokens + tokens, modelsUsed })
  | .modelsExhausted reasons tokens =>
    (.modelsExhausted,
      { s with
        tokens := s.tokens + tokens
        poolFailure := some (String.intercalate "; " reasons) })
  | .deadlineExceeded tokens => (.deadlineExceeded, { s with tokens := s.tokens + tokens })
  | .thrown error => (.thrown error, s)

/-- One call of a reply: not run where its tool is off or the guard blocks
it, and recorded in any case. -/
def oneCall (s : Inquiry W) (call : ModelCall) : Inquiry W :=
  let id := s.nextId
  let args := argsFor call
  let record (status : ToolCallStatus) (structuredRef : Option String) : ToolCall :=
    { id, tool := call.tool, args := args.toArgs, status, structuredRef }
  if tools call.tool then
    let (admitted, guard) := s.guard.admit call.tool args
    let s := { s with guard }
    if admitted then
      let (out, world) := deps.execute id args s.world
      { s with
        world
        toolCalls := s.toolCalls ++ [record out.status (out.structured.map fun _ => id)]
        structured := s.structured ++ (out.structured.map fun r => (id, r)).toList }
    else { s with toolCalls := s.toolCalls ++ [record .blockedDuplicate none] }
  else { s with toolCalls := s.toolCalls ++ [record .error none] }

/-- The loop over the calls of one reply. -/
def runCalls : List ModelCall → Inquiry W → Option StopReason × Inquiry W
  | [], s => (none, s)
  | call :: calls, s =>
    if budget.maxToolCalls ≤ s.toolCalls.length then (some .maxToolCalls, s)
    else
      let (ms, s) := s.elapsed deps
      if budget.maxWallMs ≤ ms then (some .maxWall, s)
      else
        let s := s.oneCall deps tools call
        if s.guard.stuck then (some .blockedRepeatedly, s) else runCalls calls s

/-- How a turn of the loop ends. -/
inductive Turn
  | again
  | stop (reason : StopReason)
  | throw (error : String)

/-- `okCount() === 0 && elapsed() > STALL_AFTER_MS` from the second round on. -/
def stalled (s : Inquiry W) : Bool × Inquiry W :=
  if stallAfterRounds ≤ s.rounds ∧ s.okCount = 0 then
    let (ms, s) := s.elapsed deps
    (stallAfterMs < ms, s)
  else (false, s)

/-- The reply of a model: a verdict, or calls to run. -/
def onReply (s : Inquiry W) : ModelReply → Turn × Inquiry W
  | .final verdict => (.stop .verdict, { s with verdict := some verdict })
  | .call calls =>
    match s.runCalls deps budget tools (calls.take maxCallsPerRound) with
    | (some reason, s) => (.stop reason, s)
    | (none, s) => (.again, s)

/-- The turn from `ask` on. -/
def askTurn (s : Inquiry W) : Turn × Inquiry W :=
  match s.ask deps with
  | (.reply value, s) =>
    ({ s with rounds := s.rounds + 1 } : Inquiry W).onReply deps budget tools value
  | (.modelsExhausted, s) => (.stop .modelsExhausted, s)
  | (.deadlineExceeded, s) => (.stop .maxWall, s)
  | (.thrown error, s) => (.throw error, s)

def turn (s : Inquiry W) : Turn × Inquiry W :=
  if budget.maxRounds ≤ s.rounds then (.stop .maxRounds, s)
  else
    let (ms, s) := s.elapsed deps
    if budget.maxWallMs ≤ ms then (.stop .maxWall, s)
    else if budget.maxTokens ≤ s.tokens then (.stop .maxTokens, s)
    else if budget.maxToolCalls ≤ s.toolCalls.length then (.stop .maxToolCalls, s)
    else
      match s.stalled deps with
      | (true, s) => (.stop .stalled, s)
      | (false, s) => s.askTurn deps budget tools

/-- The loop, `fuel` turns of it: the reason it stopped for and the
variables, or the error it threw; `none` where it has not ended. -/
def loop : Nat → Inquiry W → Option (Except String (StopReason × Inquiry W))
  | 0, _ => none
  | fuel + 1, s =>
    match s.turn deps budget tools with
    | (.again, s) => loop fuel s
    | (.stop reason, s) => some (.ok (reason, s))
    | (.throw error, _) => some (.error error)

/-- The last question: a verdict from what there is, where calls or rounds
ran out.  `forcedFinal` says whether a reply came. -/
def forceFinal (reason : StopReason) (s : Inquiry W) :
    Except String (StopReason × Bool × Inquiry W) :=
  if (reason = .maxToolCalls ∨ reason = .maxRounds) ∧ 0 < s.okCount then
    match s.ask deps with
    | (.reply (.final verdict), s) => .ok (reason, true, { s with verdict := some verdict })
    | (.reply (.call _), s) => .ok (reason, true, s)
    | (.modelsExhausted, s) => .ok (.modelsExhausted, false, s)
    | (.deadlineExceeded, s) => .ok (reason, false, s)
    | (.thrown error, _) => .error error
  else .ok (reason, false, s)

end Inquiry

/-! ## What the verdict is worth -/

inductive RejectReason
  | unknownRule
  | fabricatedToolCall
  | noValidToolCall
deriving DecidableEq, Repr

structure RejectedError where
  ruleKey : String
  reason : RejectReason
deriving DecidableEq, Repr

/-- The variables of the loop over the errors of a verdict. -/
structure Accepting where
  errors : List VerdictError
  seen : List String
  rejected : List RejectedError
deriving DecidableEq, Repr

def acceptError (known allIds okIds : List String) (a : Accepting) (e : VerdictError) : Accepting :=
  if e.ruleKey ∉ known then { a with rejected := a.rejected ++ [⟨e.ruleKey, .unknownRule⟩] }
  else if e.toolCallIds.any fun id => id ∉ allIds then
    { a with rejected := a.rejected ++ [⟨e.ruleKey, .fabricatedToolCall⟩] }
  else
    let evidence := e.toolCallIds.filter fun id => id ∈ okIds
    if evidence = [] then { a with rejected := a.rejected ++ [⟨e.ruleKey, .noValidToolCall⟩] }
    else if e.ruleKey ∈ a.seen then a
    else
      { a with
        seen := a.seen ++ [e.ruleKey]
        errors := a.errors ++ [{ e with toolCallIds := evidence }] }

/-- The errors of the verdict that stand, and those that do not. -/
def acceptErrors (known : List String) (toolCalls : List ToolCall) (errors : List VerdictError) :
    Accepting :=
  let allIds := toolCalls.map ToolCall.id
  let okIds := (toolCalls.filter fun t => t.status = .ok).map ToolCall.id
  errors.foldl (acceptError known allIds okIds) { errors := [], seen := [], rejected := [] }

/-- `ZERO_CALL_REASON`, and the reason where it has none. -/
def zeroCallReason : StopReason → String
  | .stalled => "agent treo: 2 vòng, 0 lời gọi công cụ thành công"
  | .modelsExhausted => "mọi bậc model đều hỏng trước khi có lời gọi công cụ thành công nào"
  | _ => "0 lời gọi công cụ thành công — cuộc điều tra chưa bắt đầu"

/-- What an investigation ends with, as far as the loop decides it. -/
structure InquiryResult where
  kind : ResultKind
  verdict : Option Verdict
  rejected : List RejectedError
  ungradable : Option Ungradable
  toolCalls : List ToolCall
  structuredResults : StructuredResults
  rounds : Nat
  forcedFinal : Bool
  stopReason : StopReason
  modelsUsed : List String

/-- The floor of an investigation: why it has no verdict to give. -/
def ungradableReason (cases : List BundleCase) (stop : StopReason) (accepted : Option Verdict)
    {W : Type} (s : Inquiry W) : Option String :=
  let missing := uncoveredCases cases s.toolCalls s.structured
  let why := match s.poolFailure with
    | some failure =>
      if stop = .modelsExhausted ∧ failure ≠ "" then sliceFront (" — " ++ failure) 500 else ""
    | none => ""
  if s.okCount = 0 then some (zeroCallReason stop ++ why)
  else if stop = .modelsExhausted then
    some ("dừng vì models_exhausted trước khi có kết luận đọc được" ++ why)
  else if cases = [] then some "gói test rỗng — không có thước nào để chạy"
  else if missing ≠ [] then
    let groups := String.intercalate ", " (missing.map BundleCase.group).reverse.dedup.reverse
    some (s!"gói test chưa chạy đủ: {missing.length}/{cases.length} ca chưa có kết quả " ++
      s!"(nhóm {groups}) — \"không có gì để trừ\" không phải \"không có gì sai\"")
  else if accepted = none then
    some (s!"dừng vì {stop.text} trước khi có kết luận đọc được" ++ why)
  else none

/-- The end of `investigate`. -/
def finish (ruleKeys : List String) (cases : List BundleCase) (stop : StopReason)
    (forcedFinal : Bool) {W : Type} (s : Inquiry W) : InquiryResult :=
  let accepting := acceptErrors ruleKeys s.toolCalls ((s.verdict.map Verdict.errors).getD [])
  let accepted := s.verdict.map fun v => { v with errors := accepting.errors }
  let reason := ungradableReason cases stop accepted s
  { kind := if reason.isSome then .ungradable else .verdict
    verdict := if reason.isSome then none else accepted
    rejected := accepting.rejected
    ungradable := reason.map fun reason => { cls := .system, reason }
    toolCalls := s.toolCalls
    structuredResults := s.structured
    rounds := s.rounds
    forcedFinal
    stopReason := stop
    modelsUsed := s.modelsUsed }

/-- `invalidProgram`: the submission never reaches a model. -/
def invalidProgram (ungradable : Ungradable) : InquiryResult where
  kind := .ungradable
  verdict := none
  rejected := []
  ungradable := some ungradable
  toolCalls := []
  structuredResults := []
  rounds := 0
  forcedFinal := false
  stopReason := if ungradable.cls = .submission then .emptySubmission else .invalidProgram
  modelsUsed := []

section

variable {W : Type} (programProblem : InvestigationContext → Option Ungradable)
  (ctx : InvestigationContext) (deps : InvestigateDeps W) (budget : InvestigationBudget)
  (tools : InvestigateComponents)

/-- `investigate`, with `fuel` turns for its loop: `none` where these are
not enough. -/
def investigate (fuel : Nat) (world : W) : Option (Except String InquiryResult) :=
  match programProblem ctx with
  | some ungradable => some (.ok (invalidProgram ungradable))
  | none =>
    match (Inquiry.new world).loop deps budget tools fuel with
    | none => none
    | some (.error error) => some (.error error)
    | some (.ok (reason, s)) =>
      match s.forceFinal deps reason with
      | .error error => some (.error error)
      | .ok (stop, forcedFinal, s) =>
        some (.ok (finish (ctx.rules.map RuleEntry.ruleKey)
          (ctx.cases.map fun c => { name := c.name, group := c.group }) stop forcedFinal s))

end

end Cine.Grading
