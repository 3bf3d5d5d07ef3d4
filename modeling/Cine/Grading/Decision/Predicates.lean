import Cine.Grading.Decision.Types
import Cine.Lib.OrderedMap
import Cine.Lib.Utf16

/-!
# Evaluating the predicate of a rule

`grading/decision/predicates.ts`.  A predicate is evaluated on tool results
that are already stored; nothing is run.  Only `test_group_failed` can be
measured so far, and `absent` needs a pass of every case of the group: not
having seen a case fail is not "no error".

`scanGroup` is the loop over the tool calls and `judgeGroup` the verdict on
what it collected.
-/

namespace Cine.Grading

open Cine.Lib

/-- `FAILED`: the ends of a case that count as not passed.  `timeout` is
not one of them. -/
def failedStatuses : List CaseStatus :=
  [.fail, .runtimeCrash, .recursionLimit, .outputLimit]

/-- `NEEDS`: what each pattern that cannot be measured yet is waiting for. -/
def needs : RulePredicate → String
  | .testGroupFailed _ => ""
  | .complexityExceedsRequired => "cần run_scaled (bước 4) — máy chưa đo được"
  | .callsFunction _ => "cần ast_query (bước 5) — máy chưa đo được"
  | .noRecursion _ => "cần ast_query (bước 5) — máy chưa đo được"

/-- `unmeasured(reason)`. -/
def unmeasured (reason : String) : PredicateOutcome :=
  { state := .unmeasured, toolCallIds := [], reason := some reason }

/-- Whether code measures the predicate; only then is the model kept from
proposing the rule. -/
def isMachineChecked : Option RulePredicate → Bool
  | some (.testGroupFailed _) => true
  | _ => false

/-! ## The loop over the tool calls -/

/-- What was seen of one case: every end it had, and the calls in which it
failed. -/
structure SeenCase where
  statuses : List CaseStatus
  failedIn : List String
deriving DecidableEq, Repr

/-- The state of the loop over the tool calls. -/
structure GroupScan where
  compileFailed : List String
  compiledSomewhere : Bool
  seen : OrderedMap String SeenCase

/-- One case result of a call that compiled. -/
def scanCase (group callId : String) (seen : OrderedMap String SeenCase) (c : TestCaseResult) :
    OrderedMap String SeenCase :=
  if c.group ≠ some group then seen
  else
    let e := (seen.get? c.name).getD ⟨[], []⟩
    seen.set c.name
      { statuses := insertLast e.statuses c.status
        failedIn := if c.status ∈ failedStatuses then insertLast e.failedIn callId else e.failedIn }

def scanCall (group : String) (structured : StructuredResults) (s : GroupScan) (t : ToolCall) :
    GroupScan :=
  match t.runTestsResult structured with
  | none => s
  | some (compile, results) =>
    if compileFailed compile then
      if t.stringArg "group" = none ∨ t.stringArg "group" = some group then
        { s with compileFailed := s.compileFailed ++ [t.id] }
      else s
    else
      { s with
        compiledSomewhere := true
        seen := results.foldl (scanCase group t.id) s.seen }

/-- The loop over the tool calls. -/
def scanGroup (group : String) (structured : StructuredResults) (toolCalls : List ToolCall) :
    GroupScan :=
  toolCalls.foldl (scanCall group structured) ⟨[], false, .empty⟩

/-! ## The verdict on what was seen -/

/-- The cases that failed and never passed. -/
def GroupScan.solid (s : GroupScan) : List SeenCase :=
  s.seen.values.filter (fun e => e.failedIn ≠ [] ∧ .pass ∉ e.statuses)

/-- The judgement after the loop, in the order of the source: a solid
failure stands before every "not stable". -/
def judgeGroup (expected : List String) (toolCalls : List ToolCall) (s : GroupScan) :
    PredicateOutcome :=
  if s.solid ≠ [] then
    { state := .present
      toolCallIds := sortStrings (s.solid.flatMap SeenCase.failedIn).eraseDups
      reason := none }
  else if s.compileFailed ≠ [] ∧ s.compiledSomewhere then
    unmeasured "kết quả không ổn định giữa các lần chạy — biên dịch lúc được lúc không"
  else if s.compileFailed ≠ [] then
    { state := .present, toolCallIds := s.compileFailed, reason := some "bài không biên dịch" }
  else if s.seen.values.any (fun e => e.failedIn ≠ [] ∧ .pass ∈ e.statuses) then
    unmeasured "kết quả không ổn định giữa các lần chạy"
  else if s.seen.values.any (fun e => .timeout ∈ e.statuses) then
    unmeasured "hết giờ — chưa tách được chậm với treo"
  else if expected.all (fun name => (s.seen.get? name).any (fun e => .pass ∈ e.statuses)) then
    { state := .absent
      toolCallIds :=
        (toolCalls.filter (fun t => t.tool = .runTests ∧ t.status = .ok)).map ToolCall.id
      reason := none }
  else unmeasured "chưa chạy đủ các ca của nhóm"

/-- The outcome of a predicate on the stored results. -/
def evaluatePredicate (p : RulePredicate) (bundle : List BundleCase) (toolCalls : List ToolCall)
    (structured : StructuredResults) : PredicateOutcome :=
  match p with
  | .testGroupFailed group =>
    let expected := (bundle.filter (fun c => c.group = group)).map BundleCase.name
    if expected = [] then unmeasured s!"nhóm \"{group}\" không có trong gói test"
    else judgeGroup expected toolCalls (scanGroup group structured toolCalls)
  | p => unmeasured (needs p)

@[simp] theorem unmeasured_state (reason : String) : (unmeasured reason).state = .unmeasured := rfl

@[simp] theorem isMachineChecked_testGroupFailed (group : String) :
    isMachineChecked (some (.testGroupFailed group)) = true := rfl

theorem evaluatePredicate_unmeasured {p : RulePredicate} (h : isMachineChecked (some p) = false)
    (bundle : List BundleCase) (toolCalls : List ToolCall) (structured : StructuredResults) :
    (evaluatePredicate p bundle toolCalls structured).state = .unmeasured := by
  cases p with
  | testGroupFailed group => simp at h
  | callsFunction name => rfl
  | complexityExceedsRequired => rfl
  | noRecursion functionName => rfl

theorem isMachineChecked_of_measured {p : RulePredicate} {bundle : List BundleCase}
    {toolCalls : List ToolCall} {structured : StructuredResults}
    (h : (evaluatePredicate p bundle toolCalls structured).state ≠ .unmeasured) :
    isMachineChecked (some p) = true := by
  by_contra hp
  exact h (evaluatePredicate_unmeasured (Bool.eq_false_iff.2 hp) bundle toolCalls structured)

end Cine.Grading
