import Cine.Lib.Number

/-!
# The data of an investigation

The types of `grading/investigator/types.ts`, of `sandbox/contract.ts` and
of `grading/investigator/challenge.ts` that the decision reads.  A field
that no modelled function reads (a diff, a duration, a host fingerprint, a
token count) is left out.

An argument of a tool call is any JSON value.  The grading code only ever
asks whether it is a string, so `ArgValue` keeps the string and forgets
the rest.
-/

namespace Cine.Grading

open Cine.Lib

/-! ## Sandbox results -/

/-- `caseStatus`: how one test case ended. -/
inductive CaseStatus
  | pass
  | fail
  | ran
  | timeout
  | runtimeCrash
  | recursionLimit
  | outputLimit
deriving DecidableEq, Repr

structure CompileInfo where
  ok : Bool
deriving DecidableEq, Repr

/-- The four tools of an investigation, `TOOL_NAMES`. -/
inductive ToolName
  | run
  | runTests
  | readFile
  | listFiles
deriving DecidableEq, Repr

inductive ToolCallStatus
  | ok
  | error
  | blockedDuplicate
  | unavailable
deriving DecidableEq, Repr

/-- The value of an argument of a tool call. -/
inductive ArgValue
  | str (s : String)
  | other
deriving DecidableEq, Repr

structure ToolCall where
  id : String
  tool : ToolName
  args : List (String × ArgValue)
  status : ToolCallStatus
  structuredRef : Option String
deriving DecidableEq, Repr

/-- `typeof t.args[name] === 'string' ? t.args[name] : null`. -/
def ToolCall.stringArg (t : ToolCall) (name : String) : Option String :=
  match t.args.lookup name with
  | some (.str s) => some s
  | _ => none

structure TestCaseResult where
  name : String
  group : Option String
  status : CaseStatus
deriving DecidableEq, Repr

/-- The structured part of a tool call. -/
inductive StructuredResult
  | runTests (compile : Option CompileInfo) (cases : List TestCaseResult)
  | run (compile : Option CompileInfo)
deriving DecidableEq, Repr

/-- `s.compile && !s.compile.ok`. -/
def compileFailed : Option CompileInfo → Bool
  | some c => !c.ok
  | none => false

/-- `structuredResults`, a record from references to structured parts. -/
abbrev StructuredResults := List (String × StructuredResult)

/-- The compile information and the case results of a tool call, where it
is a successful `run_tests` call with a structured part of that kind.  An
empty reference counts as none, since the source tests it for truth. -/
def ToolCall.runTestsResult (t : ToolCall) (structured : StructuredResults) :
    Option (Option CompileInfo × List TestCaseResult) :=
  if t.tool ≠ .runTests ∨ t.status ≠ .ok then none
  else
    match t.structuredRef with
    | none => none
    | some ref =>
      if ref = "" then none
      else
        match structured.lookup ref with
        | some (.runTests compile cases) => some (compile, cases)
        | _ => none

/-- The compile information of a tool call, where it is a successful `run`
call with a structured part of that kind. -/
def ToolCall.runResult (t : ToolCall) (structured : StructuredResults) :
    Option (Option CompileInfo) :=
  if t.tool ≠ .run ∨ t.status ≠ .ok then none
  else
    match t.structuredRef with
    | none => none
    | some ref =>
      match structured.lookup ref with
      | some (.run compile) => some compile
      | _ => none

/-- The compile information of a successful call of either tool that compiles
the submission. -/
def ToolCall.compileResult (t : ToolCall) (structured : StructuredResults) :
    Option (Option CompileInfo) :=
  match t.runTestsResult structured with
  | some (compile, _) => some compile
  | none => t.runResult structured

/-! ## The verdict of the model -/

structure VerdictError where
  ruleKey : String
  toolCallIds : List String
deriving DecidableEq, Repr

structure Verdict where
  errors : List VerdictError
  /-- The descriptions of the errors that no rule matches. -/
  missingRules : List String
deriving DecidableEq, Repr

/-! ## The investigation and its result -/

inductive StopReason
  | verdict
  | maxToolCalls
  | maxWall
  | maxTokens
  | maxRounds
  | stalled
  | blockedRepeatedly
  | modelsExhausted
  | invalidProgram
  | emptySubmission
deriving DecidableEq, Repr

/-- The source's text for a stop reason. -/
def StopReason.text : StopReason → String
  | .verdict => "verdict"
  | .maxToolCalls => "max_tool_calls"
  | .maxWall => "max_wall"
  | .maxTokens => "max_tokens"
  | .maxRounds => "max_rounds"
  | .stalled => "stalled"
  | .blockedRepeatedly => "blocked_repeatedly"
  | .modelsExhausted => "models_exhausted"
  | .invalidProgram => "invalid_program"
  | .emptySubmission => "empty_submission"

inductive InvestigationFlag
  | replayMismatch
  | replayUnverified
  | budgetExhausted
  | injectionSuspected
  | evidenceRejected
deriving DecidableEq, Repr

/-- The source's text for a flag. -/
def InvestigationFlag.text : InvestigationFlag → String
  | .replayMismatch => "replay_mismatch"
  | .replayUnverified => "replay_unverified"
  | .budgetExhausted => "budget_exhausted"
  | .injectionSuspected => "injection_suspected"
  | .evidenceRejected => "evidence_rejected"

inductive InjectionSource
  | submissionPattern
  | toolOutput
  | modelClaimWithQuote
  | modelClaimWithoutQuote
deriving DecidableEq, Repr

def InjectionSource.text : InjectionSource → String
  | .submissionPattern => "submission_pattern"
  | .toolOutput => "tool_output"
  | .modelClaimWithQuote => "model_claim_with_quote"
  | .modelClaimWithoutQuote => "model_claim_without_quote"

inductive UngradableClass
  | system
  | submission
deriving DecidableEq, Repr

/-- Why there is no score, and whose fault it is. -/
structure Ungradable where
  cls : UngradableClass
  reason : String
deriving DecidableEq, Repr

structure Investigation where
  toolCalls : List ToolCall
  structuredResults : StructuredResults
  /-- `budget.stopReason`. -/
  stopReason : StopReason
  modelsUsed : List String
deriving DecidableEq, Repr

inductive ResultKind
  | verdict
  | ungradable
deriving DecidableEq, Repr

structure InvestigationResult (K : Type) where
  kind : ResultKind
  verdict : Option Verdict
  ungradable : Option Ungradable
  flags : List InvestigationFlag
  /-- Absent in old records, and then read as empty. -/
  injectionSources : Option (List InjectionSource)
  confidenceCap : K
  investigation : Investigation

/-! ## The challenge of a verdict -/

inductive ChallengeStatus
  | confirmed
  | refuted
  | unverified
deriving DecidableEq, Repr

structure ErrorConclusion where
  ruleKey : String
  status : ChallengeStatus
deriving DecidableEq, Repr

/-- The conclusions of one lens, one for each error it was shown. -/
structure ChallengeConclusion where
  challenger : String
  perError : List ErrorConclusion
deriving DecidableEq, Repr

structure CaseLensNote where
  lens : String
  suspected : Bool
  concluded : Bool
  note : String
deriving DecidableEq, Repr

structure StoredChallenge where
  perError : List ChallengeConclusion
  caseNotes : List CaseLensNote
deriving DecidableEq, Repr

end Cine.Grading
