import Cine.Grading.Investigator.Investigate
import Cine.Grading.Investigator.VerdictReader
import Cine.Lib.JsonText

/-!
# The replies of a lens

`grading/investigator/lens-protocol.ts`: what a reply of a model has to look
like for the four lenses.  All four ask for calls in one way and differ in
the conclusion.

* `ReplyReader.parseReply` reads the text of a reply, for any reader of a
  conclusion.
* The three conclusions and their readers.

The reader of JSON, its canonical text, the value of a whole number and the
lower case of a text are those of the script.
-/

namespace Cine.Grading

open Cine.Lib
open Cine.Lib.JsonText (Value Items Fields)

def lensArgsFor (call : ModelCall) : CallArgs := argsFor call

/-- A turn of a lens: calls, or a conclusion. -/
inductive LensReply (C : Type)
  | call (calls : List ModelCall)
  | final (conclusion : C)

/-- `CASE_NOTE_MAX`. -/
def caseNoteMax : Nat := 500

def clampNote (note : String) : String :=
  if (utf16 note).length ≤ caseNoteMax then note else sliceFront note (caseNoteMax - 1) ++ "…"

/-! ## Fields -/

section Fields

variable {N α : Type}

def valuesOf : Items N → List (Value N)
  | .nil => []
  | .cons v rest => v :: valuesOf rest

def readArray : Value N → Option (List (Value N))
  | .arr items => some (valuesOf items)
  | _ => none

def readText : Value N → Option String
  | .str s => some (.ofList s)
  | _ => none

def readBool : Value N → Option Bool
  | .bool b => some b
  | _ => none

/-- `max(n)` of a text. -/
def readTextUpTo (n : Nat) (v : Value N) : Option String :=
  (readText v).filter fun s => (utf16 s).length ≤ n

/-- `max(n)` of an array. -/
def readArrayUpTo (n : Nat) (read : Value N → Option α) (v : Value N) : Option (List α) :=
  ((readArray v).filter fun l => l.length ≤ n).bind fun l => l.mapM read

/-- `nullish()`. -/
def nullish (read : Value N → Option α) : Option (Value N) → Option (Option α)
  | none => some none
  | some .null => some none
  | some v => (read v).map some

/-- `default([])`. -/
def orEmpty (read : Value N → Option (List α)) : Option (Value N) → Option (List α)
  | none => some []
  | some v => read v

def property (name : String) : Value N → Option (Value N)
  | .obj fields => fields.last? name.toList
  | _ => none

end Fields

/-! ## The reader -/

/-- `TOOL_NAMES`. -/
def toolNamed : String → Option ToolName
  | "run" => some .run
  | "run_tests" => some .runTests
  | "read_file" => some .readFile
  | "list_files" => some .listFiles
  | _ => none

structure ReplyReader (N : Type) where
  parseJson : String → Option (Value N)
  canonical : Value N → String
  /-- The value of a number that is whole. -/
  whole : N → Option Int
  lowerCase : String → String

namespace ReplyReader

variable {N C : Type} (reader : ReplyReader N)

def readWhole : Value N → Option Int
  | .num n => reader.whole n
  | _ => none

/-- `callSchema`. -/
def readCall (v : Value N) : Option ModelCall := do
  let tool ← ((property "tool" v).bind readText).bind toolNamed
  let input ← nullish readText (property "input" v)
  let group ← nullish readText (property "group" v)
  let path ← nullish readText (property "path" v)
  let fromLine ← nullish reader.readWhole (property "fromLine" v)
  let toLine ← nullish reader.readWhole (property "toLine" v)
  return { tool, input, group, path, fromLine, toLine }

/-- The conclusion of a turn that calls: absent, or `null`. -/
def noConclusion : Option (Value N) → Bool
  | none => true
  | some .null => true
  | some _ => false

/-- A turn, for a reader of its conclusion. -/
def readTurn (conclusion : Value N → Option C) (v : Value N) : Option (LensReply C) := do
  let action ← (property "action" v).bind readText
  let calls ← (property "calls" v).bind readArray
  if action = "call" then
    if calls.isEmpty || !noConclusion (property "conclusion" v) then none
    else (calls.mapM reader.readCall).map .call
  else if action = "final" then ((property "conclusion" v).bind conclusion).map .final
  else none

/-- A reply of a model, for a reader of its conclusion. -/
def parseReply (conclusion : Value N → Option C) (content : String) : Option (LensReply C) :=
  match readSingleJson reader.parseJson reader.canonical content with
  | .ok v => reader.readTurn conclusion v
  | .error _ => none

end ReplyReader

/-! ## The conclusions -/

/-- What a lens may say of an error. -/
inductive ReviewStatus
  | confirmed
  | refuted
deriving DecidableEq, Repr

structure PerErrorConclusion where
  status : ReviewStatus
  toolCallIds : List String
  reason : Option String
deriving DecidableEq, Repr

structure CaseLensConclusion where
  suspected : Bool
  note : String
deriving DecidableEq, Repr

inductive RuleFinding
  | violated
  | ok
  | unsure
deriving DecidableEq, Repr

structure OmissionConclusion where
  /-- The key of a rule, with what was found of it. -/
  rules : List (String × RuleFinding)
  missedRuleKeys : List String
  note : String
deriving DecidableEq, Repr

def reviewStatusNamed : String → Option ReviewStatus
  | "confirmed" => some .confirmed
  | "refuted" => some .refuted
  | _ => none

def ruleFindingNamed : String → Option RuleFinding
  | "violated" => some .violated
  | "ok" => some .ok
  | "unsure" => some .unsure
  | _ => none

namespace ReplyReader

variable {N : Type}

/-- `perErrorConclusion`.  An empty reason counts as none. -/
def perErrorConclusion (v : Value N) : Option PerErrorConclusion := do
  let status ← ((property "status" v).bind readText).bind reviewStatusNamed
  let toolCallIds ← (property "toolCallIds" v).bind (readArrayUpTo 25 (readTextUpTo 32))
  let reason ← nullish readText (property "reason" v)
  return { status, toolCallIds, reason := (reason.filter (· ≠ "")).map clampNote }

def caseLensConclusion (v : Value N) : Option CaseLensConclusion := do
  let suspected ← (property "suspected" v).bind readBool
  let note ← (property "note" v).bind readText
  return { suspected, note := clampNote note }

variable (reader : ReplyReader N)

/-- A rule of the check list. -/
def ruleFinding (v : Value N) : Option (String × RuleFinding) := do
  let ruleKey ← (property "ruleKey" v).bind (readTextUpTo 64)
  let verdict ← ((property "verdict" v).bind readText).bind fun s =>
    ruleFindingNamed (reader.lowerCase (trim s))
  return (ruleKey, verdict)

def omissionConclusion (v : Value N) : Option OmissionConclusion := do
  let rules ← orEmpty (readArrayUpTo 60 reader.ruleFinding) (property "rules" v)
  let missedRuleKeys ← orEmpty (readArrayUpTo 30 (readTextUpTo 64)) (property "missedRuleKeys" v)
  let note ← (property "note" v).bind readText
  return { rules, missedRuleKeys, note := clampNote note }

def parsePerErrorReply : String → Option (LensReply PerErrorConclusion) :=
  reader.parseReply perErrorConclusion

def parseCaseLensReply : String → Option (LensReply CaseLensConclusion) :=
  reader.parseReply caseLensConclusion

def parseOmissionReply : String → Option (LensReply OmissionConclusion) :=
  reader.parseReply reader.omissionConclusion

end ReplyReader

end Cine.Grading
