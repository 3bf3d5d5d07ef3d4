import Cine.Lib.Utf16

/-!
# The reader of a verdict

`grading/investigator/verdict-reader.ts`.  A reply is read without its
reasoning blocks: as one JSON text, or else as the JSON objects that stand
in it, which have to agree.

A character comes with its place in the reply, so that the characters a
value is read from are known.  The JSON reader and the canonical text of a
value are parameters.
-/

namespace Cine.Grading

open Cine.Lib

/-- A character and its place in the reply. -/
abbrev Placed := Char × Nat

/-- The characters of a reply. -/
def place (content : String) : List Placed := content.toList.zipIdx

/-- The text of some characters. -/
def textOf (l : List Placed) : String := String.ofList (l.map Prod.fst)

/-! ## Tags -/

inductive ReasoningKind
  | think
  | thinking
  | reasoning
deriving DecidableEq, Repr

def ReasoningKind.name : ReasoningKind → String
  | .think => "think"
  | .thinking => "thinking"
  | .reasoning => "reasoning"

/-- The rest behind a name, in either letter case. -/
def dropName : List Char → List Placed → Option (List Placed)
  | [], l => some l
  | _ :: _, [] => none
  | n :: name, p :: l => if p.1.toLower = n then dropName name l else none

/-- A character of a word, for `\b`. -/
def isWordChar (c : Char) : Bool := c.isAlphanum || c = '_'

/-- The rest behind an opening tag of the kind. -/
def dropOpen (kind : ReasoningKind) (l : List Placed) : Option (List Placed) :=
  match l with
  | p :: l =>
    if p.1 = '<' then
      (dropName kind.name.toList l).bind fun rest =>
        if rest.head?.any fun q => isWordChar q.1 then none
        else
          match rest.dropWhile fun q => q.1 ≠ '>' with
          | [] => none
          | _ :: after => some after
    else none
  | [] => none

/-- `OPEN_TAG_AT`: the kind of the opening tag that stands in front, and the
rest behind it. -/
def openTagAt (l : List Placed) : Option (ReasoningKind × List Placed) :=
  [ReasoningKind.think, .thinking, .reasoning].findSome? fun kind =>
    (dropOpen kind l).map (kind, ·)

/-- The rest behind a closing tag of the kind that stands in front. -/
def dropClose (kind : ReasoningKind) (l : List Placed) : Option (List Placed) :=
  match l with
  | p :: q :: l =>
    if p.1 = '<' ∧ q.1 = '/' then
      (dropName kind.name.toList l).bind fun rest =>
        match rest.dropWhile fun r => isSpace r.1 with
        | r :: after => if r.1 = '>' then some after else none
        | [] => none
    else none
  | _ => none

/-- The rest behind the first closing tag of the kind. -/
def findClose (kind : ReasoningKind) : List Placed → Option (List Placed)
  | [] => none
  | p :: l =>
    match dropClose kind (p :: l) with
    | some after => some after
    | none => findClose kind l

/-! ## Objects -/

/-- Where a scan stands with respect to the JSON objects. -/
structure Scan where
  depth : Nat
  inString : Bool
  escaped : Bool
deriving DecidableEq, Repr

namespace Scan

def start : Scan := ⟨0, false, false⟩

def isOutside (s : Scan) : Bool := s.depth = 0 ∧ s.inString = false

/-- One character further. -/
def next (s : Scan) (c : Char) : Scan :=
  if s.inString then
    if s.escaped then { s with escaped := false }
    else if c = '\\' then { s with escaped := true }
    else if c = '"' then { s with inString := false }
    else s
  else if c = '"' ∧ 0 < s.depth then { s with inString := true }
  else if c = '{' then { s with depth := s.depth + 1 }
  else if c = '}' then { s with depth := s.depth - 1 }
  else s

end Scan

/-- `stripReasoning` from a place on.  The fuel is a bound on the length. -/
def stripFrom : Nat → Scan → List Placed → List Placed
  | 0, _, _ => []
  | _ + 1, _, [] => []
  | fuel + 1, s, p :: l =>
    match if s.isOutside then openTagAt (p :: l) else none with
    | some (kind, after) =>
      match findClose kind after with
      | some rest => stripFrom fuel s rest
      | none => []
    | none => p :: stripFrom fuel (s.next p.1) l

def stripReasoning (content : List Placed) : List Placed :=
  stripFrom content.length .start content

/-- `topLevelObjects` from a place on, where `current` is the beginning of
the object that the place is in. -/
def objectsFrom : Scan → List Placed → List Placed → List (List Placed)
  | _, _, [] => []
  | s, current, p :: l =>
    let s' := s.next p.1
    let current := if s.depth = 0 ∧ s'.depth = 0 then [] else current ++ [p]
    if s.depth ≠ 0 ∧ s'.depth = 0 then current :: objectsFrom s' [] l
    else objectsFrom s' current l

def topLevelObjects (text : List Placed) : List (List Placed) := objectsFrom .start [] text

/-! ## Reading -/

inductive ReadFailure
  | empty
  | unparseable
  | conflicting
deriving DecidableEq, Repr

/-- `trim`. -/
def trimPlaced (l : List Placed) : List Placed :=
  ((l.dropWhile fun p => isSpace p.1).reverse.dropWhile fun p => isSpace p.1).reverse

section Read

variable {V : Type} (parse : String → Option V) (canonical : V → String)

/-- The value that is read, with the characters that it is read from. -/
def readPlaced (content : List Placed) : Except ReadFailure (V × List Placed) :=
  let text := trimPlaced (stripReasoning content)
  if text = [] then .error .empty
  else
    match parse (textOf text) with
    | some value => .ok (value, text)
    | none =>
      match (topLevelObjects text).filterMap fun o => (parse (textOf o)).map (·, o) with
      | [] => .error .unparseable
      | first :: others =>
        if others.any fun p => canonical p.1 ≠ canonical first.1 then .error .conflicting
        else .ok first

def readSingleJson (content : String) : Except ReadFailure V :=
  (readPlaced parse canonical (place content)).map Prod.fst

end Read

example : textOf (stripReasoning (place "a<think x>b</Think >c\x7b\"<think>\"\x7d<reasoning>d")) =
    "ac\x7b\"<think>\"\x7d" := by
  decide +kernel

end Cine.Grading
