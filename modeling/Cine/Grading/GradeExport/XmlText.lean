import Cine.Lib.ScriptText

/-!
# Text in a worksheet

`grade-export/xlsx/xml-text.ts`: what a text is written as in a worksheet,
and what is read from it; with the text cell of `sheet-patch.ts` and the
inline text of `workbook-reader.ts`.  A text is a list of code units.

Writing drops the units that XML forbids and puts entities for four
characters.  Reading takes the entities back, and then the escapes
`_xHHHH_` of spreadsheets.  The comment over the escapes knows how one is
written literally, with its underscore escaped; writing does not do it.

* `encodeXml`, `decodeXml` and the cell;
* `decodeXml_encodeXml`: what reading gives of a text that was written;
* `readBack_iff`: when this is the text without its forbidden characters.
-/

namespace Cine.Grading

open Cine.Lib

/-! ## Writing and reading -/

/-- The code units of a name in the source. -/
def asciiUnits (l : List Char) : List Nat := l.map Char.toNat

/-- `/[0-9]/`. -/
def isDigitUnit (u : Nat) : Bool := 0x30 ≤ u ∧ u ≤ 0x39

/-- `/[0-9A-Fa-f]/`. -/
def isHexUnit (u : Nat) : Bool := isDigitUnit u ∨ (0x41 ≤ u ∧ u ≤ 0x46) ∨ (0x61 ≤ u ∧ u ≤ 0x66)

def digitValue (u : Nat) : Nat :=
  if u ≤ 0x39 then u - 0x30 else if u ≤ 0x46 then u - 0x37 else u - 0x57

/-- `parseInt` of digits. -/
def parseDigits (base : Nat) (digits : List Nat) : Nat :=
  digits.foldl (fun n u => n * base + digitValue u) 0

/-- The names that `decodeXml` knows, with their `;`. -/
def namedEntities : List (List Char × Char) :=
  [(['a', 'm', 'p', ';'], '&'), (['l', 't', ';'], '<'), (['g', 't', ';'], '>'),
    (['q', 'u', 'o', 't', ';'], '"'), (['a', 'p', 'o', 's', ';'], Char.ofNat 0x27)]

/-- A number between the first `start` units and a `;`. -/
def numericEntity (base start : Nat) (isDigit : Nat → Bool) (body : List Nat) :
    Option (List Nat × Nat) :=
  let digits := (body.drop start).takeWhile isDigit
  let code := parseDigits base digits
  if digits ≠ [] ∧ (body.drop (start + digits.length)).head? = some ';'.toNat then
    some (if code ≤ 0x10FFFF then pointUnits code else [], start + digits.length + 1)
  else none

/-- `/&(#x[0-9A-Fa-f]+|#[0-9]+|amp|lt|gt|quot|apos);/`. -/
def entityRule : Rule Nat
  | [] => none
  | u :: body =>
    if u ≠ '&'.toNat then none
    else
      match namedEntities.find? fun e => (asciiUnits e.1).isPrefixOf body with
      | some (name, c) => some ([c.toNat], name.length)
      | none =>
        if (asciiUnits ['#', 'x']).isPrefixOf body then numericEntity 16 2 isHexUnit body
        else if (asciiUnits ['#']).isPrefixOf body then numericEntity 10 1 isDigitUnit body
        else none

/-- `/_x([0-9A-Fa-f]{4})_/`. -/
def escapeRule : Rule Nat
  | u :: x :: a :: b :: c :: d :: v :: _ =>
    if u = '_'.toNat ∧ x = 'x'.toNat ∧ [a, b, c, d].all isHexUnit ∧ v = '_'.toNat then
      some ([parseDigits 16 [a, b, c, d]], 6)
    else none
  | _ => none

def decodeXml (text : List Nat) : List Nat :=
  replaceAll escapeRule (replaceAll entityRule text)

/-- `/[\u0000-\u0008\u000B\u000C\u000E-\u001F\uFFFE\uFFFF]/`. -/
def isStripped (u : Nat) : Bool :=
  u ≤ 0x8 ∨ u = 0xB ∨ u = 0xC ∨ (0xE ≤ u ∧ u ≤ 0x1F) ∨ u = 0xFFFE ∨ u = 0xFFFF

/-- `text.replace(/c/g, entity)`. -/
def replaceChar (c : Char) (entity : List Char) (text : List Nat) : List Nat :=
  text.flatMap fun u => if u = c.toNat then asciiUnits entity else [u]

def encodeXml (text : List Nat) : List Nat :=
  let stripped := text.filter fun u => !isStripped u
  let amp := replaceChar '&' ['&', 'a', 'm', 'p', ';'] stripped
  let lt := replaceChar '<' ['&', 'l', 't', ';'] amp
  let gt := replaceChar '>' ['&', 'g', 't', ';'] lt
  replaceChar '"' ['&', 'q', 'u', 'o', 't', ';'] gt

/-- A sheet is written with the escaped characters, and the escape of an
underscore is read as one. -/
example :
    encodeXml (asciiUnits ['=', 'A', '&', '<', Char.ofNat 8, '"']) =
        asciiUnits ['=', 'A', '&', 'a', 'm', 'p', ';', '&', 'l', 't', ';',
          '&', 'q', 'u', 'o', 't', ';'] ∧
      decodeXml (asciiUnits ['_', 'x', '0', '0', '5', 'F', '_', 'x', '0', '0', '0', 'D', '_']) =
        asciiUnits ['_', 'x', '0', '0', '0', 'D', '_'] ∧
      decodeXml (asciiUnits ['&', '#', 'x', '4', '2', ';', '&', '#', '6', '5', ';']) =
        asciiUnits ['B', 'A'] := by
  decide +kernel

/-! ## The inline text of a cell -/

/-- The text behind a name, where it begins with the name. -/
def behind (name : List Char) (text : List Nat) : Option (List Nat) :=
  if (asciiUnits name).isPrefixOf text then some (text.drop name.length) else none

/-- `/[A-Za-z0-9_]/`. -/
def isWordUnit (u : Nat) : Bool :=
  isDigitUnit u ∨ (0x41 ≤ u ∧ u ≤ 0x5A) ∨ (0x61 ≤ u ∧ u ≤ 0x7A) ∨ u = '_'.toNat

/-- A name with its end `\b`. -/
def behindWord (name : List Char) (text : List Nat) : Option (List Nat) :=
  (behind name text).filter fun rest => !rest.head?.any isWordUnit

/-- `[\s\S]*?` in front of a name: what stands before it, and behind it. -/
def upTo (name : List Char) : List Nat → Option (List Nat × List Nat)
  | [] => none
  | u :: text =>
    match behind name (u :: text) with
    | some rest => some ([], rest)
    | none => (upTo name text).map fun (front, rest) => (u :: front, rest)

/-- How long a match is behind its first unit. -/
def matched (text rest out : List Nat) : Option (List Nat × Nat) :=
  some (out, text.length - rest.length - 1)

/-- `/<rPh\b[\s\S]*?<\/rPh>/`. -/
def phoneticRun : Rule Nat := fun text =>
  ((behindWord ['<', 'r', 'P', 'h'] text).bind (upTo ['<', '/', 'r', 'P', 'h', '>'])).bind
    fun (_, rest) => matched text rest []

/-- `/<phoneticPr\b[^>]*\/>/`. -/
def phoneticProperties : Rule Nat := fun text =>
  (behindWord ['<', 'p', 'h', 'o', 'n', 'e', 't', 'i', 'c', 'P', 'r'] text).bind fun body =>
    let attrs := body.takeWhile (· ≠ '>'.toNat)
    if attrs.getLast? = some '/'.toNat ∧ attrs.length < body.length then
      matched text (body.drop (attrs.length + 1)) []
    else none

/-- The end of an opening tag: whether it closes itself, and what stands
behind it. -/
def tagEnd : List Nat → Option (Bool × List Nat)
  | [] => none
  | u :: text =>
    if u = '>'.toNat then some (false, text)
    else if u = '/'.toNat ∧ text.head? = some '>'.toNat then some (true, text.tail)
    else tagEnd text

/-- `/<t\b[^>]*?(?:\/>|>([\s\S]*?)<\/t>)/`, with the text of the run. -/
def textRun : Rule Nat := fun text =>
  ((behindWord ['<', 't'] text).bind tagEnd).bind fun (selfClosing, body) =>
    if selfClosing then matched text body []
    else (upTo ['<', '/', 't', '>'] body).bind fun (inner, rest) =>
      matched text rest (decodeXml inner)

def textOfRuns (inner : List Nat) : List Nat :=
  let cleaned := replaceAll phoneticProperties (replaceAll phoneticRun inner)
  (matchAll textRun cleaned).flatten

/-- `/<is\b[^>]*>([\s\S]*?)<\/is>/.exec`: the text of the first match. -/
def inlineElement : List Nat → Option (List Nat)
  | [] => none
  | u :: text =>
    let found := (behindWord ['<', 'i', 's'] (u :: text)).bind fun body =>
      (upTo ['>'] body).bind fun (_, rest) => upTo ['<', '/', 'i', 's', '>'] rest
    match found with
    | some (inner, _) => some inner
    | none => inlineElement text

/-- The text of a cell of the type `inlineStr`. -/
def inlineText (cell : List Nat) : List Nat :=
  (inlineElement cell).elim [] textOfRuns

/-- What `cellXml` puts into the cell of a text. -/
def inlineCell (text : List Nat) : List Nat :=
  asciiUnits ['<', 'i', 's', '>'] ++
    (asciiUnits ['<', 't', ' ', 'x', 'm', 'l', ':', 's', 'p', 'a', 'c', 'e', '=', '"', 'p', 'r',
        'e', 's', 'e', 'r', 'v', 'e', '"', '>'] ++
      (encodeXml text ++ asciiUnits ['<', '/', 't', '>', '<', '/', 'i', 's', '>']))

/-! ## What reading gives of a written text -/

/-- What a unit is written as. -/
def escaped (u : Nat) : List Nat :=
  if u = '&'.toNat then asciiUnits ['&', 'a', 'm', 'p', ';']
  else if u = '<'.toNat then asciiUnits ['&', 'l', 't', ';']
  else if u = '>'.toNat then asciiUnits ['&', 'g', 't', ';']
  else if u = '"'.toNat then asciiUnits ['&', 'q', 'u', 'o', 't', ';']
  else [u]

theorem replaceChar_flatMap (c : Char) (entity : List Char) (l : List Nat) (f : Nat → List Nat) :
    replaceChar c entity (l.flatMap f) = l.flatMap fun u => replaceChar c entity (f u) :=
  List.flatMap_assoc

theorem replaceChar_other {c : Char} {u : Nat} (h : u ≠ c.toNat) (entity : List Char) :
    replaceChar c entity [u] = [u] := by
  unfold replaceChar
  rw [List.flatMap_singleton, if_neg h]

theorem encodeXml_eq (text : List Nat) :
    encodeXml text = (text.filter fun u => !isStripped u).flatMap escaped := by
  unfold encodeXml
  dsimp only
  generalize text.filter (fun u => !isStripped u) = l
  rw [show replaceChar '&' ['&', 'a', 'm', 'p', ';'] l = l.flatMap _ from rfl,
    replaceChar_flatMap, replaceChar_flatMap, replaceChar_flatMap]
  refine List.flatMap_congr fun u _ => ?_
  unfold escaped
  split_ifs with hamp hlt hgt hquot
  · decide
  · subst hlt
    decide
  · subst hgt
    decide
  · subst hquot
    decide
  · rw [replaceChar_other hlt, replaceChar_other hgt, replaceChar_other hquot]

theorem replaceAll_named (name : List Char) (c : Char) (rest : List Nat)
    (h : entityRule ('&'.toNat :: (asciiUnits name ++ rest)) =
      some ([c.toNat], (asciiUnits name).length)) :
    replaceAll entityRule ('&'.toNat :: (asciiUnits name ++ rest)) =
      c.toNat :: replaceAll entityRule rest :=
  replaceAll_match h

theorem replaceAll_escaped (u : Nat) (rest : List Nat) :
    replaceAll entityRule (escaped u ++ rest) = u :: replaceAll entityRule rest := by
  unfold escaped
  split_ifs with hamp hlt hgt hquot
  · subst hamp
    exact replaceAll_named ['a', 'm', 'p', ';'] '&' rest rfl
  · subst hlt
    exact replaceAll_named ['l', 't', ';'] '<' rest rfl
  · subst hgt
    exact replaceAll_named ['g', 't', ';'] '>' rest rfl
  · subst hquot
    exact replaceAll_named ['q', 'u', 'o', 't', ';'] '"' rest rfl
  · refine replaceAll_cons ?_
    unfold entityRule
    exact if_pos hamp

theorem decodeXml_encodeXml (text : List Nat) :
    decodeXml (encodeXml text) = replaceAll escapeRule (text.filter fun u => !isStripped u) := by
  unfold decodeXml
  rw [encodeXml_eq]
  generalize text.filter (fun u => !isStripped u) = l
  have hentities : replaceAll entityRule (l.flatMap escaped) = l := by
    induction l with
    | nil => rfl
    | cons u l ih => rw [List.flatMap_cons, replaceAll_escaped, ih]
  rw [hentities]

/-! ## What the reader finds in a cell -/

variable {name : List Char} {text : List Nat}

theorem behind_eq_none (hname : name.head? = some '<') (h : text.head? ≠ some '<'.toNat) :
    behind name text = none := by
  unfold behind
  refine if_neg fun hprefix => h ?_
  cases name with
  | nil => cases hname
  | cons c name =>
    obtain rfl := Option.some.inj hname
    cases text with
    | nil => cases hprefix
    | cons u text =>
      obtain ⟨hu, _⟩ := Bool.and_eq_true_iff.1 hprefix
      rw [List.head?_cons, beq_iff_eq.1 hu]

theorem upTo_front (hname : name.head? = some '<') {front : List Nat} (hfront : '<'.toNat ∉ front)
    (text : List Nat) :
    upTo name (front ++ text) = (upTo name text).map fun (a, rest) => (front ++ a, rest) := by
  induction front with
  | nil => cases h : upTo name text <;> simp [h]
  | cons u front ih =>
    rw [List.mem_cons, not_or] at hfront
    have hnone : behind name (u :: (front ++ text)) = none :=
      behind_eq_none hname fun h => hfront.1 (Option.some.inj h).symm
    rw [List.cons_append, upTo, hnone]
    dsimp only
    rw [ih hfront.2, Option.map_map]
    rfl

theorem upTo_skip {u : Nat} (h : behind name (u :: text) = none) :
    upTo name (u :: text) = (upTo name text).map fun (a, rest) => (u :: a, rest) := by
  rw [upTo, h]

theorem occurs_front {rule : Rule Nat} (hrule : ∀ t, t.head? ≠ some '<'.toNat → rule t = none)
    {front : List Nat} (hfront : '<'.toNat ∉ front) (text : List Nat) :
    Occurs rule (front ++ text) ↔ Occurs rule text := by
  induction front with
  | nil => rfl
  | cons u front ih =>
    rw [List.mem_cons, not_or] at hfront
    have hnone : rule (u :: (front ++ text)) = none :=
      hrule _ fun h => hfront.1 (Option.some.inj h).symm
    rw [List.cons_append, occurs_cons_iff, hnone, ih hfront.2]
    simp

theorem not_mem_encodeXml (text : List Nat) : '<'.toNat ∉ encodeXml text := by
  rw [encodeXml_eq, List.mem_flatMap]
  rintro ⟨u, _, hu⟩
  unfold escaped at hu
  split_ifs at hu with hamp hlt
  · revert hu
    decide
  · revert hu
    decide
  · revert hu
    decide
  · revert hu
    decide
  · exact hlt (List.mem_singleton.1 hu).symm

/-- The tag of a text run behind its `<`. -/
def runTag : List Nat :=
  asciiUnits ['t', ' ', 'x', 'm', 'l', ':', 's', 'p', 'a', 'c', 'e', '=', '"', 'p', 'r', 'e', 's',
    'e', 'r', 'v', 'e', '"', '>']

def writtenRun (text : List Nat) : List Nat :=
  '<'.toNat :: (runTag ++ (encodeXml text ++ '<'.toNat :: asciiUnits ['/', 't', '>']))

theorem upTo_writtenRun (text : List Nat) :
    upTo ['<', '/', 'i', 's', '>'] (writtenRun text ++ asciiUnits ['<', '/', 'i', 's', '>']) =
      some (writtenRun text, []) := by
  have hend : upTo ['<', '/', 'i', 's', '>'] ('<'.toNat :: (asciiUnits ['/', 't', '>'] ++
      asciiUnits ['<', '/', 'i', 's', '>'])) =
        some ('<'.toNat :: asciiUnits ['/', 't', '>'], []) := by
    decide
  unfold writtenRun
  rw [List.cons_append, upTo_skip rfl, List.append_assoc, List.append_assoc,
    upTo_front rfl (by decide), upTo_front rfl (not_mem_encodeXml text), List.cons_append, hend]
  rfl

theorem inlineElement_cell (text : List Nat) :
    inlineElement (inlineCell text) = some (writtenRun text) := by
  have hcell : inlineCell text = '<'.toNat :: 'i'.toNat :: 's'.toNat :: '>'.toNat ::
      (writtenRun text ++ asciiUnits ['<', '/', 'i', 's', '>']) := by
    unfold inlineCell writtenRun
    simp only [asciiUnits, runTag, List.map_cons, List.map_nil, List.cons_append, List.nil_append,
      List.append_assoc]
  have hword : behindWord ['<', 'i', 's'] (inlineCell text) =
      some ('>'.toNat :: (writtenRun text ++ asciiUnits ['<', '/', 'i', 's', '>'])) := by
    rw [hcell]
    rfl
  have htag : upTo ['>'] ('>'.toNat :: (writtenRun text ++ asciiUnits ['<', '/', 'i', 's', '>'])) =
      some ([], writtenRun text ++ asciiUnits ['<', '/', 'i', 's', '>']) := rfl
  rw [hcell] at hword ⊢
  unfold inlineElement
  rw [hword]
  dsimp only [Option.bind_some]
  rw [htag]
  dsimp only [Option.bind_some]
  rw [upTo_writtenRun]

theorem not_occurs_writtenRun {rule : Rule Nat}
    (hrule : ∀ t, t.head? ≠ some '<'.toNat → rule t = none)
    (hopen : ∀ rest, rule ('<'.toNat :: 't'.toNat :: rest) = none)
    (hclose : ∀ rest, rule ('<'.toNat :: '/'.toNat :: rest) = none) (text : List Nat) :
    ¬ Occurs rule (writtenRun text) := by
  have hend : ¬ Occurs rule ('<'.toNat :: asciiUnits ['/', 't', '>']) := by
    rw [occurs_cons_iff, ← List.append_nil (asciiUnits ['/', 't', '>']),
      occurs_front hrule (by decide)]
    rintro (hsome | ⟨t, ht, hsome⟩)
    · rw [List.append_nil, show rule ('<'.toNat :: asciiUnits ['/', 't', '>']) = none from
        hclose _] at hsome
      cases hsome
    · obtain rfl := List.suffix_nil.1 ht
      rw [hrule [] (by simp)] at hsome
      cases hsome
  unfold writtenRun
  rw [occurs_cons_iff, occurs_front hrule (by decide), occurs_front hrule (not_mem_encodeXml text)]
  rintro (hsome | hoccurs)
  · rw [show rule ('<'.toNat :: (runTag ++ _)) = none from hopen _] at hsome
    cases hsome
  · exact hend hoccurs

theorem behindWord_eq_none (h : behind name text = none) : behindWord name text = none := by
  unfold behindWord
  rw [h]
  rfl

theorem inlineText_cell (text : List Nat) :
    inlineText (inlineCell text) = decodeXml (encodeXml text) := by
  have hruns : ¬ Occurs phoneticRun (writtenRun text) := by
    refine not_occurs_writtenRun (fun t ht => ?_) (fun _ => rfl) (fun _ => rfl) text
    unfold phoneticRun
    rw [behindWord_eq_none (behind_eq_none rfl ht)]
    rfl
  have hproperties : ¬ Occurs phoneticProperties (writtenRun text) := by
    refine not_occurs_writtenRun (fun t ht => ?_) (fun _ => rfl) (fun _ => rfl) text
    unfold phoneticProperties
    rw [behindWord_eq_none (behind_eq_none rfl ht)]
    rfl
  have hbody : upTo ['<', '/', 't', '>'] (encodeXml text ++ '<'.toNat :: asciiUnits ['/', 't', '>'])
      = some (encodeXml text, []) := by
    rw [upTo_front rfl (not_mem_encodeXml text)]
    have hend : upTo ['<', '/', 't', '>'] ('<'.toNat :: asciiUnits ['/', 't', '>']) =
        some ([], []) := by decide
    rw [hend]
    simp
  have hrun : textRun (writtenRun text) =
      some (decodeXml (encodeXml text), (writtenRun text).length - 1) := by
    have htag : (behindWord ['<', 't'] (writtenRun text)).bind tagEnd =
        some (false, encodeXml text ++ '<'.toNat :: asciiUnits ['/', 't', '>']) := rfl
    unfold textRun
    rw [htag]
    dsimp only [Option.bind_some]
    rw [if_neg Bool.false_ne_true, hbody]
    rfl
  have hmatch : matchAll textRun (writtenRun text) = [decodeXml (encodeXml text)] := by
    have hsplit : writtenRun text = '<'.toNat :: ((writtenRun text).tail ++ []) := by
      rw [List.append_nil]
      rfl
    rw [hsplit] at hrun ⊢
    refine matchAll_match (hrun.trans ?_)
    rw [List.append_nil]
    rfl
  unfold inlineText textOfRuns
  rw [inlineElement_cell]
  dsimp only [Option.elim_some]
  rw [replaceAll_eq_self hruns, replaceAll_eq_self hproperties, hmatch]
  simp

/-! ## The round trip -/

def isXmlChar (p : Nat) : Bool :=
  p = 0x9 ∨ p = 0xA ∨ p = 0xD ∨ (0x20 ≤ p ∧ p ≤ 0xD7FF) ∨ (0xE000 ≤ p ∧ p ≤ 0xFFFD) ∨
    (0x10000 ≤ p ∧ p ≤ 0x10FFFF)

/-- The text without the characters that XML 1.0 forbids. -/
def withoutForbidden (text : List Nat) : List Nat :=
  ((codePoints text).filter isXmlChar).flatMap pointUnits

/-- `text.isWellFormed()`: no half of a surrogate pair stands alone. -/
def IsWellFormed (text : List Nat) : Prop := ∀ p ∈ codePoints text, isSurrogate p = false

theorem filter_pointUnits (p : Nat) (hp : p < 0x110000) :
    (isSurrogate p = true ∧ isXmlChar p = false ∧ isStripped p = false ∧ pointUnits p = [p]) ∨
      (isSurrogate p = false ∧ (pointUnits p).filter (fun u => !isStripped u) =
        if isXmlChar p then pointUnits p else []) := by
  unfold pointUnits
  by_cases hsurrogate : isSurrogate p = true
  · refine Or.inl ⟨hsurrogate, ?_⟩
    simp only [isSurrogate, isXmlChar, isStripped, decide_eq_true_iff, decide_eq_false_iff_not]
      at hsurrogate ⊢
    rw [if_pos (by omega)]
    exact ⟨by omega, by omega, rfl⟩
  · rw [Bool.not_eq_true] at hsurrogate
    refine Or.inr ⟨hsurrogate, ?_⟩
    by_cases hwide : p < 0x10000
    · have hkept : isStripped p = !isXmlChar p := by
        rw [Bool.eq_iff_iff, Bool.not_eq_true', ← Bool.not_eq_true]
        simp only [isSurrogate, isXmlChar, isStripped, decide_eq_true_iff,
          decide_eq_false_iff_not] at hsurrogate ⊢
        omega
      rw [if_pos hwide]
      cases hxml : isXmlChar p <;> simp [hkept, hxml]
    · have hxml : isXmlChar p = true := by
        simp only [isXmlChar, decide_eq_true_iff]
        omega
      have hhigh : isStripped (0xD800 + (p - 0x10000) / 0x400) = false := by
        simp only [isStripped, decide_eq_false_iff_not]
        omega
      have hlow : isStripped (0xDC00 + (p - 0x10000) % 0x400) = false := by
        simp only [isStripped, decide_eq_false_iff_not]
        omega
      rw [if_neg hwide, hxml]
      simp [hhigh, hlow]

theorem kept_against_xml (ps : List Nat) (hps : ∀ p ∈ ps, p < 0x110000) :
    (ps.flatMap fun p => (pointUnits p).filter fun u => !isStripped u).countP
          (fun u => !isSurrogate u) =
        ((ps.filter isXmlChar).flatMap pointUnits).countP (fun u => !isSurrogate u) ∧
      (ps.flatMap fun p => (pointUnits p).filter fun u => !isStripped u).length =
        ((ps.filter isXmlChar).flatMap pointUnits).length + ps.countP isSurrogate ∧
      ((∀ p ∈ ps, isSurrogate p = false) →
        (ps.flatMap fun p => (pointUnits p).filter fun u => !isStripped u) =
          (ps.filter isXmlChar).flatMap pointUnits) := by
  induction ps with
  | nil => exact ⟨rfl, rfl, fun _ => rfl⟩
  | cons p ps ih =>
    obtain ⟨hcount, hlength, heq⟩ := ih fun q hq => hps q (List.mem_cons_of_mem _ hq)
    rw [List.flatMap_cons, List.countP_append, List.length_append, List.countP_cons, hcount,
      hlength]
    rcases filter_pointUnits p (hps p List.mem_cons_self) with
      ⟨hsurrogate, hxml, hkept, hunits⟩ | ⟨hsurrogate, hfilter⟩
    · rw [List.filter_cons_of_neg (by rw [hxml]; exact Bool.false_ne_true), hunits]
      simp only [hkept, hsurrogate, Bool.not_false, List.filter_cons, List.filter_nil, if_true,
        List.countP_singleton, List.length_singleton]
      refine ⟨by simp, by omega, fun h => ?_⟩
      rw [h p List.mem_cons_self] at hsurrogate
      cases hsurrogate
    · have hrest : ((p :: ps).filter isXmlChar).flatMap pointUnits =
          (if isXmlChar p then pointUnits p else []) ++
            (ps.filter isXmlChar).flatMap pointUnits := by
        rw [List.filter_cons]
        split_ifs
        · rw [List.flatMap_cons]
        · rfl
      rw [hrest, hfilter, List.countP_append, List.length_append, hsurrogate]
      refine ⟨rfl, by simp [Nat.add_assoc], fun h => ?_⟩
      rw [heq fun q hq => h q (List.mem_cons_of_mem _ hq)]

theorem escapeRule_shortens (l out : List Nat) (more : Nat) (h : escapeRule l = some (out, more)) :
    out.countP (fun u => !isSurrogate u) <
      (l.take (more + 1)).countP fun u => !isSurrogate u := by
  have hhex : ∀ u, isHexUnit u = true → isSurrogate u = false := by
    intro u hu
    simp only [isHexUnit, isDigitUnit, isSurrogate, decide_eq_true_iff,
      decide_eq_false_iff_not] at hu ⊢
    omega
  unfold escapeRule at h
  split at h
  · next u x a b c d v rest =>
    split_ifs at h with hmatch
    obtain ⟨rfl, rfl, hdigits, rfl⟩ := hmatch
    cases h
    have hall : ∀ u ∈ [a, b, c, d], isSurrogate u = false := fun u hu =>
      hhex u (List.all_eq_true.1 hdigits u hu)
    simp only [List.forall_mem_cons] at hall
    obtain ⟨ha, hb, hc, hd, _⟩ := hall
    have hone : [parseDigits 16 [a, b, c, d]].countP (fun u => !isSurrogate u) ≤ 1 :=
      List.countP_le_length
    have hseven : (['_'.toNat, 'x'.toNat, a, b, c, d, '_'.toNat]).countP
        (fun u => !isSurrogate u) = 7 := by
      refine List.countP_eq_length.2 ?_
      simp only [List.forall_mem_cons, ha, hb, hc, hd]
      decide
    show _ < (['_'.toNat, 'x'.toNat, a, b, c, d, '_'.toNat]).countP fun u => !isSurrogate u
    omega
  · cases h

/-- A text survives the worksheet exactly where no half of a surrogate pair
stands alone in it and nothing in it looks like an escape. -/
theorem readBack_iff (t : ScriptText) :
    inlineText (inlineCell t.units) = decodeXml (encodeXml t.units) ∧
      (decodeXml (encodeXml t.units) = withoutForbidden t.units ↔
        IsWellFormed t.units ∧ ¬ Occurs escapeRule (t.units.filter fun u => !isStripped u)) := by
  refine ⟨inlineText_cell t.units, ?_⟩
  obtain ⟨hcount, hlength, heq⟩ := kept_against_xml (codePoints t.units)
    (codePoints_lt t.units t.bounded)
  have hkept : ((codePoints t.units).flatMap fun p => (pointUnits p).filter fun u =>
      !isStripped u) = t.units.filter fun u => !isStripped u := by
    rw [← List.filter_flatMap, flatMap_codePoints t.units t.bounded]
  rw [hkept] at hcount hlength heq
  rw [decodeXml_encodeXml]
  constructor
  · intro hread
    have hnone : ¬ Occurs escapeRule (t.units.filter fun u => !isStripped u) := by
      refine not_occurs_of_countP escapeRule_shortens ?_
      rw [hread]
      exact hcount.symm
    rw [replaceAll_eq_self hnone] at hread
    refine ⟨?_, hnone⟩
    have hzero : (codePoints t.units).countP isSurrogate = 0 := by
      have := congrArg List.length hread
      unfold withoutForbidden at this
      omega
    intro p hp
    exact Bool.eq_false_iff.2 (List.countP_eq_zero.1 hzero p hp)
  · rintro ⟨hformed, hnone⟩
    rw [replaceAll_eq_self hnone]
    exact heq hformed

/-- Text that looks like an escape comes back as one character, and half a
pair comes back although XML forbids it. -/
theorem literal_escape_is_read_as_escape :
    decodeXml (encodeXml (asciiUnits ['_', 'x', '0', '0', '4', '1', '_'])) ≠
        withoutForbidden (asciiUnits ['_', 'x', '0', '0', '4', '1', '_']) ∧
      decodeXml (encodeXml [0xD83D]) ≠ withoutForbidden [0xD83D] := by
  decide

end Cine.Grading
