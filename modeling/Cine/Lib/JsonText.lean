import Cine.Lib.Json

/-!
# `JSON.stringify` and `JSON.parse`

The printer and the parser of a script, on texts of characters.  A number is
a parameter: `Numerals` has its literal and the reader of literals, and the
literal of a number is read back.

`JSON.parse` reads every property that a text has, and the last property of
a name wins (`Value.collapse`).  `parseRaw` is the parser before this.

There are four groups.

* Values and the printer.
* The parser.
* `parseRaw_print`: what was printed is read back, in front of any text that
  a value can stand in front of.
* What `collapse` does to a value: it never grows, and where it keeps the
  size it changes nothing.

The order of an object's properties is that of the text.
-/

namespace Cine.Lib.JsonText

open Cine.Lib.Json (escape)

/-- The characters of a number literal. -/
def isNumeral (c : Char) : Bool := c.isDigit || c = '-' || c = '+' || c = '.' || c = 'e' || c = 'E'

/-- The numbers that JSON can write, with their literals. -/
structure Numerals (N : Type) where
  print : N → List Char
  read : List Char → Option N
  read_print : ∀ n, read (print n) = some n
  head_print : ∀ n, ∃ c l, print n = c :: l ∧ (c.isDigit || c = '-') = true
  print_numeral : ∀ n, ∀ c ∈ print n, isNumeral c = true

mutual
/-- A value. -/
inductive Value (N : Type)
  | null
  | bool (b : Bool)
  | num (n : N)
  | str (s : List Char)
  | arr (items : Items N)
  | obj (fields : Fields N)

/-- The elements of an array. -/
inductive Items (N : Type)
  | nil
  | cons (v : Value N) (rest : Items N)

/-- The properties of an object. -/
inductive Fields (N : Type)
  | nil
  | cons (key : List Char) (v : Value N) (rest : Fields N)
end

variable {N : Type}

/-- The characters of a string, between its quotes. -/
def chars (s : List Char) : List Char := s.flatMap escape

/-- A string. -/
def quote (s : List Char) : List Char := '"' :: (chars s ++ ['"'])

section Print

variable (num : Numerals N)

mutual
/-- `JSON.stringify`. -/
def print : Value N → List Char
  | .null => "null".toList
  | .bool b => if b then "true".toList else "false".toList
  | .num n => num.print n
  | .str s => quote s
  | .arr .nil => "[]".toList
  | .arr (.cons v rest) => '[' :: (print v ++ printItems rest)
  | .obj .nil => "\x7b\x7d".toList
  | .obj (.cons key v rest) => '\x7b' :: (quote key ++ ':' :: (print v ++ printFields rest))

/-- The elements behind the first one, and the bracket. -/
def printItems : Items N → List Char
  | .nil => [']']
  | .cons v rest => ',' :: (print v ++ printItems rest)

/-- The properties behind the first one, and the bracket. -/
def printFields : Fields N → List Char
  | .nil => ['\x7d']
  | .cons key v rest => ',' :: (quote key ++ ':' :: (print v ++ printFields rest))
end

end Print

/-! ## The parser -/

def isSpace (c : Char) : Bool := c = ' ' || c = '\t' || c = '\n' || c = '\r'

def skipSpace (text : List Char) : List Char := text.dropWhile isSpace

/-- The value of a hexadecimal digit. -/
def hexDigit (c : Char) : Option Nat :=
  if c.isDigit then some (c.toNat - 48)
  else if 'a' ≤ c ∧ c ≤ 'f' then some (c.toNat - 87)
  else if 'A' ≤ c ∧ c ≤ 'F' then some (c.toNat - 55)
  else none

/-- Four hexadecimal digits. -/
def hex4 : List Char → Option (Nat × List Char)
  | a :: b :: c :: d :: rest => do
    let a ← hexDigit a
    let b ← hexDigit b
    let c ← hexDigit c
    let d ← hexDigit d
    return (((a * 16 + b) * 16 + c) * 16 + d, rest)
  | _ => none

/-- What stands behind `\u`.  Half a surrogate pair is no character, and a
text with one is not read. -/
def unicodeEscape (text : List Char) : Option (Char × List Char) :=
  match hex4 text with
  | none => none
  | some (high, rest) =>
    if high < 0xD800 ∨ 0xDFFF < high then some (Char.ofNat high, rest)
    else
      match rest with
      | '\\' :: 'u' :: rest =>
        match hex4 rest with
        | none => none
        | some (low, rest) =>
          if high < 0xDC00 ∧ 0xDC00 ≤ low ∧ low ≤ 0xDFFF then
            some (Char.ofNat (0x10000 + (high - 0xD800) * 0x400 + (low - 0xDC00)), rest)
          else none
      | _ => none

/-- One character of a string. -/
def readChar : List Char → Option (Char × List Char)
  | '\\' :: '"' :: s => some ('"', s)
  | '\\' :: '\\' :: s => some ('\\', s)
  | '\\' :: '/' :: s => some ('/', s)
  | '\\' :: 'b' :: s => some (Char.ofNat 8, s)
  | '\\' :: 't' :: s => some (Char.ofNat 9, s)
  | '\\' :: 'n' :: s => some (Char.ofNat 10, s)
  | '\\' :: 'f' :: s => some (Char.ofNat 12, s)
  | '\\' :: 'r' :: s => some (Char.ofNat 13, s)
  | '\\' :: 'u' :: s => unicodeEscape s
  | '\\' :: _ => none
  | c :: s => if c.toNat < 0x20 then none else some (c, s)
  | [] => none

/-- A string behind its opening quote.  A character takes one step. -/
def readString : (fuel : Nat) → List Char → Option (List Char × List Char)
  | 0, _ => none
  | _ + 1, '"' :: rest => some ([], rest)
  | fuel + 1, text => do
    let (c, rest) ← readChar text
    let (s, rest) ← readString fuel rest
    return (c :: s, rest)

/-- A string behind its opening quote. -/
def parseString (text : List Char) : Option (List Char × List Char) :=
  readString (text.length + 1) text

/-- The name of a property, and the colon. -/
def parseKey (text : List Char) : Option (List Char × List Char) :=
  match skipSpace text with
  | '"' :: s => do
    let (key, rest) ← parseString s
    match skipSpace rest with
    | ':' :: rest => some (key, rest)
    | _ => none
  | _ => none

section Parse

variable (num : Numerals N)

/-- A literal. -/
def parseScalar : List Char → Option (Value N × List Char)
  | 'n' :: 'u' :: 'l' :: 'l' :: rest => some (.null, rest)
  | 't' :: 'r' :: 'u' :: 'e' :: rest => some (.bool true, rest)
  | 'f' :: 'a' :: 'l' :: 's' :: 'e' :: rest => some (.bool false, rest)
  | text =>
    (num.read (text.takeWhile isNumeral)).map fun n => (.num n, text.dropWhile isNumeral)

mutual
/-- A value, and the text behind it.  Every call has less fuel. -/
def parseValue : (fuel : Nat) → List Char → Option (Value N × List Char)
  | 0, _ => none
  | fuel + 1, text =>
    match skipSpace text with
    | '"' :: s => (parseString s).map fun r => (.str r.1, r.2)
    | '[' :: s =>
      match skipSpace s with
      | ']' :: rest => some (.arr .nil, rest)
      | _ => do
        let (v, rest) ← parseValue fuel s
        let (items, rest) ← parseItems fuel rest
        return (.arr (.cons v items), rest)
    | '\x7b' :: s =>
      match skipSpace s with
      | '\x7d' :: rest => some (.obj .nil, rest)
      | _ => do
        let (key, rest) ← parseKey s
        let (v, rest) ← parseValue fuel rest
        let (fields, rest) ← parseFields fuel rest
        return (.obj (.cons key v fields), rest)
    | s => parseScalar num s

/-- The elements behind the first one. -/
def parseItems : (fuel : Nat) → List Char → Option (Items N × List Char)
  | 0, _ => none
  | fuel + 1, text =>
    match skipSpace text with
    | ']' :: rest => some (.nil, rest)
    | ',' :: s => do
      let (v, rest) ← parseValue fuel s
      let (items, rest) ← parseItems fuel rest
      return (.cons v items, rest)
    | _ => none

/-- The properties behind the first one. -/
def parseFields : (fuel : Nat) → List Char → Option (Fields N × List Char)
  | 0, _ => none
  | fuel + 1, text =>
    match skipSpace text with
    | '\x7d' :: rest => some (.nil, rest)
    | ',' :: s => do
      let (key, rest) ← parseKey s
      let (v, rest) ← parseValue fuel rest
      let (fields, rest) ← parseFields fuel rest
      return (.cons key v fields, rest)
    | _ => none
end

/-- A whole text, with all properties it has. -/
def parseRaw (text : List Char) : Option (Value N) :=
  match parseValue num (text.length + 1) text with
  | some (v, rest) => if skipSpace rest = [] then some v else none
  | none => none

end Parse

/-! ### The last property of a name -/

/-- The last property of a name. -/
def Fields.last? (key : List Char) : Fields N → Option (Value N)
  | .nil => none
  | .cons k v rest =>
    match rest.last? key with
    | some w => some w
    | none => if k = key then some v else none

/-- The properties of the other names. -/
def Fields.erase (key : List Char) : Fields N → Fields N
  | .nil => .nil
  | .cons k v rest => if k = key then rest.erase key else .cons k v (rest.erase key)

/-- A property in front of others.  One of the same name behind it has its
value. -/
def Fields.insert (key : List Char) (v : Value N) (rest : Fields N) : Fields N :=
  match rest.last? key with
  | some w => .cons key w (rest.erase key)
  | none => .cons key v rest

mutual
/-- Every property name once, with its last value. -/
def Value.collapse : Value N → Value N
  | .null => .null
  | .bool b => .bool b
  | .num n => .num n
  | .str s => .str s
  | .arr items => .arr items.collapse
  | .obj fields => .obj fields.collapse

def Items.collapse : Items N → Items N
  | .nil => .nil
  | .cons v rest => .cons v.collapse rest.collapse

def Fields.collapse : Fields N → Fields N
  | .nil => .nil
  | .cons key v rest => Fields.insert key v.collapse rest.collapse
end

def parse (num : Numerals N) (text : List Char) : Option (Value N) :=
  (parseRaw num text).map Value.collapse

/-! ## What was printed is read back -/

theorem hexDigit_digitChar : ∀ n < 16, hexDigit (Json.hexDigit n) = some n := by decide

theorem readChar_escape (c : Char) (s : List Char) : readChar (escape c ++ s) = some (c, s) := by
  have hnat : ∀ n, c.toNat = n → Char.ofNat n = c := by
    rintro n rfl
    exact Char.ofNat_toNat c
  unfold escape
  split_ifs with h1 h2 h3 h4 h5 h6 h7 h8
  · rw [h1]
    rfl
  · rw [h2]
    rfl
  · rw [← hnat 8 h3]
    rfl
  · rw [← hnat 9 h4]
    rfl
  · rw [← hnat 10 h5]
    rfl
  · rw [← hnat 12 h6]
    rfl
  · rw [← hnat 13 h7]
    rfl
  · show unicodeEscape ('0' :: '0' :: Json.hexDigit (c.toNat / 16) ::
      Json.hexDigit (c.toNat % 16) :: s) = _
    have hfour : hex4 ('0' :: '0' :: Json.hexDigit (c.toNat / 16) ::
        Json.hexDigit (c.toNat % 16) :: s) = some (c.toNat, s) := by
      show ((hexDigit '0').bind fun a => (hexDigit '0').bind fun b =>
        (hexDigit (Json.hexDigit (c.toNat / 16))).bind fun x =>
        (hexDigit (Json.hexDigit (c.toNat % 16))).bind fun y =>
          some (((a * 16 + b) * 16 + x) * 16 + y, s)) = _
      rw [hexDigit_digitChar (c.toNat / 16) (by omega),
        hexDigit_digitChar (c.toNat % 16) (by omega)]
      show some (((0 * 16 + 0) * 16 + c.toNat / 16) * 16 + c.toNat % 16, s) = _
      congr 2
      omega
    unfold unicodeEscape
    rw [hfour]
    dsimp only
    rw [if_pos (Or.inl (by omega)), Char.ofNat_toNat]
  · show readChar (c :: s) = _
    unfold readChar
    split <;> simp_all

theorem escape_ne_nil (c : Char) : escape c ≠ [] := by
  unfold escape
  split_ifs <;> exact List.cons_ne_nil _ _

theorem length_le_chars (s : List Char) : s.length ≤ (chars s).length := by
  induction s with
  | nil => exact Nat.le_refl _
  | cons c s ih =>
    have hpos := List.length_pos_iff.2 (escape_ne_nil c)
    unfold chars at ih ⊢
    rw [List.flatMap_cons, List.length_append, List.length_cons]
    omega

theorem readString_of_ne {fuel : Nat} {text : List Char} (h : ∀ r, text ≠ '"' :: r) :
    readString (fuel + 1) text = (readChar text).bind fun x =>
      (readString fuel x.2).bind fun y => some (x.1 :: y.1, y.2) := by
  rw [readString]
  · rfl
  · exact fun r hr => h r hr

theorem readString_chars {fuel : Nat} (s rest : List Char) (h : s.length < fuel) :
    readString fuel (chars s ++ '"' :: rest) = some (s, rest) := by
  induction s generalizing fuel with
  | nil =>
    obtain ⟨fuel, rfl⟩ := Nat.exists_eq_succ_of_ne_zero (Nat.ne_of_gt h)
    rfl
  | cons c s ih =>
    obtain ⟨fuel, rfl⟩ := Nat.exists_eq_succ_of_ne_zero (Nat.ne_of_gt (Nat.zero_lt_of_lt h))
    rw [show chars (c :: s) = escape c ++ chars s from List.flatMap_cons, List.append_assoc,
      readString_of_ne fun r => Json.escape_ne_quote c _ r, readChar_escape, Option.bind_some,
      ih (Nat.lt_of_succ_lt_succ h), Option.bind_some]

theorem parseString_chars (s rest : List Char) :
    parseString (chars s ++ '"' :: rest) = some (s, rest) := by
  have hlength := length_le_chars s
  refine readString_chars s rest ?_
  rw [List.length_append]
  omega

theorem skipSpace_cons {c : Char} {s : List Char} (h : isSpace c = false) :
    skipSpace (c :: s) = c :: s := by
  rw [skipSpace, List.dropWhile_cons, h]
  rfl

theorem parseKey_quote (key rest : List Char) :
    parseKey (quote key ++ ':' :: rest) = some (key, rest) := by
  have hquote : quote key ++ ':' :: rest = '"' :: (chars key ++ '"' :: ':' :: rest) := by
    simp [quote]
  unfold parseKey
  rw [hquote, skipSpace_cons (by decide)]
  show ((parseString (chars key ++ '"' :: ':' :: rest)).bind fun x =>
    match skipSpace x.2 with
    | ':' :: rest => some (x.1, rest)
    | _ => none) = _
  rw [parseString_chars]
  rfl

section RoundTrip

variable (num : Numerals N)

theorem print_head (v : Value N) :
    ∃ c l, print num v = c :: l ∧ isSpace c = false ∧ c ≠ ']' := by
  cases v with
  | null => exact ⟨_, _, by rw [print]; rfl, by decide, by decide⟩
  | bool b => cases b <;> exact ⟨_, _, by rw [print]; rfl, by decide, by decide⟩
  | num n =>
    obtain ⟨c, l, hl, hc⟩ := num.head_print n
    refine ⟨c, l, by rw [print, hl], ?_, ?_⟩
    · rw [← Bool.not_eq_true]
      intro hspace
      simp only [isSpace, Bool.or_eq_true, decide_eq_true_eq] at hspace
      rcases hspace with ((rfl | rfl) | rfl) | rfl <;> revert hc <;> decide
    · rintro rfl
      revert hc
      decide
  | str s => exact ⟨_, _, by rw [print]; rfl, by decide, by decide⟩
  | arr items =>
    cases items with
    | nil => exact ⟨'[', _, by rw [print]; rfl, by decide, by decide⟩
    | cons v rest => exact ⟨'[', _, by rw [print], by decide, by decide⟩
  | obj fields =>
    cases fields with
    | nil => exact ⟨'\x7b', _, by rw [print]; rfl, by decide, by decide⟩
    | cons key v rest => exact ⟨'\x7b', _, by rw [print], by decide, by decide⟩

theorem skipSpace_print (v : Value N) (rest : List Char) :
    skipSpace (print num v ++ rest) = print num v ++ rest := by
  obtain ⟨c, l, hl, hspace, -⟩ := print_head num v
  rw [hl, List.cons_append, skipSpace_cons hspace]

variable {rest : List Char} {fuel : Nat}

theorem takeWhile_numeral {l : List Char} (hl : ∀ c ∈ l, isNumeral c = true)
    (hrest : Json.Stops rest) :
    (l ++ rest).takeWhile isNumeral = l ∧ (l ++ rest).dropWhile isNumeral = rest := by
  have hstop : rest.takeWhile isNumeral = [] ∧ rest.dropWhile isNumeral = rest := by
    cases rest with
    | nil => exact ⟨rfl, rfl⟩
    | cons c rest =>
      have hc : isNumeral c = false := by
        rcases hrest c rfl with rfl | rfl | rfl <;> decide
      rw [List.takeWhile_cons, List.dropWhile_cons, hc]
      exact ⟨rfl, rfl⟩
  rw [List.takeWhile_append_of_pos hl, List.dropWhile_append_of_pos hl, hstop.1, hstop.2,
    List.append_nil]
  exact ⟨rfl, rfl⟩

theorem parseScalar_num (n : N) (h : Json.Stops rest) :
    parseScalar num (num.print n ++ rest) = some (.num n, rest) := by
  obtain ⟨htake, hdrop⟩ := takeWhile_numeral (num.print_numeral n) h
  obtain ⟨c, l, hl, hc⟩ := num.head_print n
  unfold parseScalar
  split
  · rename_i heq
    rw [hl] at heq
    cases (List.cons.inj heq).1
    exact absurd hc (by decide)
  · rename_i heq
    rw [hl] at heq
    cases (List.cons.inj heq).1
    exact absurd hc (by decide)
  · rename_i heq
    rw [hl] at heq
    cases (List.cons.inj heq).1
    exact absurd hc (by decide)
  · rw [htake, hdrop, num.read_print]
    rfl

theorem parseValue_scalar {c : Char} {s : List Char} (hspace : isSpace c = false)
    (hc : c ≠ '"' ∧ c ≠ '[' ∧ c ≠ '{') :
    parseValue num (fuel + 1) (c :: s) = parseScalar num (c :: s) := by
  rw [parseValue, skipSpace_cons hspace]
  split
  · rename_i heq
    exact absurd (List.cons.inj heq).1 hc.1
  · rename_i heq
    exact absurd (List.cons.inj heq).1 hc.2.1
  · rename_i heq
    exact absurd (List.cons.inj heq).1 hc.2.2
  · rfl

/-- What stands behind a value inside an array or an object. -/
theorem stops_printItems (items : Items N) (rest : List Char) :
    Json.Stops (printItems num items ++ rest) := by
  cases items with
  | nil =>
    rw [printItems]
    exact Json.stops_cons (Or.inr (Or.inl rfl))
  | cons v items =>
    rw [printItems]
    exact Json.stops_cons (Or.inl rfl)

theorem stops_printFields (fields : Fields N) (rest : List Char) :
    Json.Stops (printFields num fields ++ rest) := by
  cases fields with
  | nil =>
    rw [printFields]
    exact Json.stops_cons (Or.inr (Or.inr rfl))
  | cons key v fields =>
    rw [printFields]
    exact Json.stops_cons (Or.inl rfl)

mutual
/-- The number of steps that a value takes to read. -/
def Value.size : Value N → Nat
  | .null => 1
  | .bool _ => 1
  | .num _ => 1
  | .str _ => 1
  | .arr items => items.size
  | .obj fields => fields.size

def Items.size : Items N → Nat
  | .nil => 1
  | .cons v rest => 1 + v.size + rest.size

def Fields.size : Fields N → Nat
  | .nil => 1
  | .cons _ v rest => 1 + v.size + rest.size
end

/-- The first element or property of an array or object, behind its
bracket. -/
theorem parseValue_arr {v : Value N} {items : Items N}
    (hv : parseValue num fuel (print num v ++ (printItems num items ++ rest)) =
      some (v, printItems num items ++ rest))
    (hitems : parseItems num fuel (printItems num items ++ rest) = some (items, rest)) :
    parseValue num (fuel + 1) (print num (.arr (.cons v items)) ++ rest) =
      some (.arr (.cons v items), rest) := by
  obtain ⟨c, l, hl, hspace, hc⟩ := print_head num v
  rw [print, List.cons_append, List.append_assoc, parseValue, skipSpace_cons (by decide)]
  show (match skipSpace (print num v ++ (printItems num items ++ rest)) with
    | ']' :: rest => some (Value.arr .nil, rest)
    | _ => (parseValue num fuel (print num v ++ (printItems num items ++ rest))).bind fun x =>
        (parseItems num fuel x.2).bind fun y => some (Value.arr (.cons x.1 y.1), y.2)) = _
  rw [skipSpace_print]
  have hbracket : ∀ r, print num v ++ (printItems num items ++ rest) ≠ ']' :: r := by
    intro r heq
    rw [hl, List.cons_append] at heq
    exact hc (List.cons.inj heq).1
  split
  · rename_i heq
    exact absurd heq (hbracket _)
  · rw [hv, Option.bind_some, hitems]
    rfl

theorem parseValue_obj {key : List Char} {v : Value N} {fields : Fields N}
    (hv : parseValue num fuel (print num v ++ (printFields num fields ++ rest)) =
      some (v, printFields num fields ++ rest))
    (hfields : parseFields num fuel (printFields num fields ++ rest) = some (fields, rest)) :
    parseValue num (fuel + 1) (print num (.obj (.cons key v fields)) ++ rest) =
      some (.obj (.cons key v fields), rest) := by
  rw [print, List.cons_append, List.append_assoc, List.cons_append, List.append_assoc, parseValue,
    skipSpace_cons (by decide)]
  show (match skipSpace (quote key ++ ':' :: (print num v ++ (printFields num fields ++ rest))) with
    | '\x7d' :: rest => some (Value.obj .nil, rest)
    | _ => (parseKey (quote key ++ ':' :: (print num v ++ (printFields num fields ++ rest)))).bind
        fun x => (parseValue num fuel x.2).bind fun y =>
          (parseFields num fuel y.2).bind fun z => some (Value.obj (.cons x.1 y.1 z.1), z.2)) = _
  have hquote : skipSpace (quote key ++ ':' :: (print num v ++ (printFields num fields ++ rest))) =
      quote key ++ ':' :: (print num v ++ (printFields num fields ++ rest)) :=
    skipSpace_cons (by decide)
  rw [hquote]
  split
  · rename_i heq
    exact absurd (List.cons.inj heq).1 (by decide)
  · rw [parseKey_quote, Option.bind_some, hv, Option.bind_some, hfields]
    rfl

mutual
theorem parseValue_print : ∀ (v : Value N) {fuel : Nat} {rest : List Char}, v.size ≤ fuel →
    Json.Stops rest → parseValue num fuel (print num v ++ rest) = some (v, rest)
  | v, 0, _, hfuel, _ => by
    cases v with
    | arr items => cases items <;> simp [Value.size, Items.size] at hfuel
    | obj fields => cases fields <;> simp [Value.size, Fields.size] at hfuel
    | _ => simp [Value.size] at hfuel
  | .null, fuel + 1, rest, _, _ => by
    rw [print]
    exact parseValue_scalar num (by decide) (by decide)
  | .bool true, fuel + 1, rest, _, _ => by
    rw [print]
    exact parseValue_scalar num (by decide) (by decide)
  | .bool false, fuel + 1, rest, _, _ => by
    rw [print]
    exact parseValue_scalar num (by decide) (by decide)
  | .num n, fuel + 1, rest, _, hrest => by
    obtain ⟨c, l, hl, hc⟩ := num.head_print n
    obtain ⟨c', l', hl', hspace, -⟩ := print_head num (.num n)
    rw [← parseScalar_num num n hrest]
    rw [print] at hl' ⊢
    rw [hl] at hl'
    obtain ⟨rfl, rfl⟩ := List.cons.inj hl'
    rw [hl]
    refine parseValue_scalar num hspace ⟨?_, ?_, ?_⟩ <;> rintro rfl <;>
      exact absurd hc (by decide)
  | .str s, fuel + 1, rest, _, _ => by
    have hquote : quote s ++ rest = '"' :: (chars s ++ '"' :: rest) := by simp [quote]
    rw [print, hquote, parseValue, skipSpace_cons (by decide)]
    show (parseString (chars s ++ '"' :: rest)).map (fun r => (Value.str r.1, r.2)) = _
    rw [parseString_chars]
    rfl
  | .arr .nil, fuel + 1, rest, _, _ => by
    rw [print]
    rfl
  | .arr (.cons v items), fuel + 1, rest, hfuel, hrest => by
    rw [Value.size, Items.size] at hfuel
    exact parseValue_arr num (parseValue_print v (by omega) (stops_printItems num items rest))
      (parseItems_print items (by omega) hrest)
  | .obj .nil, fuel + 1, rest, _, _ => by
    rw [print]
    rfl
  | .obj (.cons key v fields), fuel + 1, rest, hfuel, hrest => by
    rw [Value.size, Fields.size] at hfuel
    exact parseValue_obj num (parseValue_print v (by omega) (stops_printFields num fields rest))
      (parseFields_print fields (by omega) hrest)

theorem parseItems_print : ∀ (items : Items N) {fuel : Nat} {rest : List Char},
    items.size ≤ fuel → Json.Stops rest →
    parseItems num fuel (printItems num items ++ rest) = some (items, rest)
  | items, 0, _, hfuel, _ => by cases items <;> simp [Items.size] at hfuel
  | .nil, fuel + 1, rest, _, _ => by
    rw [printItems]
    rfl
  | .cons v items, fuel + 1, rest, hfuel, hrest => by
    rw [Items.size] at hfuel
    have hv : parseValue num fuel (print num v ++ (printItems num items ++ rest)) =
        some (v, printItems num items ++ rest) :=
      parseValue_print v (by omega) (stops_printItems num items rest)
    have hitems : parseItems num fuel (printItems num items ++ rest) = some (items, rest) :=
      parseItems_print items (by omega) hrest
    rw [printItems, List.cons_append, List.append_assoc, parseItems,
      skipSpace_cons (by decide)]
    show ((parseValue num fuel (print num v ++ (printItems num items ++ rest))).bind fun x =>
      (parseItems num fuel x.2).bind fun y => some (Items.cons x.1 y.1, y.2)) = _
    rw [hv, Option.bind_some, hitems]
    rfl

theorem parseFields_print : ∀ (fields : Fields N) {fuel : Nat} {rest : List Char},
    fields.size ≤ fuel → Json.Stops rest →
    parseFields num fuel (printFields num fields ++ rest) = some (fields, rest)
  | fields, 0, _, hfuel, _ => by cases fields <;> simp [Fields.size] at hfuel
  | .nil, fuel + 1, rest, _, _ => by
    rw [printFields]
    rfl
  | .cons key v fields, fuel + 1, rest, hfuel, hrest => by
    rw [Fields.size] at hfuel
    have hv : parseValue num fuel (print num v ++ (printFields num fields ++ rest)) =
        some (v, printFields num fields ++ rest) :=
      parseValue_print v (by omega) (stops_printFields num fields rest)
    have hfields : parseFields num fuel (printFields num fields ++ rest) = some (fields, rest) :=
      parseFields_print fields (by omega) hrest
    rw [printFields, List.cons_append, List.append_assoc, List.cons_append, List.append_assoc,
      parseFields, skipSpace_cons (by decide)]
    show ((parseKey (quote key ++ ':' :: (print num v ++ (printFields num fields ++ rest)))).bind
      fun x => (parseValue num fuel x.2).bind fun y =>
        (parseFields num fuel y.2).bind fun z => some (Fields.cons x.1 y.1 z.1, z.2)) = _
    rw [parseKey_quote, Option.bind_some, hv, Option.bind_some, hfields]
    rfl
end

mutual
theorem size_le_print : ∀ v : Value N, v.size ≤ (print num v).length
  | .null => by rw [print, Value.size]; decide
  | .bool true => by rw [print, Value.size]; decide
  | .bool false => by rw [print, Value.size]; decide
  | .num n => by
    obtain ⟨c, l, hl, -⟩ := num.head_print n
    rw [print, Value.size, hl, List.length_cons]
    omega
  | .str s => by
    rw [print, Value.size, quote, List.length_cons]
    omega
  | .arr .nil => by rw [print, Value.size, Items.size]; decide
  | .arr (.cons v items) => by
    have hv := size_le_print v
    have hitems := sizeItems_le_print items
    rw [print, Value.size, Items.size, List.length_cons, List.length_append]
    omega
  | .obj .nil => by rw [print, Value.size, Fields.size]; decide
  | .obj (.cons key v fields) => by
    have hv := size_le_print v
    have hfields := sizeFields_le_print fields
    rw [print, Value.size, Fields.size, List.length_cons, List.length_append, List.length_cons,
      List.length_append]
    omega

theorem sizeItems_le_print : ∀ items : Items N, items.size ≤ (printItems num items).length
  | .nil => by rw [printItems, Items.size]; decide
  | .cons v items => by
    have hv := size_le_print v
    have hitems := sizeItems_le_print items
    rw [printItems, Items.size, List.length_cons, List.length_append]
    omega

theorem sizeFields_le_print : ∀ fields : Fields N,
    fields.size ≤ (printFields num fields).length
  | .nil => by rw [printFields, Fields.size]; decide
  | .cons key v fields => by
    have hv := size_le_print v
    have hfields := sizeFields_le_print fields
    rw [printFields, Fields.size, List.length_cons, List.length_append, List.length_cons,
      List.length_append]
    omega
end

theorem parseRaw_print (v : Value N) : parseRaw num (print num v) = some v := by
  have hread := parseValue_print num v (Nat.le_succ_of_le (size_le_print num v)) Json.stops_nil
  rw [List.append_nil] at hread
  unfold parseRaw
  rw [hread]
  rfl

theorem parse_print (v : Value N) : parse num (print num v) = some v.collapse := by
  rw [parse, parseRaw_print, Option.map_some]

theorem print_injective : Function.Injective (print num) := fun v w h => by
  have hread := parseRaw_print num v
  rw [h, parseRaw_print] at hread
  exact (Option.some.inj hread).symm

end RoundTrip

/-- A printed text is one line. -/
theorem newline_not_mem_chars (s : List Char) : '\n' ∉ chars s := by
  unfold chars
  rw [List.mem_flatMap]
  rintro ⟨c, -, hc⟩
  unfold escape at hc
  have hdigit : ∀ n, n < 16 → '\n' ≠ Json.hexDigit n := by decide
  split_ifs at hc with h1 h2 h3 h4 h5 h6 h7 h8 <;>
    simp only [List.mem_cons, List.not_mem_nil, or_false] at hc
  · revert hc
    decide
  · revert hc
    decide
  · revert hc
    decide
  · revert hc
    decide
  · revert hc
    decide
  · revert hc
    decide
  · revert hc
    decide
  · rcases hc with hc | hc | hc | hc | hc | hc
    · revert hc
      decide
    · revert hc
      decide
    · revert hc
      decide
    · revert hc
      decide
    · exact hdigit _ (by omega) hc
    · exact hdigit _ (by omega) hc
  · subst hc
    exact h5 rfl

theorem newline_not_mem_quote (s : List Char) : '\n' ∉ quote s := by
  have h := newline_not_mem_chars s
  simp [quote, h]

section

variable (num : Numerals N)

mutual
theorem newline_not_mem_print : ∀ v : Value N, '\n' ∉ print num v
  | .null => by rw [print]; decide
  | .bool true => by rw [print]; decide
  | .bool false => by rw [print]; decide
  | .num n => by
    rw [print]
    intro h
    exact absurd (num.print_numeral n _ h) (by decide)
  | .str s => by
    rw [print]
    exact newline_not_mem_quote s
  | .arr .nil => by rw [print]; decide
  | .arr (.cons v items) => by
    have hv := newline_not_mem_print v
    have hitems := newline_not_mem_printItems items
    rw [print]
    simp [hv, hitems]
  | .obj .nil => by rw [print]; decide
  | .obj (.cons key v fields) => by
    have hkey := newline_not_mem_quote key
    have hv := newline_not_mem_print v
    have hfields := newline_not_mem_printFields fields
    rw [print]
    simp [hkey, hv, hfields]

theorem newline_not_mem_printItems : ∀ items : Items N, '\n' ∉ printItems num items
  | .nil => by rw [printItems]; decide
  | .cons v items => by
    have hv := newline_not_mem_print v
    have hitems := newline_not_mem_printItems items
    rw [printItems]
    simp [hv, hitems]

theorem newline_not_mem_printFields : ∀ fields : Fields N, '\n' ∉ printFields num fields
  | .nil => by rw [printFields]; decide
  | .cons key v fields => by
    have hkey := newline_not_mem_quote key
    have hv := newline_not_mem_print v
    have hfields := newline_not_mem_printFields fields
    rw [printFields]
    simp [hkey, hv, hfields]
end

end

/-! ## What `collapse` does -/

theorem size_erase_le (key : List Char) :
    ∀ fields : Fields N, (fields.erase key).size ≤ fields.size
  | .nil => Nat.le_refl _
  | .cons k v rest => by
    have ih := size_erase_le key rest
    rw [Fields.erase]
    split_ifs <;> simp only [Fields.size] <;> omega

theorem size_erase_lt {key : List Char} {w : Value N} :
    ∀ {fields : Fields N}, fields.last? key = some w →
      (fields.erase key).size + 1 + w.size ≤ fields.size
  | .nil, h => nomatch h
  | .cons k v rest, h => by
    rw [Fields.last?] at h
    rw [Fields.erase]
    cases hrest : rest.last? key with
    | some w' =>
      rw [hrest] at h
      cases h
      have ih := size_erase_lt hrest
      split_ifs <;> simp only [Fields.size] <;> omega
    | none =>
      rw [hrest] at h
      dsimp only at h
      have herase := size_erase_le key rest
      split_ifs at h with hk
      cases h
      rw [if_pos hk]
      simp only [Fields.size]
      omega

theorem last?_erase (key other : List Char) :
    ∀ fields : Fields N,
      (fields.erase key).last? other = if other = key then none else fields.last? other
  | .nil => by
    rw [Fields.erase, Fields.last?]
    split_ifs <;> rfl
  | .cons k v rest => by
    have ih := last?_erase key other rest
    rw [Fields.erase, Fields.last?]
    by_cases hk : k = key
    · rw [if_pos hk, ih]
      split_ifs with ho hko
      · rfl
      · exact absurd (hko.symm.trans hk) ho
      · cases rest.last? other <;> rfl
    · rw [if_neg hk, Fields.last?, ih]
      split_ifs with ho hko
      · exact absurd (hko.trans ho) hk
      · rfl
      · rfl
      · rfl

theorem last?_insert (key other : List Char) (v : Value N) (rest : Fields N) :
    (Fields.insert key v rest).last? other = (Fields.cons key v rest).last? other := by
  unfold Fields.insert
  cases hrest : rest.last? key with
  | none => rfl
  | some w =>
    dsimp only
    rw [Fields.last?, Fields.last?, last?_erase]
    by_cases ho : other = key
    · rw [if_pos ho, ho, hrest]
      exact if_pos rfl
    · rw [if_neg ho, if_neg (Ne.symm ho), if_neg (Ne.symm ho)]

theorem last?_collapse (key : List Char) :
    ∀ fields : Fields N, fields.collapse.last? key = (fields.last? key).map Value.collapse
  | .nil => rfl
  | .cons k v rest => by
    have ih := last?_collapse key rest
    rw [Fields.collapse, last?_insert, Fields.last?, Fields.last?, ih]
    cases rest.last? key with
    | some w => rfl
    | none =>
      rw [Option.map_none]
      dsimp only
      split_ifs <;> rfl

theorem size_insert (key : List Char) (v : Value N) (rest : Fields N) :
    (Fields.insert key v rest).size ≤ 1 + v.size + rest.size ∧
      ((Fields.insert key v rest).size = 1 + v.size + rest.size →
        Fields.insert key v rest = .cons key v rest) := by
  unfold Fields.insert
  cases hrest : rest.last? key with
  | none => exact ⟨Nat.le_refl _, fun _ => rfl⟩
  | some w =>
    have hlt := size_erase_lt hrest
    dsimp only
    rw [Fields.size]
    exact ⟨by omega, fun h => by omega⟩

mutual
theorem size_collapse : ∀ v : Value N, v.collapse.size ≤ v.size ∧
    (v.collapse.size = v.size → v.collapse = v)
  | .null => ⟨Nat.le_refl _, fun _ => by rw [Value.collapse]⟩
  | .bool b => ⟨Nat.le_refl _, fun _ => by rw [Value.collapse]⟩
  | .num n => ⟨Nat.le_refl _, fun _ => by rw [Value.collapse]⟩
  | .str s => ⟨Nat.le_refl _, fun _ => by rw [Value.collapse]⟩
  | .arr items => by
    obtain ⟨hle, heq⟩ := size_collapseItems items
    rw [Value.collapse, Value.size, Value.size]
    exact ⟨hle, fun h => by rw [heq h]⟩
  | .obj fields => by
    obtain ⟨hle, heq⟩ := size_collapseFields fields
    rw [Value.collapse, Value.size, Value.size]
    exact ⟨hle, fun h => by rw [heq h]⟩

theorem size_collapseItems : ∀ items : Items N, items.collapse.size ≤ items.size ∧
    (items.collapse.size = items.size → items.collapse = items)
  | .nil => ⟨Nat.le_refl _, fun _ => by rw [Items.collapse]⟩
  | .cons v rest => by
    obtain ⟨hvle, hveq⟩ := size_collapse v
    obtain ⟨hrle, hreq⟩ := size_collapseItems rest
    rw [Items.collapse, Items.size, Items.size]
    exact ⟨by omega, fun h => by rw [hveq (by omega), hreq (by omega)]⟩

theorem size_collapseFields : ∀ fields : Fields N, fields.collapse.size ≤ fields.size ∧
    (fields.collapse.size = fields.size → fields.collapse = fields)
  | .nil => ⟨Nat.le_refl _, fun _ => by rw [Fields.collapse]⟩
  | .cons key v rest => by
    obtain ⟨hvle, hveq⟩ := size_collapse v
    obtain ⟨hrle, hreq⟩ := size_collapseFields rest
    obtain ⟨hile, hieq⟩ := size_insert key v.collapse rest.collapse
    rw [Fields.collapse, Fields.size]
    refine ⟨by omega, fun h => ?_⟩
    rw [hieq (by omega), hveq (by omega), hreq (by omega)]
end

end Cine.Lib.JsonText
