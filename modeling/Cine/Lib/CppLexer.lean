import Mathlib.Data.List.Basic
import Mathlib.Data.List.TakeWhile

/-!
# The tokens of a C++ text, as far as comments and literals go

A text is taken apart from the front: `chunks` is the loop, for any function
that takes the first chunk off.  `nextToken` takes the first token off a C++
text, with the longest match: a comment, the quoted part of a string or
character literal, a preprocessing number, an identifier, or one other
character.

* A literal that is not closed ends before the line feed.
* A preprocessing number may have digit separators: an apostrophe in front of
  a digit or a letter.
* The letters before and behind the quotes of a literal are identifiers of
  their own.

Texts are UTF-16 code units.  Raw strings and continued lines are not known
here.  Which units beyond the basic characters an identifier may have is a
parameter.
-/

namespace Cine.Lib

/-! ## Taking a text apart -/

section Chunks

variable {α β : Type*} (next : α → List α → β × List α)

def chunksFrom : Nat → List α → List β
  | 0, _ => []
  | _, [] => []
  | fuel + 1, a :: s => (next a s).1 :: chunksFrom fuel (next a s).2

/-- The chunks of a text.  Every chunk has a character, so the length of the
text is fuel enough. -/
def chunks (s : List α) : List β := chunksFrom next s.length s

variable {next} (hnext : ∀ a s, (next a s).2.length ≤ s.length)

include hnext

theorem chunksFrom_eq {fuel fuel' : Nat} {s : List α} (h : s.length ≤ fuel)
    (h' : s.length ≤ fuel') : chunksFrom next fuel s = chunksFrom next fuel' s := by
  induction fuel generalizing s fuel' with
  | zero =>
    have hnil : s = [] := List.length_eq_zero_iff.1 (Nat.le_zero.1 h)
    subst hnil
    cases fuel' <;> rfl
  | succ fuel ih =>
    cases s with
    | nil => cases fuel' <;> rfl
    | cons a s =>
      cases fuel' with
      | zero => simp at h'
      | succ fuel' =>
        have hrest := hnext a s
        rw [List.length_cons] at h h'
        exact congrArg _ (ih (by omega) (by omega))

theorem chunks_cons (a : α) (s : List α) :
    chunks next (a :: s) = (next a s).1 :: chunks next (next a s).2 := by
  show _ :: chunksFrom next s.length _ = _
  rw [chunks, chunksFrom_eq hnext (hnext a s) (Nat.le_refl _)]

theorem chunks_induction {P : List α → Prop} (hnil : P [])
    (hcons : ∀ a s, P (next a s).2 → P (a :: s)) (s : List α) : P s := by
  have hall : ∀ n, ∀ s : List α, s.length ≤ n → P s := by
    intro n
    induction n with
    | zero =>
      intro s h
      rw [List.length_eq_zero_iff.1 (Nat.le_zero.1 h)]
      exact hnil
    | succ n ih =>
      intro s h
      cases s with
      | nil => exact hnil
      | cons a s =>
        have hrest := hnext a s
        rw [List.length_cons] at h
        exact hcons a s (ih _ (by omega))
  exact hall s.length s (Nat.le_refl _)

end Chunks

namespace Cpp

/-! ## Tokens -/

abbrev slash : Nat := 0x2f

abbrev star : Nat := 0x2a

abbrev dot : Nat := 0x2e

abbrev doubleQuote : Nat := 0x22

abbrev apostrophe : Nat := 0x27

abbrev backslash : Nat := 0x5c

abbrev newline : Nat := 0x0a

def isDigit (u : Nat) : Bool := 0x30 ≤ u && u ≤ 0x39

/-- A basic letter or the underscore. -/
def isNondigit (u : Nat) : Bool :=
  (0x41 ≤ u && u ≤ 0x5a) || (0x61 ≤ u && u ≤ 0x7a) || u = 0x5f

/-- Which units beyond the basic characters, and which of the dollar sign, an
identifier may begin with and may go on with. -/
structure Letters where
  starts : Nat → Bool
  continues : Nat → Bool

def isExtended (u : Nat) : Bool := 0x80 ≤ u || u = 0x24

inductive Token
  | lineComment (body : List Nat)
  | blockComment (body : List Nat) (closed : Bool)
  | literal (text : List Nat)
  | number (text : List Nat)
  | identifier (text : List Nat)
  | other (unit : Nat)
deriving DecidableEq, Repr

def Token.text : Token → List Nat
  | .lineComment body => slash :: slash :: body
  | .blockComment body closed => slash :: star :: (body ++ if closed then [star, slash] else [])
  | .literal text => text
  | .number text => text
  | .identifier text => text
  | .other unit => [unit]

/-- Whether the token is a comment or a literal. -/
def Token.isInside : Token → Bool
  | .lineComment _ => true
  | .blockComment _ _ => true
  | .literal _ => true
  | _ => false

/-- The body of a comment. -/
def Token.body? : Token → Option (List Nat)
  | .lineComment body => some body
  | .blockComment body _ => some body
  | _ => none

section Lexer

variable (letters : Letters)

def identStart (u : Nat) : Bool := isNondigit u || (isExtended u && letters.starts u)

def identContinue (u : Nat) : Bool :=
  isDigit u || isNondigit u || (isExtended u && letters.continues u)

/-- How far a preprocessing number goes on: an exponent with its sign, a digit
separator, a universal character name, a dot, a letter or a digit. -/
def numberLength : List Nat → Nat
  | [] => 0
  | [u] => if u = dot ∨ identContinue letters u then 1 else 0
  | u :: v :: s =>
    if u ∈ [0x45, 0x65, 0x50, 0x70] ∧ v ∈ [0x2b, 0x2d] then numberLength s + 2
    else if u = apostrophe ∧ (isDigit v ∨ isNondigit v) then numberLength s + 2
    else if u = backslash ∧ v ∈ [0x75, 0x55] then numberLength s + 2
    else if u = dot ∨ identContinue letters u then numberLength (v :: s) + 1
    else 0

/-- What stands before the first close of a block comment, and what stands
behind it. -/
def untilClose : List Nat → List Nat × Option (List Nat)
  | [] => ([], none)
  | u :: s =>
    if u = star ∧ s.head? = some slash then ([], some s.tail)
    else (u :: (untilClose s).1, (untilClose s).2)

/-- How far a literal goes on behind its opening quote. -/
def literalLength (quote : Nat) : List Nat → Nat
  | [] => 0
  | [u] => if u = newline then 0 else 1
  | u :: v :: s =>
    if u = newline then 0
    else if u = quote then 1
    else if u = backslash then literalLength quote s + 2
    else literalLength quote (v :: s) + 1

/-- The first token, and the text behind it. -/
def nextToken (u : Nat) (s : List Nat) : Token × List Nat :=
  if u = slash ∧ s.head? = some slash then
    (.lineComment (s.tail.takeWhile (· ≠ newline)), s.tail.dropWhile (· ≠ newline))
  else if u = slash ∧ s.head? = some star then
    match untilClose s.tail with
    | (body, some rest) => (.blockComment body true, rest)
    | (body, none) => (.blockComment body false, [])
  else if u = doubleQuote ∨ u = apostrophe then
    let length := literalLength u s
    (.literal (u :: s.take length), s.drop length)
  else if isDigit u ∨ (u = dot ∧ s.head?.any isDigit) then
    let length := numberLength letters s
    (.number (u :: s.take length), s.drop length)
  else if identStart letters u then
    (.identifier (u :: s.takeWhile (identContinue letters)), s.dropWhile (identContinue letters))
  else (.other u, s)

def tokens (source : List Nat) : List Token := chunks (nextToken letters) source

variable {letters}

theorem untilClose_append (s : List Nat) : (untilClose s).1 ++
    ((untilClose s).2.elim [] fun rest => star :: slash :: rest) = s := by
  induction s with
  | nil => rfl
  | cons u s ih =>
    unfold untilClose
    split_ifs with h
    · cases s with
      | nil => simp at h
      | cons v s =>
        have hslash : v = slash := Option.some.inj h.2
        rw [h.1, hslash]
        rfl
    · rw [List.cons_append, ih]

theorem nextToken_append (u : Nat) (s : List Nat) :
    (nextToken letters u s).1.text ++ (nextToken letters u s).2 = u :: s := by
  unfold nextToken
  split_ifs with hline hblock hliteral hnumber hstart
  · obtain ⟨hslash, hhead⟩ := hline
    cases s with
    | nil => cases hhead
    | cons v s =>
      have hv : v = slash := Option.some.inj hhead
      rw [hslash, hv]
      show slash :: slash :: (s.takeWhile _ ++ s.dropWhile _) = _
      rw [List.takeWhile_append_dropWhile]
  · obtain ⟨hslash, hhead⟩ := hblock
    cases s with
    | nil => cases hhead
    | cons v s =>
      have hv : v = star := Option.some.inj hhead
      have happend := untilClose_append s
      rw [hslash, hv, List.tail_cons]
      cases hclose : untilClose s with
      | mk body rest =>
        rw [hclose] at happend
        cases rest with
        | none => simpa [Token.text] using happend
        | some rest => simpa [Token.text] using happend
  · simp [Token.text]
  · simp [Token.text]
  · simp [Token.text]
  · rfl

theorem length_nextToken (u : Nat) (s : List Nat) :
    (nextToken letters u s).2.length ≤ s.length := by
  have happend := congrArg List.length (@nextToken_append letters u s)
  have hpos : 1 ≤ (nextToken letters u s).1.text.length := by
    unfold nextToken
    split_ifs
    · simp [Token.text]
    · split <;> simp [Token.text]
    · simp [Token.text]
    · simp [Token.text]
    · simp [Token.text]
    · simp [Token.text]
  rw [List.length_append, List.length_cons] at happend
  omega

theorem tokens_cons (u : Nat) (s : List Nat) :
    tokens letters (u :: s) =
      (nextToken letters u s).1 :: tokens letters (nextToken letters u s).2 :=
  chunks_cons length_nextToken u s

theorem tokens_induction (letters : Letters) {P : List Nat → Prop} (hnil : P [])
    (hcons : ∀ u s, P (nextToken letters u s).2 → P (u :: s)) (source : List Nat) : P source :=
  chunks_induction (@length_nextToken letters) hnil hcons source

/-! ## What a number holds -/

theorem identContinue_plain {u : Nat} (h : identContinue letters u = true) :
    u ≠ slash ∧ u ≠ doubleQuote ∧ u ≠ apostrophe := by
  unfold identContinue isDigit isNondigit isExtended at h
  unfold slash doubleQuote apostrophe
  simp only [Bool.or_eq_true, Bool.and_eq_true, decide_eq_true_eq] at h
  omega

theorem numberLength_plain (s : List Nat) :
    ∀ u ∈ s.take (numberLength letters s), u ≠ slash ∧ u ≠ doubleQuote := by
  have hone : ∀ u, u = dot ∨ identContinue letters u = true → u ≠ slash ∧ u ≠ doubleQuote := by
    intro u hu
    rcases hu with rfl | hu
    · decide
    · have hplain := identContinue_plain hu
      exact ⟨hplain.1, hplain.2.1⟩
  have htwo : ∀ {u v n} {s : List Nat}, (u ≠ slash ∧ u ≠ doubleQuote) →
      (v ≠ slash ∧ v ≠ doubleQuote) → (∀ w ∈ s.take n, w ≠ slash ∧ w ≠ doubleQuote) →
      ∀ w ∈ (u :: v :: s).take (n + 2), w ≠ slash ∧ w ≠ doubleQuote := by
    intro u v n s hu hv hs w hw
    rw [List.take_succ_cons, List.take_succ_cons, List.mem_cons, List.mem_cons] at hw
    rcases hw with rfl | rfl | hw
    · exact hu
    · exact hv
    · exact hs w hw
  fun_induction numberLength letters s with
  | case1 => simp
  | case2 u h => simpa using hone u h
  | case3 u h => simp
  | case4 u v s h ih =>
    apply htwo _ _ ih
    · have hu := h.1
      simp only [List.mem_cons, List.not_mem_nil, or_false] at hu
      unfold slash doubleQuote
      omega
    · have hv := h.2
      simp only [List.mem_cons, List.not_mem_nil, or_false] at hv
      unfold slash doubleQuote
      omega
  | case5 u v s _ h ih =>
    apply htwo _ _ ih
    · rw [h.1]
      decide
    · have hv := h.2
      unfold isDigit isNondigit at hv
      unfold slash doubleQuote
      simp only [Bool.or_eq_true, Bool.and_eq_true, decide_eq_true_eq] at hv
      omega
  | case6 u v s _ _ h ih =>
    apply htwo _ _ ih
    · rw [h.1]
      decide
    · have hv := h.2
      simp only [List.mem_cons, List.not_mem_nil, or_false] at hv
      unfold slash doubleQuote
      omega
  | case7 u v s _ _ _ h ih =>
    intro w hw
    rw [List.take_succ_cons, List.mem_cons] at hw
    rcases hw with rfl | hw
    · exact hone w h
    · exact ih w hw
  | case8 => simp

theorem plain_of_number {u : Nat} {s text rest : List Nat}
    (h : nextToken letters u s = (.number text, rest)) :
    ∀ v ∈ text, v ≠ slash ∧ v ≠ doubleQuote := by
  unfold nextToken at h
  split_ifs at h with _ _ _ hnumber
  · cases h
  · split at h <;> cases h
  · cases h
  · cases h
    intro v hv
    rcases List.mem_cons.1 hv with rfl | hv
    · unfold isDigit dot at hnumber
      unfold slash doubleQuote
      simp only [Bool.and_eq_true, decide_eq_true_eq] at hnumber
      omega
    · exact numberLength_plain s v hv
  · cases h
  · cases h

theorem plain_of_identifier {u : Nat} {s text rest : List Nat}
    (h : nextToken letters u s = (.identifier text, rest)) :
    ∀ v ∈ text, v ≠ slash ∧ v ≠ doubleQuote ∧ v ≠ apostrophe := by
  unfold nextToken at h
  split_ifs at h with _ _ _ _ hstart
  · cases h
  · split at h <;> cases h
  · cases h
  · cases h
  · cases h
    intro v hv
    rcases List.mem_cons.1 hv with rfl | hv
    · unfold identStart isNondigit isExtended at hstart
      unfold slash doubleQuote apostrophe
      simp only [Bool.or_eq_true, Bool.and_eq_true, decide_eq_true_eq] at hstart
      omega
    · exact identContinue_plain (List.mem_takeWhile_imp hv)
  · cases h

end Lexer

end Cpp

end Cine.Lib
