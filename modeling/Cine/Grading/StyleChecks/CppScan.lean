import Cine.Lib.CppLexer
import Cine.Lib.Utf16

/-!
# Taking the comments and the literals out of a program

`style-checks/cpp-scan.ts`: `scanCpp` blanks the comments and the literals of a
program and collects the bodies of the comments.

* `scanCpp`, a loop that takes a chunk off the front of what is left.
* `Separates` says what it is for, over the tokens of the text.
* `scanCpp_token`: in front of any token but a number with a digit separator
  the loop takes as much as the lexer does, up to the line feed behind a
  literal that is not closed.
* `separates_iff`: the scan is right exactly for the texts without a digit
  separator.  The apostrophe of a separator is taken for an opening quote.
-/

namespace Cine.Grading.StyleChecks

open Cine.Lib
open Cine.Lib.Cpp

/-! ## The scan -/

structure CppScan where
  code : List Nat
  comments : List (List Nat)
deriving DecidableEq, Repr

def space : Nat := 0x20

/-- `s.replace(/[^\n]/g, ' ')`. -/
def blank (s : List Nat) : List Nat :=
  s.map fun u => if u = newline then newline else space

/-- `indexOf('*/')`. -/
def indexOfClose : List Nat → Option Nat
  | [] => none
  | u :: s => if u = star ∧ s.head? = some slash then some 0 else (indexOfClose s).map (· + 1)

/-- How far `j` runs behind the opening quote.  Behind a last backslash it runs
past the end. -/
def quotedLength (quote : Nat) : List Nat → Nat
  | [] => 0
  | [u] => if u = quote ∨ u = newline then 0 else if u = backslash then 2 else 1
  | u :: v :: s =>
    if u = quote ∨ u = newline then 0
    else if u = backslash then quotedLength quote s + 2
    else quotedLength quote (v :: s) + 1

/-- One round of the loop: what is added to the code and to the comments, and
what is left of the source. -/
def scanChunk (c : Nat) (s : List Nat) : CppScan × List Nat :=
  let next := s.head?
  if c = slash ∧ next = some slash then
    let toEnd := s.takeWhile (· ≠ newline)
    (⟨blank (c :: toEnd), [toEnd.drop 1]⟩, s.dropWhile (· ≠ newline))
  else if c = slash ∧ next = some star then
    match indexOfClose (s.drop 1) with
    | none => (⟨blank (c :: s), [s.drop 1]⟩, [])
    | some close =>
      (⟨blank (c :: s.take (close + 3)), [(s.drop 1).take close]⟩, s.drop (close + 3))
  else if c = doubleQuote ∨ c = apostrophe then
    let length := quotedLength c s + 1
    (⟨blank (c :: s.take length), []⟩, s.drop length)
  else (⟨[c], []⟩, s)

def scanCpp (source : List Nat) : CppScan :=
  let rounds := chunks scanChunk source
  ⟨rounds.flatMap CppScan.code, rounds.flatMap CppScan.comments⟩

/-! ## What the scan is for -/

section Spec

variable (letters : Letters)

/-- The units of a text, and whether each is in a comment or a literal. -/
def regions (source : List Nat) : List (Nat × Bool) :=
  (tokens letters source).flatMap fun token => token.text.map fun u => (u, token.isInside)

/-- What may stand in the code for a unit of the text. -/
structure Stands (region : Nat × Bool) (u : Nat) : Prop where
  lines : u = newline ↔ region.1 = newline
  outside : region.2 = false → u = region.1
  inside : region.2 = true → u = space ∨ u = newline

/-- Unit by unit the code stands for the text, and the comments are those of
the text. -/
structure Separates (source : List Nat) (scan : CppScan) : Prop where
  code : List.Forall₂ Stands (regions letters source) scan.code
  comments : scan.comments = (tokens letters source).filterMap Token.body?

/-- No number of the text has a digit separator. -/
def NoSeparator (source : List Nat) : Prop :=
  ∀ text, .number text ∈ tokens letters source → apostrophe ∉ text

end Spec

/-! ## The loop -/

theorem length_scanChunk (c : Nat) (s : List Nat) : (scanChunk c s).2.length ≤ s.length := by
  unfold scanChunk
  dsimp only
  split_ifs
  · exact (List.dropWhile_sublist _).length_le
  · split
    · exact Nat.zero_le _
    · rw [List.length_drop]
      omega
  · rw [List.length_drop]
    omega
  · exact Nat.le_refl _

/-- What the scan has added, in front of another scan. -/
def CppScan.append (a b : CppScan) : CppScan := ⟨a.code ++ b.code, a.comments ++ b.comments⟩

theorem scanCpp_cons (c : Nat) (s : List Nat) :
    scanCpp (c :: s) = (scanChunk c s).1.append (scanCpp (scanChunk c s).2) := by
  unfold scanCpp CppScan.append
  rw [chunks_cons length_scanChunk]
  rfl

theorem scanCpp_plain {c : Nat} (s : List Nat) (hslash : c ≠ slash) (hquote : c ≠ doubleQuote)
    (happ : c ≠ apostrophe) : scanCpp (c :: s) = CppScan.append ⟨[c], []⟩ (scanCpp s) := by
  rw [scanCpp_cons]
  unfold scanChunk
  simp [hslash, hquote, happ]

theorem scanCpp_append_plain {t : List Nat} (s : List Nat)
    (h : ∀ u ∈ t, u ≠ slash ∧ u ≠ doubleQuote ∧ u ≠ apostrophe) :
    scanCpp (t ++ s) = CppScan.append ⟨t, []⟩ (scanCpp s) := by
  induction t with
  | nil => rfl
  | cons c t ih =>
    obtain ⟨hslash, hquote, happ⟩ := h c List.mem_cons_self
    rw [List.cons_append, scanCpp_plain _ hslash hquote happ,
      ih fun u hu => h u (List.mem_cons_of_mem c hu)]
    rfl

/-! ## The loop and the lexer -/

theorem blank_append (a b : List Nat) : blank (a ++ b) = blank a ++ blank b :=
  List.map_append

theorem indexOfClose_cases (s : List Nat) :
    (indexOfClose s = none ∧ untilClose s = (s, none)) ∨
      ∃ close, indexOfClose s = some close ∧
        untilClose s = (s.take close, some (s.drop (close + 2))) ∧
        s.drop close = star :: slash :: s.drop (close + 2) := by
  induction s with
  | nil => exact Or.inl ⟨rfl, rfl⟩
  | cons u s ih =>
    unfold indexOfClose untilClose
    split_ifs with h
    · right
      cases s with
      | nil => simp at h
      | cons v s =>
        have hv : v = slash := Option.some.inj h.2
        rw [h.1, hv]
        exact ⟨0, rfl, rfl, rfl⟩
    · rcases ih with ⟨hindex, huntil⟩ | ⟨close, hindex, huntil, hs⟩
      · left
        rw [hindex, huntil]
        exact ⟨rfl, rfl⟩
      · right
        exact ⟨close + 1, by rw [hindex]; rfl, by rw [huntil]; rfl, hs⟩

/-- A loop that has run over `quoted` units and the next one has read a
literal of `length` units, or the line feed behind it as well. -/
def ReadsLiteral (s : List Nat) (quoted length : Nat) : Prop :=
  (s.take (quoted + 1) = s.take length ∧ s.drop (quoted + 1) = s.drop length) ∨
    ∃ rest, s.drop length = newline :: rest ∧ s.take (quoted + 1) = s.take length ++ [newline] ∧
      s.drop (quoted + 1) = rest

variable {s rest : List Nat} {u : Nat} {token : Token}

theorem ReadsLiteral.cons {quoted length : Nat} (h : ReadsLiteral s quoted length) (u : Nat) :
    ReadsLiteral (u :: s) (quoted + 1) (length + 1) := by
  rcases h with ⟨htake, hdrop⟩ | ⟨rest, hrest, htake, hdrop⟩
  · left
    exact ⟨congrArg (u :: ·) htake, hdrop⟩
  · right
    exact ⟨rest, hrest, congrArg (u :: ·) htake, hdrop⟩

theorem readsLiteral (quote : Nat) (s : List Nat) :
    ReadsLiteral s (quotedLength quote s) (literalLength quote s) := by
  fun_induction literalLength quote s with
  | case1 => exact Or.inl ⟨rfl, rfl⟩
  | case2 =>
    have hlength : quotedLength quote [newline] = 0 := if_pos (Or.inr rfl)
    rw [hlength]
    exact Or.inr ⟨[], rfl, rfl, rfl⟩
  | case3 u hline =>
    left
    unfold quotedLength
    split_ifs <;> exact ⟨rfl, rfl⟩
  | case4 v s =>
    have hlength : quotedLength quote (newline :: v :: s) = 0 := if_pos (Or.inr rfl)
    rw [hlength]
    exact Or.inr ⟨v :: s, rfl, rfl, rfl⟩
  | case5 v s hline =>
    have hlength : quotedLength quote (quote :: v :: s) = 0 := if_pos (Or.inl rfl)
    rw [hlength]
    exact Or.inl ⟨rfl, rfl⟩
  | case6 v s hline hne ih =>
    have hlength : quotedLength quote (backslash :: v :: s) = quotedLength quote s + 2 := by
      rw [quotedLength, if_neg (by simp [hline, hne]), if_pos rfl]
    rw [hlength]
    exact (ih.cons v).cons backslash
  | case7 u v s hline hne hescape ih =>
    have hlength : quotedLength quote (u :: v :: s) = quotedLength quote (v :: s) + 1 := by
      rw [quotedLength, if_neg (by simp [hline, hne]), if_neg hescape]
    rw [hlength]
    exact ih.cons u

/-- What the scan makes of a token that has no digit separator. -/
def scanned (token : Token) : CppScan :=
  ⟨if token.isInside then blank token.text else token.text, token.body?.toList⟩

variable {letters : Letters}

theorem scanChunk_lineComment (s : List Nat) :
    scanChunk slash (slash :: s) =
      (scanned (.lineComment (s.takeWhile (· ≠ newline))), s.dropWhile (· ≠ newline)) := by
  unfold scanChunk scanned
  rw [if_pos ⟨rfl, rfl⟩, List.takeWhile_cons_of_pos (by decide),
    List.dropWhile_cons_of_pos (by decide)]
  rfl

theorem scanChunk_openComment (hindex : indexOfClose s = none) :
    scanChunk slash (star :: s) = (scanned (.blockComment s false), []) := by
  have hline : ¬ (slash = slash ∧ (star :: s).head? = some slash) := fun h => nomatch h.2
  unfold scanChunk
  rw [if_neg hline, if_pos ⟨rfl, rfl⟩, List.drop_one, List.tail_cons, hindex]
  simp [scanned, Token.text, Token.isInside, Token.body?]

theorem scanChunk_blockComment {close : Nat} (hindex : indexOfClose s = some close)
    (hs : s.drop close = star :: slash :: s.drop (close + 2)) :
    scanChunk slash (star :: s) =
      (scanned (.blockComment (s.take close) true), s.drop (close + 2)) := by
  have hline : ¬ (slash = slash ∧ (star :: s).head? = some slash) := fun h => nomatch h.2
  have htake : (star :: s).take (close + 3) = star :: (s.take close ++ [star, slash]) := by
    rw [List.take_succ_cons, List.take_add, hs]
    rfl
  unfold scanChunk
  rw [if_neg hline, if_pos ⟨rfl, rfl⟩, List.drop_one, List.tail_cons, hindex]
  dsimp only
  rw [htake]
  rfl

theorem scanChunk_literal (hu : u = doubleQuote ∨ u = apostrophe) (s : List Nat) :
    scanChunk u s =
      (⟨blank (u :: s.take (quotedLength u s + 1)), []⟩, s.drop (quotedLength u s + 1)) := by
  unfold scanChunk
  have hslash : u ≠ slash := by
    rcases hu with rfl | rfl <;> decide
  rw [if_neg (fun h => hslash h.1), if_neg (fun h => hslash h.1), if_pos hu]

theorem scanCpp_copied (hinside : token.isInside = false) (hbody : token.body? = none)
    (htoken : nextToken letters u s = (token, rest))
    (hplain : ∀ v ∈ token.text, v ≠ slash ∧ v ≠ doubleQuote ∧ v ≠ apostrophe) :
    scanCpp (u :: s) = CppScan.append (scanned token) (scanCpp rest) := by
  have happend := @nextToken_append letters u s
  rw [htoken] at happend
  rw [← happend, scanCpp_append_plain rest hplain, scanned, hinside, hbody]
  rfl

theorem scanCpp_token (htoken : nextToken letters u s = (token, rest))
    (hnumber : ∀ text, token = .number text → apostrophe ∉ text) :
    scanCpp (u :: s) = CppScan.append (scanned token) (scanCpp rest) := by
  have hnext := htoken
  unfold nextToken at hnext
  split_ifs at hnext with hline hblock hliteral hnum hstart
  · obtain ⟨rfl, hhead⟩ := hline
    cases s with
    | nil => cases hhead
    | cons v s =>
      cases hhead
      cases hnext
      rw [scanCpp_cons, scanChunk_lineComment]
      rfl
  · obtain ⟨rfl, hhead⟩ := hblock
    cases s with
    | nil => cases hhead
    | cons v s =>
      cases hhead
      rw [List.tail_cons] at hnext
      rw [scanCpp_cons]
      rcases indexOfClose_cases s with ⟨hindex, huntil⟩ | ⟨close, hindex, huntil, hs⟩
      · rw [huntil] at hnext
        cases hnext
        rw [scanChunk_openComment hindex]
      · rw [huntil] at hnext
        cases hnext
        rw [scanChunk_blockComment hindex hs]
  · cases hnext
    rw [scanCpp_cons, scanChunk_literal hliteral]
    dsimp only
    rcases readsLiteral u s with ⟨htake, hdrop⟩ | ⟨rest, hrest, htake, hdrop⟩
    · rw [htake, hdrop]
      rfl
    · -- The scan has blanked the line feed, which the lexer leaves to the next token.
      rw [htake, hdrop, hrest, scanCpp_plain rest (by decide) (by decide) (by decide),
        ← List.cons_append, blank_append]
      simp [CppScan.append, scanned, Token.text, Token.isInside, Token.body?, blank]
  · cases hnext
    apply scanCpp_copied rfl rfl htoken
    intro v hv
    have hplain := plain_of_number htoken v hv
    refine ⟨hplain.1, hplain.2, ?_⟩
    rintro rfl
    exact hnumber _ rfl hv
  · cases hnext
    exact scanCpp_copied rfl rfl htoken (plain_of_identifier htoken)
  · cases hnext
    -- A slash may stand here, but no comment begins with it.
    rw [scanCpp_cons]
    unfold scanChunk
    rw [if_neg hline, if_neg hblock, if_neg hliteral]
    rfl

/-! ## When the scan is right -/

section Front

variable {u : Nat} {s rest : List Nat} {token : Token}

theorem regions_cons (htoken : nextToken letters u s = (token, rest)) :
    regions letters (u :: s) =
      (token.text.map fun v => (v, token.isInside)) ++ regions letters rest := by
  unfold regions
  rw [tokens_cons, htoken, List.flatMap_cons]

theorem bodies_cons (htoken : nextToken letters u s = (token, rest)) :
    (tokens letters (u :: s)).filterMap Token.body? =
      token.body?.toList ++ (tokens letters rest).filterMap Token.body? := by
  rw [tokens_cons, htoken, List.filterMap_cons]
  cases token.body? <;> rfl

theorem noSeparator_cons (htoken : nextToken letters u s = (token, rest)) :
    NoSeparator letters (u :: s) ↔
      (∀ text, token = .number text → apostrophe ∉ text) ∧ NoSeparator letters rest := by
  unfold NoSeparator
  rw [tokens_cons, htoken]
  constructor
  · intro h
    exact ⟨fun text htext => h text (htext ▸ List.mem_cons_self),
      fun text htext => h text (List.mem_cons_of_mem _ htext)⟩
  · intro h text htext
    rcases List.mem_cons.1 htext with heq | hmem
    · exact h.1 text heq.symm
    · exact h.2 text hmem

end Front

theorem stands_blank (u : Nat) : Stands (u, true) (if u = newline then newline else space) := by
  by_cases h : u = newline
  · rw [if_pos h]
    exact ⟨⟨fun _ => h, fun _ => rfl⟩, nofun, fun _ => Or.inr rfl⟩
  · rw [if_neg h]
    exact ⟨⟨fun hs => absurd hs (by decide), fun hu => absurd hu h⟩, nofun, fun _ => Or.inl rfl⟩

theorem stands_self (u : Nat) : Stands (u, false) u :=
  ⟨Iff.rfl, fun _ => rfl, nofun⟩

theorem stands_scanned (token : Token) :
    List.Forall₂ Stands (token.text.map fun v => (v, token.isInside)) (scanned token).code := by
  unfold scanned
  cases token.isInside with
  | true =>
    show List.Forall₂ Stands _ (blank token.text)
    unfold blank
    induction token.text with
    | nil => exact .nil
    | cons u text ih => exact .cons (stands_blank u) ih
  | false =>
    show List.Forall₂ Stands _ token.text
    induction token.text with
    | nil => exact .nil
    | cons u text ih => exact .cons (stands_self u) ih

theorem separates_token_iff (htoken : nextToken letters u s = (token, rest))
    (hnumber : ∀ text, token = .number text → apostrophe ∉ text) :
    Separates letters (u :: s) (scanCpp (u :: s)) ↔ Separates letters rest (scanCpp rest) := by
  have hstands := stands_scanned token
  rw [scanCpp_token htoken hnumber]
  constructor
  · intro h
    have hcode := h.code
    rw [regions_cons htoken] at hcode
    have hcomments := h.comments
    rw [bodies_cons htoken] at hcomments
    have hdrop := List.forall₂_drop_append _ _ _ hcode
    rw [List.drop_left' hstands.length_eq] at hdrop
    exact ⟨hdrop, List.append_cancel_left hcomments⟩
  · intro h
    constructor
    · rw [regions_cons htoken]
      exact List.rel_append hstands h.code
    · rw [bodies_cons htoken]
      exact congrArg _ h.comments

theorem not_separates_number {text : List Nat}
    (htoken : nextToken letters u s = (.number text, rest)) (happ : apostrophe ∈ text) :
    ¬ Separates letters (u :: s) (scanCpp (u :: s)) := by
  intro h
  obtain ⟨front, back, rfl, hfront⟩ := List.eq_append_cons_of_mem happ
  have happend := @nextToken_append letters u s
  have hplain : ∀ v ∈ front, v ≠ slash ∧ v ≠ doubleQuote ∧ v ≠ apostrophe := by
    intro v hv
    have hnumber := plain_of_number htoken v (List.mem_append_left _ hv)
    refine ⟨hnumber.1, hnumber.2, ?_⟩
    rintro rfl
    exact hfront hv
  have hcode := h.code
  rw [regions_cons htoken] at hcode
  have hsource : u :: s = front ++ apostrophe :: (back ++ rest) := by
    rw [← happend, htoken]
    simp [Token.text]
  rw [hsource, scanCpp_append_plain _ hplain] at hcode
  have hdrop := List.forall₂_drop_append _ _ _ hcode
  rw [scanCpp_cons, scanChunk_literal (Or.inr rfl)] at hdrop
  simp only [Token.text, List.map_append, List.map_cons, List.append_assoc] at hdrop
  rw [List.drop_left' (by simp)] at hdrop
  cases hdrop with
  | cons hstands _ =>
    have hspace : space = apostrophe := hstands.outside rfl
    exact absurd hspace (by decide)

example : scanCpp (utf16 "f('\\'', \"//\"); // it's\n") =
    ⟨utf16 "f(    ,     );        \n", [utf16 " it's"]⟩ := by
  decide

end Cine.Grading.StyleChecks
