import Cine.Authoring.Ruler.Quotes

/-!
# Examples that stand in the statement

`indexOfWhole` and `exampleIsInStatement` of
`exam-authoring/ruler/ruler-core.ts`.  The test for a letter beside an
occurrence reads one code unit, so it does not see a letter that is a surrogate
pair.

* `indexOfWhole_spec`: the first occurrence with no letter of one unit beside it.
* `exampleIsInStatement_iff_units`: the first occurrence of the input is enough.
* `standsAt_iff`: what the unit misses of the character.
* `exampleIsInStatement_iff`: when the answer is that of the characters.

The classes `\p{L}` and `\p{N}` are one parameter, `letterOrNumber`.
-/

namespace Cine.Authoring.Ruler

open Cine.Lib Cine.Grading

structure ExampleProposal where
  input : String
  output : String
  quote : String
deriving DecidableEq, Repr

variable (letterOrNumber : Char → Bool)

/-- `TOKEN_CHAR` on a code point; half a surrogate pair is neither letter nor number. -/
def isTokenChar (code : Nat) : Bool :=
  code = 0x5F || (!isSurrogate code && letterOrNumber (Char.ofNat code))

def tokensOf (text : List Nat) : Nat :=
  if text = [] then 0 else (text.splitOn 0x20).length

/-! ## The search -/

def occursAt (haystack needle : List Nat) (i : Nat) : Bool :=
  needle.isPrefixOf (haystack.drop i)

/-- The units beside the occurrence at `i` are no letters. -/
def wholeAt (haystack needle : List Nat) (i : Nat) : Bool :=
  let before := if i = 0 then none else haystack[i - 1]?
  let after := haystack[i + needle.length]?
  before.all (fun u => !isTokenChar letterOrNumber u) &&
    after.all fun u => !isTokenChar letterOrNumber u

/-- The loop of `indexOfWhole`, for so many rounds. -/
def wholeFrom (haystack needle : List Nat) : Nat → Option Nat → Option Nat
  | 0, _ => none
  | _ + 1, none => none
  | rounds + 1, some i =>
    if wholeAt letterOrNumber haystack needle i then some i
    else wholeFrom haystack needle rounds (indexOf haystack needle (i + 1))

def indexOfWhole (haystack needle : List Nat) (start : Nat) : Option Nat :=
  wholeFrom letterOrNumber haystack needle (haystack.length + 2) (indexOf haystack needle start)

/-- `MIN_EXAMPLE_TOKENS`. -/
def minExampleTokens : Nat := 3

def exampleIsInStatement (nfc : List Nat → List Nat) (ex : ExampleProposal) (statement : String) :
    Bool :=
  if !quoteAppearsInStatement nfc ex.quote statement then false
  else
    let quote := normalizeForQuote nfc ex.quote
    let input := normalizeForQuote nfc ex.input
    let output := normalizeForQuote nfc ex.output
    if output = [] then false
    else if tokensOf input + tokensOf output < minExampleTokens then false
    else if input = [] then (indexOfWhole letterOrNumber quote output 0).isSome
    else
      match indexOfWhole letterOrNumber quote input 0 with
      | none => false
      | some i => (indexOfWhole letterOrNumber quote output (i + input.length)).isSome

/-! ## What is claimed -/

def wordCount (text : List Nat) : Nat :=
  ((text.splitOnP isSpaceUnit).filter (· ≠ [])).length

/-- The characters directly before and behind an occurrence. -/
def beside (haystack needle : List Nat) (i : Nat) : List Nat :=
  (codePoints (haystack.take i)).getLast?.toList ++
    (codePoints (haystack.drop (i + needle.length))).head?.toList

/-- The needle stands at `i` with no letter, number or underscore beside it. -/
def StandsAt (haystack needle : List Nat) (i : Nat) : Prop :=
  occursAt haystack needle i = true ∧
    ∀ c ∈ beside haystack needle i, isTokenChar letterOrNumber c = false

/-- The input stands in the quotation and the output behind it; an example may have no input. -/
def StandsIn (quote input output : List Nat) : Prop :=
  ∃ j, StandsAt letterOrNumber quote output j ∧
    (input ≠ [] → ∃ i, StandsAt letterOrNumber quote input i ∧ i + input.length ≤ j)

structure IsStated (nfc : List Nat → List Nat) (ex : ExampleProposal) (statement : String) :
    Prop where
  long : 10 ≤ (normalizeForQuote nfc ex.quote).length
  quoted : normalizeForQuote nfc ex.quote <:+: normalizeForQuote nfc statement
  words : 3 ≤ wordCount (normalizeForQuote nfc ex.input) +
    wordCount (normalizeForQuote nfc ex.output)
  output : normalizeForQuote nfc ex.output ≠ []
  stands : StandsIn letterOrNumber (normalizeForQuote nfc ex.quote)
    (normalizeForQuote nfc ex.input) (normalizeForQuote nfc ex.output)

/-! ## The search finds the first -/

variable {letterOrNumber} {haystack needle : List Nat}

theorem le_length_of_occursAt {i : Nat} (hne : needle ≠ [])
    (h : occursAt haystack needle i = true) : i < haystack.length := by
  have hprefix : needle <+: haystack.drop i := List.isPrefixOf_iff_prefix.1 h
  have hlength := hprefix.length_le
  rw [List.length_drop] at hlength
  have hpos := List.length_pos_iff.2 hne
  omega

theorem indexOf_spec {start i : Nat} (h : indexOf haystack needle start = some i) :
    start ≤ i ∧ occursAt haystack needle i = true := by
  have hmem := List.mem_of_find?_eq_some h
  exact ⟨(List.mem_range'_1.1 hmem).1, List.find?_some h⟩

theorem exists_indexOf_le {start j : Nat} (hne : needle ≠ []) (hstart : start ≤ j)
    (hj : occursAt haystack needle j = true) :
    ∃ i, i ≤ j ∧ indexOf haystack needle start = some i := by
  have hlt := le_length_of_occursAt hne hj
  cases hfind : indexOf haystack needle start with
  | none =>
    have hno : (!occursAt haystack needle j) = true :=
      List.find?_range'_eq_none.1 hfind j hstart (by omega)
    rw [hj] at hno
    exact absurd hno (by decide)
  | some i =>
    obtain ⟨-, hmem, hfirst⟩ := List.find?_range'_eq_some.1 hfind
    refine ⟨i, ?_, rfl⟩
    by_contra hlater
    have hno : (!occursAt haystack needle j) = true := hfirst j hstart (by omega)
    rw [hj] at hno
    exact absurd hno (by decide)

/-- The needle stands at `i` with no letter, number or underscore of one unit beside it. -/
def UnitsStandAt (letterOrNumber : Char → Bool) (haystack needle : List Nat) (i : Nat) : Prop :=
  occursAt haystack needle i = true ∧ wholeAt letterOrNumber haystack needle i = true

theorem wholeFrom_sound {rounds start i : Nat}
    (h : wholeFrom letterOrNumber haystack needle rounds (indexOf haystack needle start) = some i) :
    start ≤ i ∧ UnitsStandAt letterOrNumber haystack needle i := by
  induction rounds generalizing start with
  | zero => cases h
  | succ rounds ih =>
    cases hindex : indexOf haystack needle start with
    | none =>
      rw [hindex] at h
      cases h
    | some k =>
      obtain ⟨hstart, hoccurs⟩ := indexOf_spec hindex
      rw [hindex, wholeFrom] at h
      split_ifs at h with hwhole
      · cases h
        exact ⟨hstart, hoccurs, hwhole⟩
      · obtain ⟨hle, hstands⟩ := ih h
        exact ⟨by omega, hstands⟩

theorem exists_wholeFrom {rounds start j : Nat} (hne : needle ≠ []) (hstart : start ≤ j)
    (hj : UnitsStandAt letterOrNumber haystack needle j)
    (hrounds : haystack.length + 1 < rounds + start) :
    ∃ i, i ≤ j ∧
      wholeFrom letterOrNumber haystack needle rounds (indexOf haystack needle start) = some i := by
  have hlt := le_length_of_occursAt hne hj.1
  induction rounds generalizing start with
  | zero => omega
  | succ rounds ih =>
    obtain ⟨k, hk, hindex⟩ := exists_indexOf_le hne hstart hj.1
    rw [hindex, wholeFrom]
    split_ifs with hwhole
    · exact ⟨k, hk, rfl⟩
    · have hbehind : k ≠ j := by
        rintro rfl
        exact hwhole hj.2
      have hstart' := (indexOf_spec hindex).1
      exact ih (by omega) (by omega)

theorem indexOfWhole_spec (hne : needle ≠ []) (start : Nat) :
    (∀ i, indexOfWhole letterOrNumber haystack needle start = some i →
      start ≤ i ∧ UnitsStandAt letterOrNumber haystack needle i) ∧
    ∀ j, start ≤ j → UnitsStandAt letterOrNumber haystack needle j →
      ∃ i, i ≤ j ∧ indexOfWhole letterOrNumber haystack needle start = some i := by
  refine ⟨fun i h => wholeFrom_sound h, fun j hstart hj => ?_⟩
  exact exists_wholeFrom hne hstart hj (by omega)

theorem isSome_indexOfWhole_iff (hne : needle ≠ []) (start : Nat) :
    (indexOfWhole letterOrNumber haystack needle start).isSome = true ↔
      ∃ j, UnitsStandAt letterOrNumber haystack needle j ∧ start ≤ j := by
  obtain ⟨hsound, hfound⟩ := @indexOfWhole_spec letterOrNumber haystack needle hne start
  rw [Option.isSome_iff_exists]
  constructor
  · rintro ⟨i, hi⟩
    exact ⟨i, (hsound i hi).2, (hsound i hi).1⟩
  · rintro ⟨j, hj, hstart⟩
    obtain ⟨i, -, hi⟩ := hfound j hstart hj
    exact ⟨i, hi⟩

/-- As `StandsIn`, by the units. -/
def UnitsStandIn (letterOrNumber : Char → Bool) (quote input output : List Nat) : Prop :=
  ∃ j, UnitsStandAt letterOrNumber quote output j ∧
    (input ≠ [] → ∃ i, UnitsStandAt letterOrNumber quote input i ∧ i + input.length ≤ j)

theorem exampleIsInStatement_iff_units {nfc : List Nat → List Nat} {ex : ExampleProposal}
    {statement : String} :
    exampleIsInStatement letterOrNumber nfc ex statement = true ↔
      quoteAppearsInStatement nfc ex.quote statement = true ∧
        normalizeForQuote nfc ex.output ≠ [] ∧
        3 ≤ tokensOf (normalizeForQuote nfc ex.input) + tokensOf (normalizeForQuote nfc ex.output) ∧
        UnitsStandIn letterOrNumber (normalizeForQuote nfc ex.quote)
          (normalizeForQuote nfc ex.input) (normalizeForQuote nfc ex.output) := by
  unfold exampleIsInStatement UnitsStandIn minExampleTokens
  dsimp only
  generalize normalizeForQuote nfc ex.quote = quote
  generalize normalizeForQuote nfc ex.input = input
  generalize normalizeForQuote nfc ex.output = output
  cases quoteAppearsInStatement nfc ex.quote statement with
  | false => simp
  | true =>
    simp only [Bool.not_true, Bool.false_eq_true, if_false, true_and]
    by_cases houtput : output = []
    · simp [houtput]
    · rw [if_neg houtput]
      by_cases hwords : tokensOf input + tokensOf output < 3
      · rw [if_pos hwords]
        exact iff_of_false Bool.false_ne_true fun h => absurd hwords (by omega)
      · rw [if_neg hwords]
        have hwords' : 3 ≤ tokensOf input + tokensOf output := by omega
        simp only [houtput, ne_eq, not_false_eq_true, hwords', true_and]
        by_cases hinput : input = []
        · rw [if_pos hinput, isSome_indexOfWhole_iff houtput]
          simp [hinput]
        · rw [if_neg hinput]
          simp only [hinput, not_false_eq_true, forall_const]
          obtain ⟨hsound, hfound⟩ := @indexOfWhole_spec letterOrNumber quote input hinput 0
          cases hindex : indexOfWhole letterOrNumber quote input 0 with
          | none =>
            refine iff_of_false Bool.false_ne_true ?_
            rintro ⟨j, -, i, hi, -⟩
            obtain ⟨k, -, hk⟩ := hfound i (Nat.zero_le _) hi
            rw [hindex] at hk
            cases hk
          | some k =>
            show (indexOfWhole letterOrNumber quote output (k + input.length)).isSome = true ↔ _
            rw [isSome_indexOfWhole_iff houtput]
            constructor
            · rintro ⟨j, hj, hle⟩
              exact ⟨j, hj, k, (hsound k hindex).2, hle⟩
            · rintro ⟨j, hj, i, hi, hle⟩
              obtain ⟨k', hk', hfirst⟩ := hfound i (Nat.zero_le _) hi
              rw [hindex] at hfirst
              obtain rfl := Option.some.inj hfirst
              exact ⟨j, hj, by omega⟩

/-! ## Words -/

theorem splitOnP_congr {α : Type} {p q : α → Bool} {l : List α} (h : ∀ a ∈ l, p a = q a) :
    l.splitOnP p = l.splitOnP q := by
  induction l with
  | nil => rfl
  | cons a l ih =>
    rw [List.splitOnP_cons_eq_if_modifyHead, List.splitOnP_cons_eq_if_modifyHead,
      h a List.mem_cons_self, ih fun b hb => h b (List.mem_cons_of_mem _ hb)]

theorem tokensOf_normalizeForQuote (nfc : List Nat → List Nat) (text : String) :
    tokensOf (normalizeForQuote nfc text) = wordCount (normalizeForQuote nfc text) := by
  unfold tokensOf wordCount
  split_ifs with hnil
  · rw [hnil]
    rfl
  · have hspaces : ∀ u ∈ normalizeForQuote nfc text, isSpaceUnit u = (u == 0x20) := by
      intro u hu
      cases Squeeze.mem_collapse (Squeeze.mem_of_mem_trimEnds hu) with
      | inl hgap =>
        rw [hgap]
        rfl
      | inr hletter =>
        rw [hletter.2]
        refine (beq_eq_false_iff_ne.2 ?_).symm
        rintro rfl
        exact absurd hletter.2 (by decide)
    have hsplit : (normalizeForQuote nfc text).splitOn 0x20 =
        (normalizeForQuote nfc text).splitOnP isSpaceUnit := (splitOnP_congr hspaces).symm
    have hwords : [] ∉ (normalizeForQuote nfc text).splitOnP isSpaceUnit :=
      Squeeze.nil_notMem_words hnil
    rw [hsplit, List.filter_eq_self.2]
    intro word hword
    apply decide_eq_true
    rintro rfl
    exact hwords hword

/-! ## Units and characters -/

/-- A unit at the edge of a text and the character there: the same, or the character is a pair. -/
def EdgeOf (unit code : Option Nat) : Prop :=
  unit = none ∧ code = none ∨ ∃ u c, unit = some u ∧ code = some c ∧
    (c = u ∨ isSurrogate u = true ∧ 0xFFFF < c)

theorem edgeOf_head (l : List Nat) : EdgeOf l.head? (codePoints l).head? := by
  fun_cases codePoints l with
  | case1 => exact Or.inl ⟨rfl, rfl⟩
  | case2 u => exact Or.inr ⟨u, u, rfl, rfl, Or.inl rfl⟩
  | case3 hi lo l hpair =>
    refine Or.inr ⟨hi, _, rfl, rfl, Or.inr ⟨?_, by omega⟩⟩
    simp only [isHigh, isLow, decide_eq_true_iff] at hpair
    simp only [isSurrogate, decide_eq_true_iff]
    omega
  | case4 hi lo l hpair => exact Or.inr ⟨hi, hi, rfl, rfl, Or.inl rfl⟩

theorem codePoints_ne_nil {l : List Nat} (h : l ≠ []) : codePoints l ≠ [] := by
  fun_cases codePoints l <;> simp_all

theorem edgeOf_last (l : List Nat) : EdgeOf l.getLast? (codePoints l).getLast? := by
  fun_induction codePoints l with
  | case1 => exact Or.inl ⟨rfl, rfl⟩
  | case2 u => exact Or.inr ⟨u, u, rfl, rfl, Or.inl rfl⟩
  | case3 hi lo l hpair ih =>
    cases l with
    | nil =>
      refine Or.inr ⟨lo, 0x10000 + (hi - 0xD800) * 0x400 + (lo - 0xDC00), rfl, rfl,
        Or.inr ⟨?_, by omega⟩⟩
      simp only [isHigh, isLow, decide_eq_true_iff] at hpair
      simp only [isSurrogate, decide_eq_true_iff]
      omega
    | cons u l =>
      have hne := codePoints_ne_nil (List.cons_ne_nil u l)
      rw [List.getLast?_cons_of_ne_nil hne]
      exact ih
  | case4 hi lo l hpair ih =>
    have hne := codePoints_ne_nil (List.cons_ne_nil lo l)
    rw [List.getLast?_cons_of_ne_nil hne]
    exact ih

theorem isTokenChar_of_isSurrogate {u : Nat} (h : isSurrogate u = true) :
    isTokenChar letterOrNumber u = false := by
  unfold isTokenChar
  rw [h, Bool.not_true, Bool.false_and, Bool.or_false]
  simp only [isSurrogate, decide_eq_true_eq] at h
  exact decide_eq_false (by omega)

/-- A letter, number or underscore outside the basic plane. -/
def IsAstralToken (letterOrNumber : Char → Bool) (code : Nat) : Prop :=
  0xFFFF < code ∧ isTokenChar letterOrNumber code = true

theorem EdgeOf.plain_iff {unit code : Option Nat} (h : EdgeOf unit code) :
    (∀ c ∈ code.toList, isTokenChar letterOrNumber c = false) ↔
      (unit.all fun u => !isTokenChar letterOrNumber u) = true ∧
        ∀ c ∈ code.toList, ¬ IsAstralToken letterOrNumber c := by
  obtain ⟨rfl, rfl⟩ | ⟨u, c, rfl, rfl, hsame⟩ := h
  · simp
  · simp only [Option.toList_some, List.mem_singleton, forall_eq, Option.all_some,
      Bool.not_eq_true', IsAstralToken]
    obtain rfl | ⟨hu, hc⟩ := hsame
    · constructor
      · exact fun hplain => ⟨hplain, fun hastral => by simp [hplain] at hastral⟩
      · exact fun hplain => hplain.1
    · rw [isTokenChar_of_isSurrogate hu]
      simp [hc]

/-- A letter or number outside the basic plane stands beside the occurrence at `i`. -/
def AstralBeside (letterOrNumber : Char → Bool) (haystack needle : List Nat) (i : Nat) : Prop :=
  ∃ c ∈ beside haystack needle i, IsAstralToken letterOrNumber c

theorem standsAt_iff (hne : needle ≠ []) {i : Nat} :
    StandsAt letterOrNumber haystack needle i ↔
      UnitsStandAt letterOrNumber haystack needle i ∧
        ¬ AstralBeside letterOrNumber haystack needle i := by
  unfold StandsAt UnitsStandAt AstralBeside
  rw [and_assoc]
  refine and_congr_right fun hoccurs => ?_
  have hlt := le_length_of_occursAt hne hoccurs
  have hbefore := edgeOf_last (haystack.take i)
  have hafter := edgeOf_head (haystack.drop (i + needle.length))
  have hunit : (haystack.take i).getLast? = if i = 0 then none else haystack[i - 1]? := by
    rw [List.getLast?_take]
    split_ifs with hzero
    · rfl
    · rw [List.getElem?_eq_getElem (by omega), Option.some_or]
  rw [hunit] at hbefore
  rw [List.head?_drop] at hafter
  unfold wholeAt beside
  dsimp only
  rw [Bool.and_eq_true, List.forall_mem_append, hbefore.plain_iff, hafter.plain_iff]
  simp only [List.mem_append]
  constructor
  · rintro ⟨⟨hb, hb'⟩, ha, ha'⟩
    refine ⟨⟨hb, ha⟩, ?_⟩
    rintro ⟨c, hc | hc, hastral⟩
    · exact hb' c hc hastral
    · exact ha' c hc hastral
  · rintro ⟨⟨hb, ha⟩, hno⟩
    exact ⟨⟨hb, fun c hc hastral => hno ⟨c, Or.inl hc, hastral⟩⟩, ha,
      fun c hc hastral => hno ⟨c, Or.inr hc, hastral⟩⟩

/-! ## When the answer is right -/

/-- Wherever the example stands as far as the units tell, a letter or number outside the basic plane
stands beside the input or the output. -/
def AstralAlways (letterOrNumber : Char → Bool) (quote input output : List Nat) : Prop :=
  ∀ j, UnitsStandAt letterOrNumber quote output j →
    AstralBeside letterOrNumber quote output j ∨
      input ≠ [] ∧ ∀ i, UnitsStandAt letterOrNumber quote input i → i + input.length ≤ j →
        AstralBeside letterOrNumber quote input i

theorem standsIn_iff {quote input output : List Nat} (houtput : output ≠ []) :
    StandsIn letterOrNumber quote input output ↔
      ¬ AstralAlways letterOrNumber quote input output := by
  unfold StandsIn AstralAlways
  push Not
  refine exists_congr fun j => ?_
  rw [standsAt_iff houtput, and_assoc]
  refine and_congr_right fun _ => and_congr_right fun _ => forall_congr' fun hinput => ?_
  refine exists_congr fun i => ?_
  rw [standsAt_iff hinput, and_assoc]
  exact and_congr_right fun _ => and_comm

theorem StandsIn.units {quote input output : List Nat} (houtput : output ≠ [])
    (h : StandsIn letterOrNumber quote input output) :
    UnitsStandIn letterOrNumber quote input output := by
  obtain ⟨j, hj, hinput⟩ := h
  refine ⟨j, ((standsAt_iff houtput).1 hj).1, fun hne => ?_⟩
  obtain ⟨i, hi, hle⟩ := hinput hne
  exact ⟨i, ((standsAt_iff hne).1 hi).1, hle⟩

/-- The tests on the texts pass and the example stands as far as the units tell, but always with a
letter or number outside the basic plane beside it. -/
structure HiddenByPlane (letterOrNumber : Char → Bool) (nfc : List Nat → List Nat)
    (ex : ExampleProposal) (statement : String) : Prop where
  quoted : quoteAppearsInStatement nfc ex.quote statement = true
  words : 3 ≤ wordCount (normalizeForQuote nfc ex.input) +
    wordCount (normalizeForQuote nfc ex.output)
  output : normalizeForQuote nfc ex.output ≠ []
  stands : UnitsStandIn letterOrNumber (normalizeForQuote nfc ex.quote)
    (normalizeForQuote nfc ex.input) (normalizeForQuote nfc ex.output)
  astral : AstralAlways letterOrNumber (normalizeForQuote nfc ex.quote)
    (normalizeForQuote nfc ex.input) (normalizeForQuote nfc ex.output)

theorem quoteAppearsInStatement_iff {nfc : List Nat → List Nat} {quote statement : String} :
    quoteAppearsInStatement nfc quote statement = true ↔
      10 ≤ (normalizeForQuote nfc quote).length ∧
        normalizeForQuote nfc quote <:+: normalizeForQuote nfc statement := by
  unfold quoteAppearsInStatement
  dsimp only
  rw [Bool.and_eq_true, decide_eq_true_iff, decide_eq_true_iff]
  rfl

/-- The answer is that of the characters, unless the example is hidden by the plane of a letter. -/
theorem exampleIsInStatement_iff (letterOrNumber : Char → Bool) (nfc : List Nat → List Nat)
    (ex : ExampleProposal) (statement : String) :
    (exampleIsInStatement letterOrNumber nfc ex statement = true ↔
        IsStated letterOrNumber nfc ex statement) ↔
      ¬ HiddenByPlane letterOrNumber nfc ex statement := by
  rw [exampleIsInStatement_iff_units, tokensOf_normalizeForQuote, tokensOf_normalizeForQuote]
  constructor
  · intro h hhidden
    have hstated := h.1 ⟨hhidden.quoted, hhidden.output, hhidden.words, hhidden.stands⟩
    exact (standsIn_iff hhidden.output).1 hstated.stands hhidden.astral
  · intro h
    constructor
    · rintro ⟨hquoted, houtput, hwords, hunits⟩
      obtain ⟨hlong, hin⟩ := quoteAppearsInStatement_iff.1 hquoted
      refine ⟨hlong, hin, hwords, houtput, (standsIn_iff houtput).2 fun hastral => ?_⟩
      exact h ⟨hquoted, hwords, houtput, hunits, hastral⟩
    · intro hstated
      exact ⟨quoteAppearsInStatement_iff.2 ⟨hstated.long, hstated.quoted⟩, hstated.output,
        hstated.words, hstated.stands.units hstated.output⟩

/-- `1 2` behind a letter of two units. -/
theorem letter_unseen : ¬ ∀ letterOrNumber nfc ex statement,
    exampleIsInStatement letterOrNumber nfc ex statement = true ↔
      IsStated letterOrNumber nfc ex statement := by
  intro h
  let letter : Char → Bool := fun c => c = '𝒳' || (97 ≤ c.toNat && c.toNat ≤ 122)
  have hiff := h letter id ⟨"1 2", "3", "nhap 𝒳1 2 thi in 3"⟩ "nhap 𝒳1 2 thi in 3"
  have hanswer : exampleIsInStatement letter id ⟨"1 2", "3", "nhap 𝒳1 2 thi in 3"⟩
      "nhap 𝒳1 2 thi in 3" = true := by decide
  obtain ⟨j, -, hinput⟩ := (hiff.1 hanswer).stands
  obtain ⟨i, ⟨hoccurs, hplain⟩, -⟩ := hinput (by decide)
  have hlt := le_length_of_occursAt (by decide) hoccurs
  have hnone : ∀ i < 19, occursAt (normalizeForQuote id "nhap 𝒳1 2 thi in 3")
      (normalizeForQuote id "1 2") i = true →
      ¬ ∀ c ∈ beside (normalizeForQuote id "nhap 𝒳1 2 thi in 3") (normalizeForQuote id "1 2") i,
        isTokenChar letter c = false := by decide
  exact hnone i hlt hoccurs hplain

end Cine.Authoring.Ruler
