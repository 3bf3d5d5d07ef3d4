import Cine.Grading.GradeExport.CellRefs
import Cine.Worker.HandleMeasure

/-!
# Names and numbers of columns

`colToIndex`, `indexToCol` and `parseRef` of `grade-export/xlsx/xml-text.ts`,
for names of any length, with the numbers of a script.

* `roundDouble_eq`, `floorQuotient_eq`: numbers up to `2 ^ 53` are not rounded,
  nor is the whole part of their quotients by 26.
* `number_colLetters`: the letters of a number have that number.
* `number_lt_iff`: numbers stand in the order of the names, shorter names
  first.
* `column_names` is the result, and `columns_collide` shows two long names with
  one number.
-/

namespace Cine.Grading.Xlsx

open Cine.Lib Cine.Worker

/-! ## Names and their numbers -/

structure ColumnName where
  letters : List Char
  nonempty : letters ≠ []
  capital : ∀ c ∈ letters, 'A' ≤ c ∧ c ≤ 'Z'

/-- The number of the letters, without rounding. -/
def number (letters : List Char) : Nat := letters.foldl (fun n c => n * 26 + letterIndex c) 0

/-- Shorter names first, names of one length in the order of their letters. -/
def Before (l l' : List Char) : Prop := l.length < l'.length ∨ l.length = l'.length ∧ l < l'

/-! ## The arithmetic of a script -/

def times (k : Nat) : JsNumber → JsNumber
  | .finite n => roundDouble (n * k)
  | .infinity => .infinity

def plus (k : Nat) : JsNumber → JsNumber
  | .finite n => roundDouble (n + k)
  | .infinity => .infinity

/-- The whole number next to `a / b`, the even one of two. -/
def nearest (a b : Nat) : Nat :=
  if b < 2 * (a % b) ∨ (b = 2 * (a % b) ∧ a / b % 2 = 1) then a / b + 1 else a / b

/-- `Math.floor(a / b)`.  The quotient is rounded to 53 binary digits before it is cut. -/
def floorQuotient (a b : Nat) : Nat :=
  let whole := a / b
  if whole < 2 ^ 53 then
    let scale := if whole = 0 then 2 ^ 53 else 2 ^ (52 - whole.log2)
    nearest (a * scale) b / scale
  else
    let unit := 2 ^ (whole.log2 - 52)
    nearest a (b * unit) * unit

/-! ## The functions of the source -/

/-- `colToIndex`, on capital letters. -/
def colToIndex (letters : List Char) : JsNumber :=
  letters.foldl (fun n c => plus (letterIndex c) (times 26 n)) (.finite 0)

/-- The loop of `indexToCol`: nothing where it does not end. -/
def indexLoop : Nat → JsNumber → Option (List Char)
  | 0, _ => none
  | _ + 1, .infinity => none
  | fuel + 1, .finite n =>
    if n = 0 then some []
    else
      match roundDouble (n - 1) with
      | .infinity => none
      | .finite m =>
        (indexLoop fuel (.finite (floorQuotient m 26))).map (· ++ [Char.ofNat (65 + m % 26)])

/-- `indexToCol`.  The number gets smaller in each turn, if it is finite. -/
def indexToCol : JsNumber → Option (List Char)
  | .finite n => indexLoop (n + 1) (.finite n)
  | .infinity => none

structure CellPosition where
  col : JsNumber
  row : Nat
deriving DecidableEq, Repr

def isCapital (c : Char) : Bool := 'A' ≤ c ∧ c ≤ 'Z'

/-- `[1-9]\d{0,6}`. -/
def isRow (digits : List Char) : Bool :=
  digits.length ≤ 7 ∧ digits.all Char.isDigit ∧ digits.head?.any (· ≠ '0')

def parseRef (ref : List Char) : Option CellPosition :=
  let letters := ref.takeWhile isCapital
  let digits := ref.dropWhile isCapital
  if letters ≠ [] ∧ letters.length ≤ 3 ∧ isRow digits then
    some ⟨colToIndex letters, Nat.ofDigitChars 10 digits 0⟩
  else none

/-- The reference of a cell, as the writers of a sheet put it together. -/
def refText (cell : CellPosition) : Option (List Char) :=
  (indexToCol cell.col).map (· ++ Nat.toDigits 10 cell.row)

example : parseRef "F12".toList = some ⟨.finite 6, 12⟩ ∧ parseRef "A0".toList = none ∧
    refText ⟨.finite 27, 1⟩ = some "AA1".toList := by
  decide +kernel

/-! ## Numbers that are not rounded -/

variable {n : Nat} {l : List Char} {c : Char}

theorem roundDouble_eq (h : n ≤ 2 ^ 53) : roundDouble n = .finite n := by
  by_cases hlt : n < 2 ^ 53
  · unfold roundDouble
    rw [if_pos hlt]
  · obtain rfl : n = 2 ^ 53 := by omega
    decide +kernel

theorem nearest_cases (a b : Nat) :
    nearest a b = a / b ∨ nearest a b = a / b + 1 ∧ b ≤ 2 * (a % b) := by
  unfold nearest
  split_ifs with hup
  · exact Or.inr ⟨rfl, by omega⟩
  · exact Or.inl rfl

theorem floorQuotient_eq {a : Nat} (h : a < 2 ^ 53) : floorQuotient a 26 = a / 26 := by
  have hwhole : a / 26 < 2 ^ 53 := by omega
  have hscale : ∀ scale, 16 ≤ scale → nearest (a * scale) 26 / scale = a / 26 := by
    intro scale hfine
    have hlow : a / 26 * 26 * scale ≤ a * scale := Nat.mul_le_mul_right _ (by omega)
    have hhigh : a * scale ≤ (a / 26 * 26 + 25) * scale := Nat.mul_le_mul_right _ (by omega)
    rw [Nat.mul_right_comm] at hlow
    rw [Nat.add_mul, Nat.mul_right_comm] at hhigh
    rw [Nat.div_eq_iff (by omega)]
    rcases nearest_cases (a * scale) 26 with heq | ⟨heq, hrest⟩
    · rw [heq]
      omega
    · rw [heq]
      omega
  unfold floorQuotient
  dsimp only
  rw [if_pos hwhole]
  by_cases hzero : a / 26 = 0
  · rw [if_pos hzero]
    exact hscale _ (by decide)
  · rw [if_neg hzero]
    have hlog : (a / 26).log2 < 49 := (Nat.log2_lt hzero).2 (by omega)
    have hpow : 2 ^ 4 ≤ 2 ^ (52 - (a / 26).log2) := Nat.pow_le_pow_right (by decide) (by omega)
    exact hscale _ hpow

/-! ## The loops -/

theorem number_append (l : List Char) (c : Char) :
    number (l ++ [c]) = number l * 26 + letterIndex c := by
  unfold number
  rw [List.foldl_append]
  rfl

theorem colToIndex_eq (h : number l ≤ 2 ^ 53) : colToIndex l = .finite (number l) := by
  induction l using List.reverseRecOn with
  | nil => rfl
  | append_singleton l c ih =>
    rw [number_append] at h
    have hfront := ih (by omega)
    unfold colToIndex at hfront ⊢
    rw [List.foldl_append, hfront, number_append]
    show plus (letterIndex c) (roundDouble (number l * 26)) = _
    rw [roundDouble_eq (by omega)]
    exact roundDouble_eq h

theorem indexLoop_eq {fuel : Nat} (h : n ≤ 2 ^ 53) (hfuel : n < fuel) :
    indexLoop fuel (.finite n) = some (colLetters n n) := by
  induction fuel generalizing n with
  | zero => omega
  | succ fuel ih =>
    unfold indexLoop
    by_cases hzero : n = 0
    · rw [if_pos hzero, hzero]
      rfl
    · have hstep : n = (n - 1) / 26 * 26 + ((n - 1) % 26 + 1) := by omega
      rw [if_neg hzero, roundDouble_eq (by omega)]
      dsimp only
      rw [floorQuotient_eq (by omega), ih (by omega) (by omega)]
      conv_rhs => rw [hstep, colLetters_step (by omega) (by omega) le_rfl]
      rw [Option.map_some, show 64 + ((n - 1) % 26 + 1) = 65 + (n - 1) % 26 by omega]

theorem indexToCol_eq (h : n ≤ 2 ^ 53) : indexToCol (.finite n) = some (colLetters n n) :=
  indexLoop_eq h (Nat.lt_succ_self n)

/-! ## The letters of a number -/

theorem letter_of_digit {d : Nat} (hpos : 1 ≤ d) (hle : d ≤ 26) :
    letterIndex (Char.ofNat (64 + d)) = d ∧ 'A' ≤ Char.ofNat (64 + d) ∧
      Char.ofNat (64 + d) ≤ 'Z' := by
  have hall : ∀ d < 27, 1 ≤ d → letterIndex (Char.ofNat (64 + d)) = d ∧
      'A' ≤ Char.ofNat (64 + d) ∧ Char.ofNat (64 + d) ≤ 'Z' := by
    decide +kernel
  exact hall d (by omega) hpos

theorem colLetters_of_pos (h : 0 < n) :
    colLetters n n = colLetters ((n - 1) / 26) ((n - 1) / 26) ++
      [Char.ofNat (64 + ((n - 1) % 26 + 1))] := by
  have hstep : n = (n - 1) / 26 * 26 + ((n - 1) % 26 + 1) := by omega
  conv_lhs => rw [hstep]
  exact colLetters_step (by omega) (by omega) le_rfl

theorem number_colLetters (n : Nat) :
    number (colLetters n n) = n ∧ ∀ c ∈ colLetters n n, 'A' ≤ c ∧ c ≤ 'Z' := by
  induction n using Nat.strong_induction_on with
  | _ n ih =>
    rcases Nat.eq_zero_or_pos n with rfl | hpos
    · exact ⟨rfl, fun _ h => absurd h List.not_mem_nil⟩
    · obtain ⟨hnumber, hcapital⟩ := ih ((n - 1) / 26) (by omega)
      obtain ⟨hindex, hletter⟩ := letter_of_digit (d := (n - 1) % 26 + 1) (by omega) (by omega)
      rw [colLetters_of_pos hpos, number_append, hnumber, hindex]
      refine ⟨by omega, fun c hc => ?_⟩
      rcases List.mem_append.1 hc with hc | hc
      · exact hcapital c hc
      · rw [List.mem_singleton.1 hc]
        exact hletter

def nameOf (n : Nat) (h : 1 ≤ n) : ColumnName where
  letters := colLetters n n
  nonempty := by
    rw [colLetters_of_pos h]
    exact List.append_ne_nil_of_right_ne_nil _ (List.cons_ne_nil _ _)
  capital := (number_colLetters n).2

/-! ## The order of the names -/

theorem foldl_lt_foldl_iff {l' : List Char} (hlength : l.length = l'.length)
    (h : ∀ c ∈ l, 'A' ≤ c ∧ c ≤ 'Z') (h' : ∀ c ∈ l', 'A' ≤ c ∧ c ≤ 'Z') (a b : Nat) :
    l.foldl (fun n c => n * 26 + letterIndex c) a < l'.foldl (fun n c => n * 26 + letterIndex c) b ↔
      a < b ∨ a = b ∧ l < l' := by
  induction l generalizing l' a b with
  | nil =>
    obtain rfl := List.length_eq_zero_iff.1 hlength.symm
    simp
  | cons c l ih =>
    obtain _ | ⟨c', l'⟩ := l'
    · cases hlength
    obtain ⟨hlow, hhigh⟩ := h c List.mem_cons_self
    obtain ⟨hlow', hhigh'⟩ := h' c' List.mem_cons_self
    have hnumber : ∀ {c : Char}, 'A' ≤ c → c ≤ 'Z' → 65 ≤ c.toNat ∧ c.toNat ≤ 90 :=
      fun hlow hhigh => ⟨hlow, hhigh⟩
    have hc := hnumber hlow hhigh
    have hc' := hnumber hlow' hhigh'
    have hfront : a * 26 + letterIndex c < b * 26 + letterIndex c' ↔ a < b ∨ a = b ∧ c < c' := by
      rw [letterIndex_of_capital hlow hhigh, letterIndex_of_capital hlow' hhigh',
        show c < c' ↔ c.toNat < c'.toNat from Iff.rfl]
      omega
    have hsame : a * 26 + letterIndex c = b * 26 + letterIndex c' ↔ a = b ∧ c = c' := by
      rw [letterIndex_of_capital hlow hhigh, letterIndex_of_capital hlow' hhigh', ← Char.toNat_inj]
      omega
    rw [List.foldl_cons, List.foldl_cons,
      ih (Nat.succ.inj hlength) (fun c hc => h c (List.mem_cons_of_mem _ hc))
        (fun c hc => h' c (List.mem_cons_of_mem _ hc)), List.cons_lt_cons_iff, hfront, hsame]
    rw [and_assoc, or_assoc, ← and_or_left]

theorem number_pos (s : ColumnName) : 0 < number s.letters := by
  obtain ⟨l, c, hl⟩ : ∃ l c, s.letters = l ++ [c] :=
    ⟨_, _, (List.dropLast_append_getLast s.nonempty).symm⟩
  have hc := s.capital c (hl ▸ List.mem_append_right _ (List.mem_singleton_self c))
  obtain ⟨hpos, -⟩ := ofNat_letterIndex hc.1 hc.2
  rw [hl, number_append]
  omega

theorem number_lt_of_shorter {s t : ColumnName} (h : s.letters.length < t.letters.length) :
    number s.letters < number t.letters := by
  let k := t.letters.length - s.letters.length
  have hfront : 0 < number (t.letters.take k) := by
    refine number_pos ⟨t.letters.take k, ?_, fun c hc => t.capital c (List.mem_of_mem_take hc)⟩
    intro hnil
    have hlength := congrArg List.length hnil
    rw [List.length_take, List.length_nil] at hlength
    omega
  have hback : s.letters.length = (t.letters.drop k).length := by
    rw [List.length_drop]
    omega
  have hlt := (foldl_lt_foldl_iff hback s.capital
    (fun c hc => t.capital c (List.mem_of_mem_drop hc)) 0 (number (t.letters.take k))).2
    (Or.inl hfront)
  unfold number at hlt ⊢
  rwa [← List.foldl_append, List.take_append_drop] at hlt

theorem number_lt_iff (s t : ColumnName) :
    number s.letters < number t.letters ↔ Before s.letters t.letters := by
  unfold Before
  rcases Nat.lt_trichotomy s.letters.length t.letters.length with hlt | heq | hgt
  · exact iff_of_true (number_lt_of_shorter hlt) (Or.inl hlt)
  · have hlex := foldl_lt_foldl_iff heq s.capital t.capital 0 0
    rw [show number s.letters < number t.letters ↔ _ from hlex, heq]
    simp
  · have hlarger := number_lt_of_shorter hgt
    refine iff_of_false (by omega) ?_
    rintro (hlt | ⟨heq, _⟩)
    · omega
    · omega

/-! ## Rows -/

theorem toDigits_head (n : Nat) (h : 0 < n) : ∃ c l, Nat.toDigits 10 n = c :: l ∧ c ≠ '0' := by
  induction n using Nat.base_induction 10 (by decide) with
  | single n hn =>
    rw [Nat.toDigits_of_lt_base hn]
    refine ⟨_, [], rfl, ?_⟩
    have hall : ∀ n < 10, 0 < n → Nat.digitChar n ≠ '0' := by
      decide
    exact hall n hn h
  | digit n k hk hn ih =>
    obtain ⟨c, l, hl, hc⟩ := ih hn
    rw [← Nat.toDigits_append_toDigits (by decide) hn hk, hl]
    exact ⟨c, _, rfl, hc⟩

theorem isRow_toDigits {row : Nat} (hpos : 1 ≤ row) (hle : row ≤ 9999999) :
    isRow (Nat.toDigits 10 row) = true := by
  obtain ⟨c, l, hl, hc⟩ := toDigits_head row hpos
  have hlength : (Nat.toDigits 10 row).length ≤ 7 :=
    (Nat.length_toDigits_le_iff (by decide) (by decide)).2 (by omega)
  have hdigits : (Nat.toDigits 10 row).all Char.isDigit = true :=
    List.all_eq_true.2 fun _ h => Nat.isDigit_of_mem_toDigits (by decide) (by decide) h
  have hhead : (Nat.toDigits 10 row).head?.any (· ≠ '0') = true := by
    rw [hl]
    exact decide_eq_true hc
  exact decide_eq_true ⟨hlength, hdigits, hhead⟩

theorem digit_value (h : c.isDigit = true) :
    c.toNat - '0'.toNat < 10 ∧ Nat.digitChar (c.toNat - '0'.toNat) = c := by
  have hall : ∀ n < 58, 48 ≤ n → n - 48 < 10 ∧ Nat.digitChar (n - 48) = Char.ofNat n := by
    decide
  obtain ⟨hlow, hhigh⟩ := Char.isDigit_iff_toNat.1 h
  have hchar := hall c.toNat (Nat.lt_succ_of_le hhigh) hlow
  rwa [Char.ofNat_toNat] at hchar

theorem toDigits_ofDigitChars {digits : List Char} (hne : digits ≠ [])
    (hdigits : ∀ c ∈ digits, c.isDigit = true) (hhead : digits.head? ≠ some '0') :
    0 < Nat.ofDigitChars 10 digits 0 ∧
      Nat.toDigits 10 (Nat.ofDigitChars 10 digits 0) = digits := by
  induction digits using List.reverseRecOn with
  | nil => exact absurd rfl hne
  | append_singleton l c ih =>
    obtain ⟨hlt, hchar⟩ := digit_value (hdigits c (List.mem_append_right _ List.mem_cons_self))
    rw [Nat.ofDigitChars_append, Nat.ofDigitChars_cons, Nat.ofDigitChars_nil]
    cases l with
    | nil =>
      have hc : c ≠ '0' := fun heq => hhead (congrArg some heq)
      have hpos : 0 < c.toNat - '0'.toNat := by
        rcases Nat.eq_zero_or_pos (c.toNat - '0'.toNat) with hzero | hpos
        · rw [hzero] at hchar
          exact absurd hchar.symm hc
        · exact hpos
      rw [Nat.ofDigitChars_nil, Nat.mul_zero, Nat.zero_add]
      refine ⟨hpos, ?_⟩
      rw [Nat.toDigits_of_lt_base hlt, hchar]
      rfl
    | cons d l =>
      obtain ⟨hpos, hback⟩ := ih (List.cons_ne_nil _ _)
        (fun c hc => hdigits c (List.mem_append_left _ hc)) hhead
      refine ⟨by omega, ?_⟩
      rw [← Nat.toDigits_append_toDigits (by decide) hpos hlt, hback,
        Nat.toDigits_of_lt_base hlt, hchar]

/-! ## References -/

theorem isCapital_iff : isCapital c = true ↔ 'A' ≤ c ∧ c ≤ 'Z' := by
  unfold isCapital
  rw [Bool.decide_and, Bool.and_eq_true, decide_eq_true_eq, decide_eq_true_eq]

theorem span_ref {letters digits : List Char} (hcapital : ∀ c ∈ letters, 'A' ≤ c ∧ c ≤ 'Z')
    (hdigits : ∀ c ∈ digits, c.isDigit = true) :
    (letters ++ digits).takeWhile isCapital = letters ∧
      (letters ++ digits).dropWhile isCapital = digits := by
  have hletters : ∀ c ∈ letters, isCapital c = true := fun c hc => isCapital_iff.2 (hcapital c hc)
  have hend : digits.takeWhile isCapital = [] ∧ digits.dropWhile isCapital = digits := by
    cases digits with
    | nil => exact ⟨rfl, rfl⟩
    | cons c l =>
      have hc : isCapital c = false := by
        refine Bool.eq_false_iff.2 fun hc => ?_
        have hnot := not_isDigit_of_letter (isCapital_iff.1 hc).1
        rw [hdigits c List.mem_cons_self] at hnot
        cases hnot
      rw [List.takeWhile_cons, List.dropWhile_cons, hc]
      exact ⟨rfl, rfl⟩
  rw [List.takeWhile_append_of_pos hletters, List.dropWhile_append_of_pos hletters, hend.1, hend.2,
    List.append_nil]
  exact ⟨rfl, rfl⟩

theorem number_bounds (h : ∀ c ∈ l, 'A' ≤ c ∧ c ≤ 'Z') :
    26 ^ l.length ≤ 25 * number l + 1 ∧ 25 * number l + 26 ≤ 26 * 26 ^ l.length := by
  induction l using List.reverseRecOn with
  | nil => decide
  | append_singleton l c ih =>
    obtain ⟨hlow, hhigh⟩ := ih fun c hc => h c (List.mem_append_left _ hc)
    have hc := h c (List.mem_append_right _ (List.mem_singleton_self c))
    obtain ⟨hpos, hle, -⟩ := ofNat_letterIndex hc.1 hc.2
    rw [number_append, List.length_append, List.length_singleton, Nat.pow_succ]
    omega

theorem length_le_three_iff (h : ∀ c ∈ l, 'A' ≤ c ∧ c ≤ 'Z') : l.length ≤ 3 ↔ number l ≤ 18278 := by
  obtain ⟨hlow, hhigh⟩ := number_bounds h
  constructor
  · intro hlength
    have hpow : 26 ^ l.length ≤ 26 ^ 3 := Nat.pow_le_pow_right (by decide) hlength
    omega
  · intro hnumber
    by_contra hlength
    have hpow : 26 ^ 4 ≤ 26 ^ l.length := Nat.pow_le_pow_right (by decide) (by omega)
    omega

theorem refText_of_parseRef {ref : List Char} {cell : CellPosition} (h : parseRef ref = some cell) :
    refText cell = some ref := by
  unfold parseRef at h
  dsimp only at h
  split_ifs at h with hshape
  obtain ⟨hne, hlength, hrow⟩ := hshape
  obtain rfl := Option.some.inj h
  have hcapital : ∀ c ∈ ref.takeWhile isCapital, 'A' ≤ c ∧ c ≤ 'Z' :=
    fun c hc => isCapital_iff.1 (List.mem_takeWhile_imp hc)
  have hnumber := (length_le_three_iff hcapital).1 hlength
  obtain ⟨-, hdigits, hhead⟩ := of_decide_eq_true hrow
  have hrowne : ref.dropWhile isCapital ≠ [] := fun hnil => by
    rw [hnil] at hhead
    cases hhead
  have hzero : (ref.dropWhile isCapital).head? ≠ some '0' := fun hzero => by
    rw [hzero] at hhead
    cases hhead
  obtain ⟨-, hback⟩ := toDigits_ofDigitChars hrowne (List.all_eq_true.1 hdigits) hzero
  unfold refText
  dsimp only
  rw [colToIndex_eq (by omega), indexToCol_eq (by omega), hback]
  show some (colLetters (number _) (number _) ++ _) = _
  unfold number
  rw [colLetters_number hcapital, List.takeWhile_append_dropWhile]

theorem parseRef_of_cell {col row : Nat} (hcol : 1 ≤ col) (hcol' : col ≤ 18278) (hrow : 1 ≤ row)
    (hrow' : row ≤ 9999999) :
    ∃ ref, refText ⟨.finite col, row⟩ = some ref ∧ parseRef ref = some ⟨.finite col, row⟩ := by
  have htext : refText ⟨.finite col, row⟩ = some (colLetters col col ++ Nat.toDigits 10 row) := by
    unfold refText
    dsimp only
    rw [indexToCol_eq (by omega)]
    rfl
  refine ⟨_, htext, ?_⟩
  obtain ⟨hnumber, hcapital⟩ := number_colLetters col
  obtain ⟨hletters, hdigits⟩ := span_ref hcapital
    fun c hc => Nat.isDigit_of_mem_toDigits (b := 10) (n := row) (by decide) (by decide) hc
  have hlength := (length_le_three_iff hcapital).2 (by omega)
  unfold parseRef
  dsimp only
  rw [hletters, hdigits, if_pos ⟨(nameOf col hcol).nonempty, hlength, isRow_toDigits hrow hrow'⟩,
    colToIndex_eq (by omega), hnumber, Nat.ofDigitChars_ten_toDigits]

/-! ## The result -/

/-- Up to `2 ^ 53` a column has a name, and a name that reaches no further is the name of its
number; the numbers stand in the order of the names.  References of cells are read and printed
without a change. -/
theorem column_names :
    (∀ n, 1 ≤ n → n ≤ 2 ^ 53 → ∃ s : ColumnName,
      indexToCol (.finite n) = some s.letters ∧ colToIndex s.letters = .finite n) ∧
    (∀ s : ColumnName, number s.letters ≤ 2 ^ 53 →
      indexToCol (colToIndex s.letters) = some s.letters) ∧
    (∀ s t : ColumnName, number s.letters ≤ 2 ^ 53 → number t.letters ≤ 2 ^ 53 →
      ∃ m n, colToIndex s.letters = .finite m ∧ colToIndex t.letters = .finite n ∧
        (m < n ↔ Before s.letters t.letters)) ∧
    (∀ ref cell, parseRef ref = some cell → refText cell = some ref) ∧
    ∀ col row, 1 ≤ col → col ≤ 18278 → 1 ≤ row → row ≤ 9999999 →
      ∃ ref, refText ⟨.finite col, row⟩ = some ref ∧ parseRef ref = some ⟨.finite col, row⟩ := by
  refine ⟨?_, ?_, ?_, fun _ _ => refText_of_parseRef, fun _ _ => parseRef_of_cell⟩
  · intro n hpos hle
    have hnumber := (number_colLetters n).1
    refine ⟨nameOf n hpos, indexToCol_eq hle, ?_⟩
    show colToIndex (colLetters n n) = _
    rw [colToIndex_eq (by omega), hnumber]
  · intro s hle
    rw [colToIndex_eq hle, indexToCol_eq hle]
    exact congrArg some (colLetters_number s.capital)
  · intro s t hs ht
    exact ⟨_, _, colToIndex_eq hs, colToIndex_eq ht, number_lt_iff s t⟩

/-! ## Beyond `2 ^ 53` -/

/-- Eleven times the letter `Z`, and one more letter. -/
def twelveLetters (c : Char) : List Char := List.replicate 11 'Z' ++ [c]

theorem twelveLetters_capital (h : 'A' ≤ c ∧ c ≤ 'Z') :
    ∀ d ∈ twelveLetters c, 'A' ≤ d ∧ d ≤ 'Z' := by
  intro d hd
  rcases List.mem_append.1 hd with hd | hd
  · rw [List.eq_of_mem_replicate hd]
    decide
  · rw [List.mem_singleton.1 hd]
    exact h

def twelveName (c : Char) (h : 'A' ≤ c ∧ c ≤ 'Z') : ColumnName :=
  ⟨twelveLetters c, List.cons_ne_nil _ _, twelveLetters_capital h⟩

theorem twelveLetters_collide : colToIndex (twelveLetters 'Z') = colToIndex (twelveLetters 'Y') := by
  decide +kernel

/-- Two names have one number, so one of them does not come back; and the number behind
`2 ^ 53` does not come back from its name. -/
theorem columns_collide :
    (¬ ∀ s : ColumnName, indexToCol (colToIndex s.letters) = some s.letters) ∧
      roundDouble (2 ^ 53 + 2) = .finite (2 ^ 53 + 2) ∧
      ∃ l, indexToCol (.finite (2 ^ 53 + 2)) = some l ∧ colToIndex l = .finite (2 ^ 53) := by
  refine ⟨fun hall => ?_, by decide +kernel, "BKTXHSOGHKKG".toList, by decide +kernel,
    by decide +kernel⟩
  have hlast := hall (twelveName 'Z' (by decide))
  have hbefore := hall (twelveName 'Y' (by decide))
  unfold twelveName at hlast hbefore
  rw [twelveLetters_collide, hbefore] at hlast
  revert hlast
  decide

end Cine.Grading.Xlsx
