import Mathlib.Data.List.Induction
import Mathlib.Data.List.TakeWhile

/-!
# Columns and cell references

`grade-export/xlsx/xml-text.ts`: the letters of a column, its number and the
reference of a cell.  `indexToCol_colToIndex` takes the letters back from
the number, and `cellRef_inj` takes a reference apart.
-/

namespace Cine.Grading

/-- `/^[A-Z]{1,3}$/`. -/
def isColumn (letters : String) : Bool :=
  let l := letters.toList
  l ≠ [] ∧ l.length ≤ 3 ∧ l.all fun c => 'A' ≤ c ∧ c ≤ 'Z'

/-- The letters of a column, as a request may name it. -/
structure Column where
  letters : String
  shape : isColumn letters = true
deriving DecidableEq

/-- The number of a letter: `A` is 1 and `Z` is 26. -/
def letterIndex (c : Char) : Nat := c.toUpper.toNat - 64

/-- `colToIndex`, on letters. -/
def colToIndex (letters : String) : Nat :=
  letters.toList.foldl (fun n c => n * 26 + letterIndex c) 0

/-- The loop of `indexToCol`, from the last letter. -/
def colLetters : Nat → Nat → List Char
  | 0, _ => []
  | fuel + 1, n =>
    if n = 0 then [] else colLetters fuel ((n - 1) / 26) ++ [Char.ofNat (65 + (n - 1) % 26)]

def indexToCol (index : Nat) : String := String.ofList (colLetters index index)

/-- The reference of a cell: the letters and the number of the row. -/
def cellRef (letters : String) (row : Nat) : String := letters ++ toString row

example : colToIndex "BH" = 60 ∧ indexToCol 60 = "BH" ∧ indexToCol 16384 = "XFD" := by
  decide +kernel

/-! ## Letters and numbers -/

theorem colLetters_fuel {fuel n : Nat} (fuel' : Nat) (h : n ≤ fuel) (h' : n ≤ fuel') :
    colLetters fuel n = colLetters fuel' n := by
  induction fuel generalizing fuel' n with
  | zero =>
    obtain rfl : n = 0 := by omega
    cases fuel' <;> rfl
  | succ fuel ih =>
    cases fuel' with
    | zero =>
      obtain rfl : n = 0 := by omega
      rfl
    | succ fuel' =>
      rw [colLetters, colLetters]
      split_ifs with hn
      · rfl
      · rw [ih (n := (n - 1) / 26) fuel' (by omega) (by omega)]

theorem colLetters_step {fuel n d : Nat} (hd : 1 ≤ d) (hd' : d ≤ 26)
    (hfuel : n * 26 + d ≤ fuel) :
    colLetters fuel (n * 26 + d) = colLetters n n ++ [Char.ofNat (64 + d)] := by
  cases fuel with
  | zero => omega
  | succ fuel =>
    have hdiv : (n * 26 + d - 1) / 26 = n := by omega
    have hmod : 65 + (n * 26 + d - 1) % 26 = 64 + d := by omega
    rw [colLetters, if_neg (by omega), hdiv, hmod, colLetters_fuel n (by omega) le_rfl]

theorem letterIndex_of_capital {c : Char} (h : 'A' ≤ c) (h' : c ≤ 'Z') :
    letterIndex c = c.toNat - 64 := by
  have hupper : c.toUpper = c := by
    unfold Char.toUpper
    rw [dif_neg]
    rintro ⟨h97, -⟩
    have : 97 ≤ c.toNat := h97
    have : c.toNat ≤ 90 := h'
    omega
  unfold letterIndex
  rw [hupper]

theorem ofNat_letterIndex {c : Char} (h : 'A' ≤ c) (h' : c ≤ 'Z') :
    1 ≤ letterIndex c ∧ letterIndex c ≤ 26 ∧ Char.ofNat (64 + letterIndex c) = c := by
  have hlow : 65 ≤ c.toNat := h
  have hhigh : c.toNat ≤ 90 := h'
  rw [letterIndex_of_capital h h']
  refine ⟨by omega, by omega, ?_⟩
  rw [show 64 + (c.toNat - 64) = c.toNat by omega, Char.ofNat_toNat]

theorem colLetters_number {l : List Char} (h : ∀ c ∈ l, 'A' ≤ c ∧ c ≤ 'Z') :
    colLetters (l.foldl (fun n c => n * 26 + letterIndex c) 0)
      (l.foldl (fun n c => n * 26 + letterIndex c) 0) = l := by
  induction l using List.reverseRecOn with
  | nil => rfl
  | append_singleton l c ih =>
    obtain ⟨hlow, hhigh⟩ := h c (List.mem_append_right _ (List.mem_singleton_self c))
    obtain ⟨hpos, hle, hback⟩ := ofNat_letterIndex hlow hhigh
    rw [List.foldl_append, List.foldl_cons, List.foldl_nil,
      colLetters_step hpos hle le_rfl, ih fun c hc => h c (List.mem_append_left _ hc), hback]

theorem indexToCol_colToIndex {letters : String} (h : isColumn letters = true) :
    indexToCol (colToIndex letters) = letters := by
  have hletters : ∀ c ∈ letters.toList, 'A' ≤ c ∧ c ≤ 'Z' := by
    intro c hc
    have hall := (of_decide_eq_true h).2.2
    exact of_decide_eq_true (List.all_eq_true.1 hall c hc)
  unfold indexToCol colToIndex
  rw [colLetters_number hletters, String.ofList_toList]

/-! ## References -/

theorem not_isDigit_of_letter {c : Char} (h : 'A' ≤ c) : c.isDigit = false := by
  have hlow : 65 ≤ c.toNat := h
  have hhigh : ¬ c.toNat ≤ 57 := by omega
  unfold Char.isDigit
  rw [Bool.and_eq_false_iff]
  exact Or.inr (decide_eq_false fun hc => hhigh hc)

theorem takeWhile_cellRef {letters : String} (h : isColumn letters = true) (row : Nat) :
    (cellRef letters row).toList.takeWhile (fun c => !c.isDigit) = letters.toList := by
  have hdigits : ((toString row).toList).takeWhile (fun c => !c.isDigit) = [] := by
    show (Nat.repr row).toList.takeWhile _ = []
    rw [Nat.toList_repr]
    cases hl : Nat.toDigits 10 row with
    | nil => rfl
    | cons c l =>
      have hc : c.isDigit = true :=
        Nat.isDigit_of_mem_toDigits (by decide) (by decide) (hl ▸ List.mem_cons_self)
      rw [List.takeWhile_cons, hc]
      rfl
  rw [cellRef, String.toList_append, List.takeWhile_append_of_pos, hdigits, List.append_nil]
  intro c hc
  have hall := (of_decide_eq_true h).2.2
  rw [not_isDigit_of_letter (of_decide_eq_true (List.all_eq_true.1 hall c hc)).1]
  rfl

theorem cellRef_inj {letters letters' : String} (h : isColumn letters = true)
    (h' : isColumn letters' = true) {row row' : Nat}
    (heq : cellRef letters row = cellRef letters' row') : letters = letters' ∧ row = row' := by
  have hcol : letters = letters' := by
    have htake := congrArg (fun s : String => s.toList.takeWhile fun c => !c.isDigit) heq
    simp only [takeWhile_cellRef h, takeWhile_cellRef h'] at htake
    exact String.toList_inj.1 htake
  subst hcol
  have hlist := congrArg String.toList heq
  rw [cellRef, cellRef, String.toList_append, String.toList_append] at hlist
  have hrow : row.repr.toList = row'.repr.toList := List.append_cancel_left hlist
  rw [Nat.toList_repr, Nat.toList_repr] at hrow
  have hdigits := congrArg (fun digits => Nat.ofDigitChars 10 digits 0) hrow
  simp only [Nat.ofDigitChars_ten_toDigits] at hdigits
  exact ⟨rfl, hdigits⟩

end Cine.Grading
