import Mathlib.Data.List.Lex
import Mathlib.Data.List.Sort

/-!
# Script strings as UTF-16 code units

A script's strings are sequences of UTF-16 code units, and a sort without
a comparator orders them by these units, not by code points.
-/

namespace Cine.Lib

instance lawfulBEqChars : LawfulBEq (List Char) := inferInstance

/-- The UTF-16 code units of a character: one below `0x10000`, a surrogate
pair from there on. -/
def codeUnits (c : Char) : List Nat :=
  let n := c.toNat
  if n < 0x10000 then [n]
  else [0xD800 + (n - 0x10000) / 0x400, 0xDC00 + (n - 0x10000) % 0x400]

/-- The UTF-16 code units of a string. -/
def utf16 (s : String) : List Nat :=
  s.toList.flatMap codeUnits

theorem not_surrogate (c : Char) : c.toNat < 0xD800 ∨ (0xDFFF < c.toNat ∧ c.toNat < 0x110000) :=
  c.valid

theorem codeUnits_append_inj {c d : Char} {s t : List Nat}
    (h : codeUnits c ++ s = codeUnits d ++ t) : c = d ∧ s = t := by
  have hc := not_surrogate c
  have hd := not_surrogate d
  have hcode : c.toNat = d.toNat → c = d := fun heq => by
    rw [← Char.ofNat_toNat c, heq, Char.ofNat_toNat]
  unfold codeUnits at h
  dsimp only at h
  split_ifs at h with hlow hlow' hlow' <;>
    simp only [List.cons_append, List.nil_append, List.cons.injEq] at h
  · exact ⟨hcode h.1, h.2⟩
  · omega
  · omega
  · exact ⟨hcode (by omega), h.2.2⟩

/-- Two strings of one list of code units are equal. -/
theorem utf16_injective : Function.Injective utf16 := by
  intro a b h
  have hlist : ∀ l l' : List Char, l.flatMap codeUnits = l'.flatMap codeUnits → l = l' := by
    have hne : ∀ (c : Char) (s : List Nat), codeUnits c ++ s ≠ [] := by
      intro c s hnil
      unfold codeUnits at hnil
      dsimp only at hnil
      split_ifs at hnil <;> cases hnil
    intro l
    induction l with
    | nil =>
      intro l' hl
      cases l' with
      | nil => rfl
      | cons d l' => exact absurd hl.symm (hne d _)
    | cons c l ih =>
      intro l' hl
      cases l' with
      | nil => exact absurd hl (hne c _)
      | cons d l' =>
        obtain ⟨rfl, hrest⟩ := codeUnits_append_inj hl
        rw [ih l' hrest]
  exact String.toList_inj.1 (hlist _ _ h)

/-- The first `n` code units of a list of characters.  Half a surrogate pair
reads as the replacement character. -/
def takeUnits : Nat → List Char → List Char
  | _, [] => []
  | n, c :: cs =>
    let width := (codeUnits c).length
    if width ≤ n then c :: takeUnits (n - width) cs
    else if n = 0 then []
    else ['\uFFFD']

/-- `s.slice(0, n)`. -/
def sliceFront (s : String) (n : Nat) : String :=
  String.ofList (takeUnits n s.toList)

theorem length_codeUnits (c : Char) : 1 ≤ (codeUnits c).length ∧ (codeUnits c).length ≤ 2 := by
  unfold codeUnits
  dsimp only
  split_ifs <;> simp

theorem utf16_append (a b : String) : utf16 (a ++ b) = utf16 a ++ utf16 b := by
  unfold utf16
  rw [String.toList_append, List.flatMap_append]

/-- A text has at most two code units for each of its characters. -/
theorem length_utf16_le (s : String) : (utf16 s).length ≤ 2 * s.toList.length := by
  unfold utf16
  induction s.toList with
  | nil => exact Nat.le_refl 0
  | cons c l ih =>
    have hc := (length_codeUnits c).2
    rw [List.flatMap_cons, List.length_append, List.length_cons]
    omega

/-- Each character has a code unit. -/
theorem length_toList_le_utf16 (s : String) : s.toList.length ≤ (utf16 s).length := by
  unfold utf16
  induction s.toList with
  | nil => exact Nat.le_refl 0
  | cons c l ih =>
    have hc := (length_codeUnits c).1
    rw [List.flatMap_cons, List.length_append, List.length_cons]
    omega

theorem length_utf16_sliceFront (s : String) (n : Nat) : (utf16 (sliceFront s n)).length ≤ n := by
  unfold utf16 sliceFront
  rw [String.toList_ofList]
  generalize s.toList = l
  induction l generalizing n with
  | nil => exact Nat.zero_le n
  | cons c l ih =>
    unfold takeUnits
    dsimp only
    split_ifs with hwidth hn
    · have hrest := ih (n - (codeUnits c).length)
      rw [List.flatMap_cons, List.length_append]
      omega
    · exact Nat.zero_le n
    · have hone : (['\uFFFD'].flatMap codeUnits).length = 1 := rfl
      omega

/-- White space, as `trim` and the class `\s` of a pattern know it. -/
def isSpace (c : Char) : Bool :=
  let n := c.toNat
  (9 ≤ n ∧ n ≤ 13) ∨ n = 0x20 ∨ n = 0xA0 ∨ n = 0x1680 ∨ (0x2000 ≤ n ∧ n ≤ 0x200A) ∨
    n = 0x2028 ∨ n = 0x2029 ∨ n = 0x202F ∨ n = 0x205F ∨ n = 0x3000 ∨ n = 0xFEFF

/-- `trim` on a list of characters. -/
def trimList (l : List Char) : List Char :=
  ((l.dropWhile isSpace).reverse.dropWhile isSpace).reverse

/-- `s.trim()`. -/
def trim (s : String) : String :=
  String.ofList (trimList s.toList)

/-- The default sort of a list of strings. -/
def sortStrings (l : List String) : List String :=
  l.insertionSort (fun a b => utf16 a ≤ utf16 b)

@[simp] theorem mem_sortStrings {l : List String} {s : String} :
    s ∈ sortStrings l ↔ s ∈ l :=
  (List.perm_insertionSort _ l).mem_iff

@[simp] theorem length_sortStrings (l : List String) : (sortStrings l).length = l.length :=
  (List.perm_insertionSort _ l).length_eq

theorem sortStrings_eq_of_perm {l l' : List String} (h : l.Perm l') :
    sortStrings l = sortStrings l' := by
  let le : String → String → Prop := fun a b => utf16 a ≤ utf16 b
  have : Std.Total le := ⟨fun a b => le_total _ _⟩
  have : IsTrans _ le := ⟨fun a b c hab hbc => le_trans hab hbc⟩
  have hleft : (sortStrings l).Pairwise le := List.pairwise_insertionSort le l
  have hright : (sortStrings l').Pairwise le := List.pairwise_insertionSort le l'
  refine List.Perm.eq_of_pairwise ?_ hleft hright ?_
  · intro a b _ _ hab hba
    exact utf16_injective (le_antisymm hab hba)
  · exact (List.perm_insertionSort _ l).trans (h.trans (List.perm_insertionSort _ l').symm)

theorem sortStrings_eq_iff {l l' : List String} : sortStrings l = sortStrings l' ↔ l.Perm l' := by
  constructor
  · intro h
    have hleft : (sortStrings l).Perm l := List.perm_insertionSort _ l
    have hright : (sortStrings l').Perm l' := List.perm_insertionSort _ l'
    rw [h] at hleft
    exact hleft.symm.trans hright
  · exact sortStrings_eq_of_perm

/-- A character outside the basic plane sorts below `U+FFFF`. -/
example : sortStrings ["\uffff", "tc-2", "𝒳", "tc-10"] = ["tc-10", "tc-2", "𝒳", "\uffff"] := by
  decide +kernel

end Cine.Lib
