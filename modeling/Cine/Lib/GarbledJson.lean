import Cine.Lib.JsonText
import Cine.Lib.Utf8

/-!
# Printed values with cut characters

The text of a value is one-byte characters but for what stands inside its
strings, so a garbled text of a value is the text of a value again, with
garbled strings: `garbled_print`.  What such a value keeps is its size and its
properties of ASCII names, so that a collapsed garbled value is the value it
came from only where nothing was cut: `Value.Garbled.collapse_eq_iff`.
-/

namespace Cine.Lib.JsonText

open Cine.Lib.Json (escape)
open Cine.Lib.Utf8 (Garbled replacement IsAscii isAscii_iff)

variable {N : Type}

mutual
/-- The same value, with garbled strings. -/
def Value.Garbled : Value N → Value N → Prop
  | .null, .null => True
  | .bool a, .bool b => a = b
  | .num m, .num n => m = n
  | .str s, .str t => Utf8.Garbled s t
  | .arr a, .arr b => a.Garbled b
  | .obj a, .obj b => a.Garbled b
  | _, _ => False

def Items.Garbled : Items N → Items N → Prop
  | .nil, .nil => True
  | .cons v a, .cons w b => v.Garbled w ∧ a.Garbled b
  | _, _ => False

def Fields.Garbled : Fields N → Fields N → Prop
  | .nil, .nil => True
  | .cons k v a, .cons k' w b => Utf8.Garbled k k' ∧ v.Garbled w ∧ a.Garbled b
  | _, _ => False
end

/-! ## The text of a garbled value -/

theorem escape_ascii {c : Char} (hc : c.toNat < 0x80) : IsAscii (escape c) := by
  rw [isAscii_iff]
  have hdigit : ∀ n, n < 16 → (Json.hexDigit n).toNat < 0x80 := by decide
  intro d hd
  unfold escape at hd
  split_ifs at hd with h1 h2 h3 h4 h5 h6 h7 h8 <;>
    simp only [List.mem_cons, List.not_mem_nil, or_false] at hd
  case pos => rcases hd with rfl | rfl <;> decide
  case pos => rcases hd with rfl | rfl <;> decide
  case pos => rcases hd with rfl | rfl <;> decide
  case pos => rcases hd with rfl | rfl <;> decide
  case pos => rcases hd with rfl | rfl <;> decide
  case pos => rcases hd with rfl | rfl <;> decide
  case pos => rcases hd with rfl | rfl <;> decide
  case pos =>
    rcases hd with rfl | rfl | rfl | rfl | rfl | rfl
    · decide
    · decide
    · decide
    · decide
    · exact hdigit _ (by omega)
    · exact hdigit _ (by omega)
  case neg => rwa [hd]

theorem escape_wide {c : Char} (hc : 0x80 ≤ c.toNat) : escape c = [c] := by
  have hne : ∀ d : Char, d.toNat < 0x80 → c ≠ d := by
    rintro d hd rfl
    omega
  unfold escape
  rw [if_neg (hne _ (by decide)), if_neg (hne _ (by decide)), if_neg (by omega),
    if_neg (by omega), if_neg (by omega), if_neg (by omega), if_neg (by omega),
    if_neg (by omega)]

theorem chars_replacements (n : Nat) :
    chars (List.replicate n replacement) = List.replicate n replacement := by
  induction n with
  | zero => rfl
  | succ n ih =>
    rw [List.replicate_succ]
    show escape replacement ++ chars _ = _
    rw [ih, escape_wide (by decide)]
    rfl

theorem chars_append (s t : List Char) : chars (s ++ t) = chars s ++ chars t :=
  List.flatMap_append

theorem garbled_chars {s r : List Char} (h : Utf8.Garbled (chars s) r) :
    ∃ t, r = chars t ∧ Utf8.Garbled s t := by
  induction s generalizing r with
  | nil =>
    cases h
    exact ⟨[], rfl, .nil⟩
  | cons c s ih =>
    rw [show chars (c :: s) = escape c ++ chars s from List.flatMap_cons] at h
    obtain ⟨rc, rs, rfl, hc, hs⟩ := h.split
    obtain ⟨t, rfl, ht⟩ := ih hs
    by_cases hlow : c.toNat < 0x80
    · refine ⟨c :: t, ?_, .cons (Or.inl rfl) ht⟩
      rw [hc.eq_of_ascii (escape_ascii hlow)]
      exact List.flatMap_cons.symm
    · rw [escape_wide (by omega)] at hc
      cases hc with
      | cons hbecomes hnil =>
        cases hnil
        rename_i run
        refine ⟨run ++ t, ?_, .cons hbecomes ht⟩
        rw [chars_append, List.append_nil]
        congr 1
        rcases hbecomes with rfl | ⟨-, n, -, rfl⟩
        · show [c] = escape c ++ []
          rw [escape_wide (by omega), List.append_nil]
        · exact (chars_replacements n).symm

theorem garbled_quote {s r : List Char} (h : Utf8.Garbled (quote s) r) :
    ∃ t, r = quote t ∧ Utf8.Garbled s t := by
  obtain ⟨r, rfl, hin⟩ := h.ascii_cons (by decide)
  obtain ⟨rs, rq, rfl, hs, hq⟩ := hin.split
  obtain ⟨t, rfl, ht⟩ := garbled_chars hs
  refine ⟨t, ?_, ht⟩
  rw [hq.eq_of_ascii (by decide)]
  rfl

theorem numeral_ascii {c : Char} (h : isNumeral c = true) : c.toNat < 0x80 := by
  unfold isNumeral at h
  simp only [Bool.or_eq_true, decide_eq_true_eq] at h
  rcases h with ((((h | rfl) | rfl) | rfl) | rfl) | rfl
  · simp only [Char.isDigit, Bool.and_eq_true, decide_eq_true_eq] at h
    have := h.2
    rw [UInt32.le_iff_toNat_le] at this
    exact Nat.lt_of_le_of_lt this (by decide)
  all_goals decide

section

variable (num : Numerals N)

theorem garbled_property {key b r : List Char} (h : Utf8.Garbled (quote key ++ ':' :: b) r) :
    ∃ key' rb, r = quote key' ++ ':' :: rb ∧ Utf8.Garbled key key' ∧ Utf8.Garbled b rb := by
  obtain ⟨rk, r, rfl, hquote, hin⟩ := h.split
  obtain ⟨key', rfl, hkey⟩ := garbled_quote hquote
  obtain ⟨rb, rfl, hb⟩ := hin.ascii_cons (by decide)
  exact ⟨key', rb, rfl, hkey, hb⟩

mutual
theorem garbled_print : ∀ (v : Value N) {r : List Char}, Utf8.Garbled (print num v) r →
    ∃ w, r = print num w ∧ v.Garbled w
  | .null, r, h => by
    rw [print] at h
    refine ⟨.null, ?_, trivial⟩
    rw [print, h.eq_of_ascii (by decide)]
  | .bool true, r, h => by
    rw [print] at h
    refine ⟨.bool true, ?_, rfl⟩
    rw [print, h.eq_of_ascii (by decide)]
  | .bool false, r, h => by
    rw [print] at h
    refine ⟨.bool false, ?_, rfl⟩
    rw [print, h.eq_of_ascii (by decide)]
  | .num n, r, h => by
    rw [print] at h
    refine ⟨.num n, ?_, rfl⟩
    have hascii : IsAscii (num.print n) :=
      isAscii_iff.2 fun c hc => numeral_ascii (num.print_numeral n c hc)
    rw [print, h.eq_of_ascii hascii]
  | .str s, r, h => by
    rw [print] at h
    obtain ⟨t, rfl, ht⟩ := garbled_quote h
    exact ⟨.str t, by rw [print], ht⟩
  | .arr .nil, r, h => by
    rw [print] at h
    refine ⟨.arr .nil, ?_, trivial⟩
    rw [print, h.eq_of_ascii (by decide)]
  | .arr (.cons v items), r, h => by
    rw [print] at h
    obtain ⟨r, rfl, hin⟩ := h.ascii_cons (by decide)
    obtain ⟨rv, ri, rfl, hv, hi⟩ := hin.split
    obtain ⟨w, rfl, hw⟩ := garbled_print v hv
    obtain ⟨b, rfl, hb⟩ := garbled_printItems items hi
    exact ⟨.arr (.cons w b), by rw [print], hw, hb⟩
  | .obj .nil, r, h => by
    rw [print] at h
    refine ⟨.obj .nil, ?_, trivial⟩
    rw [print, h.eq_of_ascii (by decide)]
  | .obj (.cons key v fields), r, h => by
    rw [print] at h
    obtain ⟨r, rfl, hin⟩ := h.ascii_cons (by decide)
    obtain ⟨key', r, rfl, hkey, hbehind⟩ := garbled_property hin
    obtain ⟨rv, rf, rfl, hv, hf⟩ := hbehind.split
    obtain ⟨w, rfl, hw⟩ := garbled_print v hv
    obtain ⟨b, rfl, hb⟩ := garbled_printFields fields hf
    exact ⟨.obj (.cons key' w b), by rw [print], hkey, hw, hb⟩

theorem garbled_printItems : ∀ (items : Items N) {r : List Char},
    Utf8.Garbled (printItems num items) r → ∃ b, r = printItems num b ∧ items.Garbled b
  | .nil, r, h => by
    rw [printItems] at h
    refine ⟨.nil, ?_, trivial⟩
    rw [printItems, h.eq_of_ascii (by decide)]
  | .cons v items, r, h => by
    rw [printItems] at h
    obtain ⟨r, rfl, hin⟩ := h.ascii_cons (by decide)
    obtain ⟨rv, ri, rfl, hv, hi⟩ := hin.split
    obtain ⟨w, rfl, hw⟩ := garbled_print v hv
    obtain ⟨b, rfl, hb⟩ := garbled_printItems items hi
    exact ⟨.cons w b, by rw [printItems], hw, hb⟩

theorem garbled_printFields : ∀ (fields : Fields N) {r : List Char},
    Utf8.Garbled (printFields num fields) r → ∃ b, r = printFields num b ∧ fields.Garbled b
  | .nil, r, h => by
    rw [printFields] at h
    refine ⟨.nil, ?_, trivial⟩
    rw [printFields, h.eq_of_ascii (by decide)]
  | .cons key v fields, r, h => by
    rw [printFields] at h
    obtain ⟨r, rfl, hin⟩ := h.ascii_cons (by decide)
    obtain ⟨key', r, rfl, hkey, hbehind⟩ := garbled_property hin
    obtain ⟨rv, rf, rfl, hv, hf⟩ := hbehind.split
    obtain ⟨w, rfl, hw⟩ := garbled_print v hv
    obtain ⟨b, rfl, hb⟩ := garbled_printFields fields hf
    exact ⟨.cons key' w b, by rw [printFields], hkey, hw, hb⟩
end

end

/-! ## What a garbled value keeps -/

mutual
theorem Value.Garbled.size : ∀ {v w : Value N}, v.Garbled w → w.size = v.size
  | .null, .null, _ => rfl
  | .bool _, .bool _, _ => rfl
  | .num _, .num _, _ => rfl
  | .str _, .str _, _ => rfl
  | .arr a, .arr b, h => by
    rw [Value.size, Value.size]
    exact Items.Garbled.size (v := a) (w := b) h
  | .obj a, .obj b, h => by
    rw [Value.size, Value.size]
    exact Fields.Garbled.size (v := a) (w := b) h

theorem Items.Garbled.size : ∀ {v w : Items N}, v.Garbled w → w.size = v.size
  | .nil, .nil, _ => rfl
  | .cons _ _, .cons _ _, h => by
    rw [Items.size, Items.size, h.1.size, h.2.size]

theorem Fields.Garbled.size : ∀ {v w : Fields N}, v.Garbled w → w.size = v.size
  | .nil, .nil, _ => rfl
  | .cons _ _ _, .cons _ _ _, h => by
    rw [Fields.size, Fields.size, h.2.1.size, h.2.2.size]
end

/-- A name of one-byte characters stays that name, and no other name becomes
it. -/
theorem garbled_eq_iff {k k' key : List Char} (h : Utf8.Garbled k k')
    (hkey : IsAscii key) : k' = key ↔ k = key := by
  constructor
  · rintro rfl
    refine (h.eq_of_not_mem fun hmem => ?_).symm
    exact absurd (isAscii_iff.1 hkey _ hmem) (by decide)
  · rintro rfl
    exact h.eq_of_ascii hkey

theorem Fields.Garbled.last? {key : List Char} (hkey : IsAscii key) :
    ∀ {a b : Fields N}, a.Garbled b → Option.Rel Value.Garbled (a.last? key) (b.last? key)
  | .nil, .nil, _ => .none
  | .cons k v a, .cons k' w b, h => by
    have ih := Fields.Garbled.last? hkey h.2.2
    rw [Fields.last?, Fields.last?]
    revert ih
    cases a.last? key with
    | some v' =>
      cases b.last? key with
      | some w' => exact fun ih => ih
      | none => rintro ⟨⟩
    | none =>
      cases b.last? key with
      | some w' => rintro ⟨⟩
      | none =>
        intro _
        dsimp only
        by_cases hk : k = key
        · rw [if_pos hk, if_pos ((garbled_eq_iff h.1 hkey).2 hk)]
          exact .some h.2.1
        · rw [if_neg hk, if_neg fun hk' => hk ((garbled_eq_iff h.1 hkey).1 hk')]
          exact .none

theorem Value.Garbled.collapse_eq_iff {v w : Value N} (h : v.Garbled w)
    (hv : v.collapse = v) : w.collapse = v ↔ w = v := by
  constructor
  · intro heq
    have hsize : w.collapse.size = w.size := by rw [heq, h.size]
    rw [← (size_collapse w).2 hsize, heq]
  · rintro rfl
    exact hv

end Cine.Lib.JsonText
