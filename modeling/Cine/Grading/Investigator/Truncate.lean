import Cine.Lib.ScriptText

/-!
# Truncation of a tool's output

`grading/investigator/truncate.ts`.  A text that is too long in UTF-8 keeps its
front and its back, and a marker between them says how many bytes are missing.

* A place between two characters is one where no byte goes on with a character
  (`IsBoundary`), and there the encoding falls into the encodings of two
  texts (`split_at`).
* `truncateOutput_cut` says what is kept, and `length_marker_le` how long the
  marker is at most.
-/

namespace Cine.Grading

open Cine.Lib Cine.Lib.Utf8

/-! ## The function -/

def TOOL_OUTPUT_MAX_BYTES : Nat := 8 * 1024

def MARKER_RESERVE : Nat := 80

/-- The byte at a place, `(buf[i] & 0xc0) === 0x80`, goes on with a character. -/
def continues (buf : List Nat) (i : Nat) : Prop := ∃ b, buf[i]? = some b ∧ IsTail b

instance decidableContinues (buf : List Nat) (i : Nat) : Decidable (continues buf i) :=
  match h : buf[i]? with
  | none => isFalse (by simp [continues, h])
  | some b => decidable_of_iff (IsTail b) (by simp [continues, h])

def backToCharStart (buf : List Nat) : Nat → Nat
  | 0 => 0
  | i + 1 => if continues buf (i + 1) then backToCharStart buf i else i + 1

/-- The place behind the bytes that go on with a character. -/
def forwardToCharStart (buf : List Nat) (i : Nat) : Nat :=
  i + ((buf.drop i).takeWhile fun b => IsTail b).length

def markerFront : List Char := "\n…[đã cắt ".toList

def markerBack : List Char := " byte]…\n".toList

/-- The marker that stands for `dropped` bytes. -/
def marker (dropped : Nat) : List Char := markerFront ++ Nat.toDigits 10 dropped ++ markerBack

def truncateOutput (text : List Nat) (maxBytes : Nat) : List Nat :=
  let buf := encode (readChars text)
  if buf.length ≤ maxBytes then text
  else
    let keep := maxBytes - MARKER_RESERVE
    let headEnd := backToCharStart buf (keep / 2)
    let tailStart := forwardToCharStart buf (buf.length - (keep - headEnd))
    let dropped := tailStart - headEnd
    charUnits (decode (buf.take headEnd) ++ marker dropped ++ decode (buf.drop tailStart))

/-! ## Places between two characters -/

def IsBoundary (buf : List Nat) (i : Nat) : Prop := i ≤ buf.length ∧ ¬ continues buf i

variable {chars : List Char} {i maxBytes : Nat} {text : List Nat}

theorem split_at (h : IsBoundary (encode chars) i) :
    ∃ front back, chars = front ++ back ∧ (encode chars).take i = encode front ∧
      (encode chars).drop i = encode back := by
  rcases encode_split (List.take_append_drop i (encode chars)) with
    hbetween | ⟨_, c, _, l, r, _, hchar, hl, hr, _, hdrop⟩
  · exact hbetween
  · -- the place would be inside the character `c`
    obtain ⟨b, r, rfl⟩ := List.exists_cons_of_ne_nil hr
    obtain ⟨a, l, rfl⟩ := List.exists_cons_of_ne_nil hl
    have htail : IsTail b := by
      refine encodeChar_tails c b ?_
      rw [hchar, List.cons_append, List.tail_cons]
      exact List.mem_append_right _ List.mem_cons_self
    refine absurd ⟨b, ?_, htail⟩ h.2
    have hhead := congrArg List.head? hdrop
    rw [List.head?_drop] at hhead
    exact hhead

theorem isBoundary_zero (chars : List Char) : IsBoundary (encode chars) 0 := by
  refine ⟨Nat.zero_le _, ?_⟩
  rintro ⟨b, hb, htail⟩
  refine head?_encode chars b ?_ htail
  rw [List.head?_eq_getElem?]
  exact hb

theorem backToCharStart_le (buf : List Nat) (i : Nat) : backToCharStart buf i ≤ i := by
  induction i with
  | zero => exact Nat.le_refl 0
  | succ i ih =>
    rw [backToCharStart]
    split_ifs
    · omega
    · exact Nat.le_refl _

theorem isBoundary_back (h : i ≤ (encode chars).length) :
    IsBoundary (encode chars) (backToCharStart (encode chars) i) := by
  induction i with
  | zero => exact isBoundary_zero chars
  | succ i ih =>
    rw [backToCharStart]
    split_ifs with hcontinues
    · exact ih (by omega)
    · exact ⟨h, hcontinues⟩

theorem not_continues_takeWhile (l : List Nat) :
    ¬ continues l (l.takeWhile fun b => IsTail b).length := by
  induction l with
  | nil =>
    rintro ⟨b, hb, -⟩
    cases hb
  | cons a l ih =>
    by_cases ha : IsTail a
    · have htake : ((a :: l).takeWhile fun b => IsTail b) = a :: l.takeWhile fun b => IsTail b :=
        List.takeWhile_cons_of_pos (by simpa using ha)
      rw [htake]
      exact ih
    · rw [List.takeWhile_cons_of_neg (by simpa using ha)]
      rintro ⟨b, hb, htail⟩
      cases hb
      exact ha htail

theorem isBoundary_forward {buf : List Nat} (h : i ≤ buf.length) :
    IsBoundary buf (forwardToCharStart buf i) := by
  unfold forwardToCharStart
  constructor
  · have hlength := (List.takeWhile_prefix (fun b => IsTail b) (l := buf.drop i)).length_le
    rw [List.length_drop] at hlength
    omega
  · rintro ⟨b, hb, htail⟩
    rw [← List.getElem?_drop] at hb
    exact not_continues_takeWhile _ ⟨b, hb, htail⟩

theorem le_forwardToCharStart (buf : List Nat) (i : Nat) : i ≤ forwardToCharStart buf i :=
  Nat.le_add_right _ _

/-! ## What is kept -/

theorem cut_between {j : Nat} (hi : IsBoundary (encode chars) i) (hj : IsBoundary (encode chars) j)
    (hij : i ≤ j) :
    ∃ front middle back, chars = front ++ middle ++ back ∧
      (encode chars).take i = encode front ∧ (encode chars).drop j = encode back ∧
        (encode middle).length = j - i := by
  obtain ⟨front, rest, hchars, htake, hdrop⟩ := split_at hi
  have hrest : IsBoundary (encode rest) (j - i) := by
    rw [← hdrop]
    refine ⟨?_, ?_⟩
    · rw [List.length_drop]
      exact Nat.sub_le_sub_right hj.1 i
    · rintro ⟨b, hb, htail⟩
      rw [List.getElem?_drop, Nat.add_sub_cancel' hij] at hb
      exact hj.2 ⟨b, hb, htail⟩
  obtain ⟨middle, back, rfl, hmiddle, hback⟩ := split_at hrest
  refine ⟨front, middle, back, ?_, htake, ?_, ?_⟩
  · rw [hchars, List.append_assoc]
  · rw [← hback, ← hdrop, List.drop_drop, Nat.add_sub_cancel' hij]
  · rw [← hmiddle, List.length_take]
    exact Nat.min_eq_left hrest.1

theorem length_encode_toDigits {n k : Nat} (hk : 0 < k) (h : n < 10 ^ k) :
    (encode (Nat.toDigits 10 n)).length ≤ k := by
  have hascii : IsAscii (Nat.toDigits 10 n) := by
    rw [isAscii_iff]
    intro c hc
    have hdigit := Nat.isDigit_of_mem_toDigits (by decide) (by decide) hc
    simp only [Char.isDigit, Bool.and_eq_true, decide_eq_true_eq] at hdigit
    exact lt_of_le_of_lt hdigit.2 (by decide)
  rw [length_encode_ascii hascii]
  exact (Nat.length_toDigits_le_iff (by decide) hk).2 h

theorem length_marker_le {dropped : Nat} (h : dropped < 10 ^ 50) :
    (encode (marker dropped)).length ≤ MARKER_RESERVE := by
  have hfront : (encode markerFront).length = 16 := by decide
  have hback : (encode markerBack).length = 10 := by decide
  have hdigits := length_encode_toDigits (by decide) h
  unfold marker MARKER_RESERVE
  rw [length_encode_append, length_encode_append]
  omega

/-- The parts of a text that is cut: the front and the back are kept, and the
marker has the number of the bytes between them. -/
structure Cut (text : List Nat) (maxBytes : Nat) (front middle back : List Char) : Prop where
  parts : readChars text = front ++ middle ++ back
  output : truncateOutput text maxBytes =
    charUnits (front ++ marker (encode middle).length ++ back)
  room : (encode front).length + (encode back).length ≤ maxBytes - MARKER_RESERVE

theorem truncateOutput_cut (h : maxBytes < byteLength text) :
    ∃ front middle back, Cut text maxBytes front middle back := by
  have hlong : maxBytes < (encode (readChars text)).length := h
  have hhead := backToCharStart_le (encode (readChars text)) ((maxBytes - MARKER_RESERVE) / 2)
  have hheadBoundary : IsBoundary (encode (readChars text))
      (backToCharStart (encode (readChars text)) ((maxBytes - MARKER_RESERVE) / 2)) :=
    isBoundary_back (by omega)
  generalize hheadEnd : backToCharStart (encode (readChars text))
    ((maxBytes - MARKER_RESERVE) / 2) = headEnd at hhead hheadBoundary
  have htail := le_forwardToCharStart (encode (readChars text))
    ((encode (readChars text)).length - (maxBytes - MARKER_RESERVE - headEnd))
  have htailBoundary : IsBoundary (encode (readChars text))
      (forwardToCharStart (encode (readChars text))
        ((encode (readChars text)).length - (maxBytes - MARKER_RESERVE - headEnd))) :=
    isBoundary_forward (Nat.sub_le _ _)
  generalize htailStart : forwardToCharStart (encode (readChars text))
    ((encode (readChars text)).length - (maxBytes - MARKER_RESERVE - headEnd)) = tailStart
    at htail htailBoundary
  obtain ⟨front, middle, back, hparts, hfront, hback, hmiddle⟩ :=
    cut_between hheadBoundary htailBoundary (by omega)
  refine ⟨front, middle, back, hparts, ?_, ?_⟩
  · unfold truncateOutput
    dsimp only
    rw [if_neg (not_le.2 hlong), hheadEnd, htailStart, hfront, hback, hmiddle, decode_encode,
      decode_encode]
  · rw [← hfront, ← hback, List.length_take, List.length_drop]
    have := htailBoundary.1
    omega

/-! ## The output -/

theorem truncateOutput_short (h : byteLength text ≤ maxBytes) :
    truncateOutput text maxBytes = text := if_pos h

theorem byteLength_truncateOutput (hmax : 80 ≤ maxBytes) (hlength : text.length < 2 ^ 53) :
    byteLength (truncateOutput text maxBytes) ≤ maxBytes := by
  by_cases hlong : maxBytes < byteLength text
  · obtain ⟨front, middle, back, hcut⟩ := truncateOutput_cut hlong
    have hbytes := byteLength_le text
    have hmiddle : (encode middle).length ≤ byteLength text := by
      unfold byteLength
      rw [hcut.parts, length_encode_append, length_encode_append]
      omega
    have hmarker : (encode (marker (encode middle).length)).length ≤ MARKER_RESERVE :=
      length_marker_le (by omega)
    have hroom := hcut.room
    rw [hcut.output, byteLength_charUnits, length_encode_append, length_encode_append]
    unfold MARKER_RESERVE at *
    omega
  · rw [truncateOutput_short (not_lt.1 hlong)]
    exact not_lt.1 hlong

/-- The output has at most `maxBytes` bytes, and cutting it again changes nothing.
A text that is not too long is the output; of any other one, as UTF-8 writes it,
a front and a back are kept whole, and the marker counts the bytes between them.
Where no half of a surrogate pair stands alone, these are parts of the text
itself. -/
theorem truncateOutput_bounded (text : ScriptText) (maxBytes : Nat) (hmax : 80 ≤ maxBytes)
    (hlength : text.units.length < 2 ^ 53) :
    byteLength (truncateOutput text.units maxBytes) ≤ maxBytes ∧
      (byteLength text.units ≤ maxBytes → truncateOutput text.units maxBytes = text.units) ∧
      (maxBytes < byteLength text.units → ∃ front middle back,
        Cut text.units maxBytes front middle back ∧
          ((∀ p ∈ codePoints text.units, isSurrogate p = false) →
            text.units = charUnits front ++ charUnits middle ++ charUnits back)) ∧
      truncateOutput (truncateOutput text.units maxBytes) maxBytes =
        truncateOutput text.units maxBytes := by
  have hbytes := byteLength_truncateOutput hmax hlength
  refine ⟨hbytes, truncateOutput_short, fun hlong => ?_, truncateOutput_short hbytes⟩
  obtain ⟨front, middle, back, hcut⟩ := truncateOutput_cut hlong
  refine ⟨front, middle, back, hcut, fun hwhole => ?_⟩
  rw [← charUnits_append, ← charUnits_append, ← hcut.parts]
  exact (charUnits_readChars text.bounded hwhole).symm

/-- Half a surrogate pair and a long line. -/
def loneText : ScriptText where
  units := 0xD800 :: List.replicate 90 0x61
  bounded := by decide

theorem truncateOutput_lone :
    byteLength (truncateOutput loneText.units 90) ≤ 90 ∧
      (byteLength loneText.units ≤ 90 →
        truncateOutput loneText.units 90 = loneText.units) ∧
      (90 < byteLength loneText.units → ∃ front middle back,
        Cut loneText.units 90 front middle back ∧
          ((∀ p ∈ codePoints loneText.units, isSurrogate p = false) →
            loneText.units = charUnits front ++ charUnits middle ++ charUnits back)) ∧
      truncateOutput (truncateOutput loneText.units 90) 90 =
        truncateOutput loneText.units 90 :=
  truncateOutput_bounded loneText 90 (by decide) (by decide)

set_option maxRecDepth 2000 in
/-- Of the line behind half a pair, what is kept is no part of the text. -/
theorem truncateOutput_replaces :
    90 < byteLength loneText.units ∧
      ¬ ∃ front back dropped, front <+: loneText.units ∧ back <:+ loneText.units ∧
        truncateOutput loneText.units 90 = front ++ charUnits (marker dropped) ++ back := by
  have hhead : (truncateOutput loneText.units 90).head? = some 0xFFFD := by decide
  refine ⟨by decide, ?_⟩
  rintro ⟨front, back, dropped, hfront, -, hout⟩
  rw [hout] at hhead
  cases front with
  | nil => cases hhead
  | cons u front =>
    cases hhead
    exact absurd (List.cons_prefix_cons.1 hfront).1 (by decide)

end Cine.Grading
