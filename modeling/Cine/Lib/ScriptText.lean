import Cine.Lib.Utf16
import Cine.Lib.Utf8
import Mathlib.Algebra.GroupWithZero.Nat

/-!
# Code points and global replacement

A script's text may be any list of UTF-16 code units, also one in which half
a surrogate pair stands alone.  `codePoints` reads the pairs.

`replaceAll` is `text.replace(/pattern/g, f)`: the text is read from left to
right, and where the pattern matches, the replacement takes the place of the
match and the reading goes on behind it.  What is written is not read again.

* Code points: a text is what its points are written as.
* Characters: what is left of a text that becomes bytes, where half a pair is
  replaced.
* Replacement: `replaceAll_cons`, `replaceAll_match` for one step.
* `Occurs`: where no match occurs a replacement changes nothing, and where
  every match is longer than what replaces it, one that occurs is missed.
-/

namespace Cine.Lib

/-! ## Code points -/

def isHigh (u : Nat) : Bool := 0xD800 ≤ u ∧ u ≤ 0xDBFF

def isLow (u : Nat) : Bool := 0xDC00 ≤ u ∧ u ≤ 0xDFFF

/-- Half a surrogate pair. -/
def isSurrogate (u : Nat) : Bool := 0xD800 ≤ u ∧ u ≤ 0xDFFF

/-- The code points of a text.  Half a pair that stands alone is one. -/
def codePoints : List Nat → List Nat
  | [] => []
  | [u] => [u]
  | hi :: lo :: l =>
    if isHigh hi ∧ isLow lo then
      (0x10000 + (hi - 0xD800) * 0x400 + (lo - 0xDC00)) :: codePoints l
    else hi :: codePoints (lo :: l)

/-- `String.fromCodePoint`. -/
def pointUnits (n : Nat) : List Nat :=
  if n < 0x10000 then [n]
  else [0xD800 + (n - 0x10000) / 0x400, 0xDC00 + (n - 0x10000) % 0x400]

/-- The text of a script. -/
structure ScriptText where
  units : List Nat
  bounded : ∀ u ∈ units, u < 0x10000

theorem flatMap_codePoints (l : List Nat) (h : ∀ u ∈ l, u < 0x10000) :
    (codePoints l).flatMap pointUnits = l := by
  induction l using codePoints.induct with
  | case1 => rfl
  | case2 u =>
    have hu := h u (List.mem_singleton_self u)
    simp [codePoints, pointUnits, hu]
  | case3 hi lo l hpair ih =>
    have hl := ih fun u hu => h u (List.mem_cons_of_mem _ (List.mem_cons_of_mem _ hu))
    simp only [isHigh, isLow, decide_eq_true_iff] at hpair
    rw [codePoints, if_pos (by simpa only [isHigh, isLow, decide_eq_true_iff] using hpair),
      List.flatMap_cons, hl]
    unfold pointUnits
    rw [if_neg (by omega)]
    have hhi : 0xD800 + (0x10000 + (hi - 0xD800) * 0x400 + (lo - 0xDC00) - 0x10000) / 0x400 =
        hi := by
      omega
    have hlo : 0xDC00 + (0x10000 + (hi - 0xD800) * 0x400 + (lo - 0xDC00) - 0x10000) % 0x400 =
        lo := by
      omega
    rw [hhi, hlo]
    rfl
  | case4 hi lo l hpair ih =>
    have hl := ih fun u hu => h u (List.mem_cons_of_mem _ hu)
    have hhi := h hi List.mem_cons_self
    rw [codePoints, if_neg hpair, List.flatMap_cons, hl]
    unfold pointUnits
    rw [if_pos hhi]
    rfl

theorem codePoints_lt (l : List Nat) (h : ∀ u ∈ l, u < 0x10000) :
    ∀ p ∈ codePoints l, p < 0x110000 := by
  induction l using codePoints.induct with
  | case1 => exact fun p hp => absurd hp List.not_mem_nil
  | case2 u =>
    intro p hp
    have := h u (List.mem_singleton_self u)
    obtain rfl := List.mem_singleton.1 hp
    omega
  | case3 hi lo l hpair ih =>
    intro p hp
    rw [codePoints, if_pos hpair] at hp
    simp only [isHigh, isLow, decide_eq_true_iff] at hpair
    rcases List.mem_cons.1 hp with hfirst | hp
    · omega
    · exact ih (fun u hu => h u (List.mem_cons_of_mem _ (List.mem_cons_of_mem _ hu))) p hp
  | case4 hi lo l hpair ih =>
    intro p hp
    rw [codePoints, if_neg hpair] at hp
    rcases List.mem_cons.1 hp with rfl | hp
    · have := h p List.mem_cons_self
      omega
    · exact ih (fun u hu => h u (List.mem_cons_of_mem _ hu)) p hp

/-! ## Characters -/

/-- The characters of a text as UTF-8 writes them: half a pair that stands alone
becomes the replacement character. -/
def readChars (units : List Nat) : List Char :=
  (codePoints units).map fun p => if isSurrogate p then Utf8.replacement else Char.ofNat p

/-- The code units of characters. -/
def charUnits (chars : List Char) : List Nat := chars.flatMap codeUnits

def byteLength (units : List Nat) : Nat := (Utf8.encode (readChars units)).length

theorem charUnits_append (a b : List Char) : charUnits (a ++ b) = charUnits a ++ charUnits b :=
  List.flatMap_append

theorem codePoints_codeUnits (c : Char) (l : List Nat) :
    codePoints (codeUnits c ++ l) = c.toNat :: codePoints l := by
  have hc := not_surrogate c
  unfold codeUnits
  dsimp only
  split_ifs with hlow
  · have hhigh : isHigh c.toNat = false := by
      simp only [isHigh, decide_eq_false_iff_not]
      omega
    cases l with
    | nil => rfl
    | cons u l =>
      rw [List.singleton_append, codePoints, hhigh, if_neg (by simp)]
  · have hpair : isHigh (0xD800 + (c.toNat - 0x10000) / 0x400) = true ∧
        isLow (0xDC00 + (c.toNat - 0x10000) % 0x400) = true := by
      simp only [isHigh, isLow, decide_eq_true_iff]
      omega
    rw [List.cons_append, List.cons_append, List.nil_append, codePoints, if_pos hpair]
    exact congrArg (· :: codePoints l) (by omega)

theorem codePoints_append_cons {u : Nat} (hu : isSurrogate u = false) (a b : List Nat) :
    codePoints (a ++ u :: b) = codePoints a ++ u :: codePoints b := by
  have hlow : isLow u = false := by
    simp only [isSurrogate, isLow, decide_eq_false_iff_not] at hu ⊢
    omega
  have hcons : codePoints (u :: b) = u :: codePoints b := by
    have hhigh : isHigh u = false := by
      simp only [isSurrogate, isHigh, decide_eq_false_iff_not] at hu ⊢
      omega
    cases b with
    | nil => rfl
    | cons v b => rw [codePoints, hhigh, if_neg (by simp)]
  induction a using codePoints.induct with
  | case1 => exact hcons
  | case2 v =>
    show codePoints (v :: u :: b) = v :: u :: codePoints b
    rw [codePoints, hlow, if_neg (by simp), hcons]
  | case3 hi lo l hpair ih =>
    rw [List.cons_append, List.cons_append, codePoints, if_pos hpair, ih, codePoints, if_pos hpair,
      List.cons_append]
  | case4 hi lo l hpair ih =>
    rw [List.cons_append, List.cons_append, codePoints, if_neg hpair, ← List.cons_append, ih,
      codePoints, if_neg hpair, List.cons_append]

theorem codePoints_charUnits (chars : List Char) :
    codePoints (charUnits chars) = chars.map Char.toNat := by
  induction chars with
  | nil => rfl
  | cons c chars ih =>
    show codePoints (codeUnits c ++ charUnits chars) = _
    rw [codePoints_codeUnits, ih, List.map_cons]

theorem readChars_charUnits (chars : List Char) : readChars (charUnits chars) = chars := by
  unfold readChars
  rw [codePoints_charUnits, List.map_map]
  refine (List.map_congr_left fun c _ => ?_).trans (List.map_id chars)
  have hc := not_surrogate c
  have hsurrogate : isSurrogate c.toNat = false := by
    simp only [isSurrogate, decide_eq_false_iff_not]
    omega
  rw [Function.comp_apply, hsurrogate]
  exact Char.ofNat_toNat c

theorem charUnits_readChars {units : List Nat} (hbounded : ∀ u ∈ units, u < 0x10000)
    (h : ∀ p ∈ codePoints units, isSurrogate p = false) : charUnits (readChars units) = units := by
  have hpoints := codePoints_lt units hbounded
  have hunits : ∀ p ∈ codePoints units,
      codeUnits (if isSurrogate p then Utf8.replacement else Char.ofNat p) = pointUnits p := by
    intro p hp
    have hlt := hpoints p hp
    have hsurrogate := h p hp
    have hvalid : Nat.isValidChar p := by
      simp only [isSurrogate, decide_eq_false_iff_not] at hsurrogate
      unfold Nat.isValidChar
      omega
    have hchar : (Char.ofNat p).toNat = p := by
      rw [Char.ofNat, dif_pos hvalid]
      rfl
    rw [hsurrogate, if_neg (by simp), codeUnits, hchar, pointUnits]
  unfold charUnits readChars
  rw [List.flatMap_map]
  refine Eq.trans ?_ (flatMap_codePoints units hbounded)
  exact List.flatMap_congr hunits

theorem length_codePoints_le (units : List Nat) : (codePoints units).length ≤ units.length := by
  induction units using codePoints.induct with
  | case1 => exact Nat.le_refl 0
  | case2 u => exact Nat.le_refl 1
  | case3 hi lo l hpair ih =>
    rw [codePoints, if_pos hpair]
    simp only [List.length_cons]
    omega
  | case4 hi lo l hpair ih =>
    rw [codePoints, if_neg hpair]
    simp only [List.length_cons] at ih ⊢
    omega

/-- A character has four bytes at most. -/
theorem byteLength_le (units : List Nat) : byteLength units ≤ 4 * units.length := by
  have hencode : ∀ chars : List Char, (Utf8.encode chars).length ≤ 4 * chars.length := by
    intro chars
    induction chars with
    | nil => exact Nat.le_refl 0
    | cons c chars ih =>
      have hchar : (Utf8.encodeChar c).length ≤ 4 := by
        unfold Utf8.encodeChar
        split_ifs <;> simp
      rw [Utf8.encode_cons, List.length_append, List.length_cons]
      omega
  have hchars : (readChars units).length ≤ units.length := by
    unfold readChars
    rw [List.length_map]
    exact length_codePoints_le units
  have := hencode (readChars units)
  unfold byteLength
  omega

theorem byteLength_charUnits (chars : List Char) :
    byteLength (charUnits chars) = (Utf8.encode chars).length := by
  unfold byteLength
  rw [readChars_charUnits]

/-! ## Replacement -/

/-- A pattern and what to replace a match by.  For the text from a place on
it gives the replacement and how long the match is behind its first element;
nothing where the pattern does not match. -/
abbrev Rule (α : Type) := List α → Option (List α × Nat)

section Replace

variable {α : Type} (rule : Rule α)

/-- The replacement, where the first `skip` elements belong to a match. -/
def replaceFrom : Nat → List α → List α
  | _, [] => []
  | skip + 1, _ :: l => replaceFrom skip l
  | 0, a :: l =>
    match rule (a :: l) with
    | some (out, more) => out ++ replaceFrom more l
    | none => a :: replaceFrom 0 l

def replaceAll (l : List α) : List α := replaceFrom rule 0 l

/-- What the matches are replaced by, and nothing of the rest. -/
def matchesFrom : Nat → List α → List (List α)
  | _, [] => []
  | skip + 1, _ :: l => matchesFrom skip l
  | 0, a :: l =>
    match rule (a :: l) with
    | some (out, more) => out :: matchesFrom more l
    | none => matchesFrom 0 l

/-- `text.matchAll(/pattern/g)`. -/
def matchAll (l : List α) : List (List α) := matchesFrom rule 0 l

variable {rule}

theorem replaceFrom_append (m l : List α) :
    replaceFrom rule m.length (m ++ l) = replaceAll rule l := by
  induction m with
  | nil => rfl
  | cons a m ih => exact ih

variable {a : α} {l : List α}

theorem replaceAll_cons (h : rule (a :: l) = none) :
    replaceAll rule (a :: l) = a :: replaceAll rule l := by
  unfold replaceAll
  rw [replaceFrom, h]

theorem replaceAll_match {m out : List α} (h : rule (a :: (m ++ l)) = some (out, m.length)) :
    replaceAll rule (a :: (m ++ l)) = out ++ replaceAll rule l := by
  rw [← replaceFrom_append m l]
  unfold replaceAll
  rw [replaceFrom, h]

theorem matchesFrom_append (m l : List α) :
    matchesFrom rule m.length (m ++ l) = matchAll rule l := by
  induction m with
  | nil => rfl
  | cons a m ih => exact ih

theorem matchAll_match {m out : List α} (h : rule (a :: (m ++ l)) = some (out, m.length)) :
    matchAll rule (a :: (m ++ l)) = out :: matchAll rule l := by
  rw [← matchesFrom_append m l]
  unfold matchAll
  rw [matchesFrom, h]

/-! ## Where a match occurs -/

variable (rule) in
/-- The pattern matches at some place of the text. -/
def Occurs (l : List α) : Prop := ∃ t, t <:+ l ∧ (rule t).isSome = true

theorem occurs_cons_iff : Occurs rule (a :: l) ↔ (rule (a :: l)).isSome = true ∨ Occurs rule l := by
  constructor
  · rintro ⟨t, ht, hsome⟩
    rcases List.suffix_cons_iff.1 ht with rfl | ht
    · exact Or.inl hsome
    · exact Or.inr ⟨t, ht, hsome⟩
  · rintro (hsome | ⟨t, ht, hsome⟩)
    · exact ⟨a :: l, List.suffix_rfl, hsome⟩
    · exact ⟨t, ht.trans (List.suffix_cons a l), hsome⟩

theorem replaceAll_eq_self (h : ¬ Occurs rule l) : replaceAll rule l = l := by
  induction l with
  | nil => rfl
  | cons a l ih =>
    rw [occurs_cons_iff, not_or] at h
    rw [replaceAll_cons (Option.not_isSome_iff_eq_none.1 h.1), ih h.2]

theorem countP_replaceFrom_le {p : α → Bool}
    (hrule : ∀ l out more, rule l = some (out, more) → out.countP p < (l.take (more + 1)).countP p)
    (skip : Nat) (l : List α) : (replaceFrom rule skip l).countP p ≤ (l.drop skip).countP p := by
  induction l generalizing skip with
  | nil =>
    rw [replaceFrom]
    exact Nat.zero_le _
  | cons a l ih =>
    cases skip with
    | succ skip => exact ih skip
    | zero =>
      rw [replaceFrom, List.drop_zero]
      cases h : rule (a :: l) with
      | none =>
        have := ih 0
        rw [List.drop_zero] at this
        simp only [List.countP_cons]
        omega
      | some r =>
        obtain ⟨out, more⟩ := r
        have hshort := hrule _ _ _ h
        have hrest := ih more
        have hsplit : (a :: l).countP p =
            ((a :: l).take (more + 1)).countP p + (l.drop more).countP p := by
          rw [← List.countP_append]
          exact congrArg _ (List.take_append_drop (more + 1) (a :: l)).symm
        dsimp only
        rw [List.countP_append]
        omega

theorem not_occurs_of_countP {p : α → Bool}
    (hrule : ∀ l out more, rule l = some (out, more) → out.countP p < (l.take (more + 1)).countP p)
    (h : (replaceAll rule l).countP p = l.countP p) : ¬ Occurs rule l := by
  induction l with
  | nil =>
    rintro ⟨t, ht, hsome⟩
    obtain rfl := List.suffix_nil.1 ht
    obtain ⟨⟨out, more⟩, hr⟩ := Option.isSome_iff_exists.1 hsome
    have := hrule _ _ _ hr
    simp at this
  | cons a l ih =>
    rw [occurs_cons_iff, not_or]
    cases hr : rule (a :: l) with
    | none =>
      rw [replaceAll_cons hr, List.countP_cons, List.countP_cons] at h
      exact ⟨by simp, ih (Nat.add_right_cancel h)⟩
    | some r =>
      obtain ⟨out, more⟩ := r
      have hshort := hrule _ _ _ hr
      have hrest := countP_replaceFrom_le hrule more l
      have hsplit : (a :: l).countP p =
          ((a :: l).take (more + 1)).countP p + (l.drop more).countP p := by
        rw [← List.countP_append]
        exact congrArg _ (List.take_append_drop (more + 1) (a :: l)).symm
      have hout : (replaceAll rule (a :: l)).countP p =
          out.countP p + (replaceFrom rule more l).countP p := by
        unfold replaceAll
        rw [replaceFrom, hr]
        exact List.countP_append
      omega

end Replace

end Cine.Lib
