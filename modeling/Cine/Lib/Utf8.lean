import Mathlib.Data.List.Forall2

/-!
# UTF-8, decoded chunk by chunk

A text is a list of characters, and its encoding a list of bytes.  The
decoder is the one that scripts use: it never fails, and gives the
replacement character for every maximal part of an ill-formed sequence.

A stream that was cut into chunks may be decoded chunk by chunk.
`decode_chunks` says what comes out: a character that lies in one chunk is
kept, and a character that was cut becomes two replacement characters or
more.  A cut falls inside a character exactly when the next chunk begins
with a tail byte, and all characters are kept exactly when no chunk does.

There are four groups.

* The encoder and the decoder.
* One character: `Awaits` is a decoder that is about to give a character.
* Texts and chunks.
* `Garbled`, what becomes of a text, and what it keeps.
-/

namespace Cine.Lib.Utf8

/-- The bytes of a character. -/
def encodeChar (c : Char) : List Nat :=
  if c.toNat < 0x80 then [c.toNat]
  else if c.toNat < 0x800 then [0xC0 + c.toNat / 0x40, 0x80 + c.toNat % 0x40]
  else if c.toNat < 0x10000 then
    [0xE0 + c.toNat / 0x1000, 0x80 + c.toNat / 0x40 % 0x40, 0x80 + c.toNat % 0x40]
  else
    [0xF0 + c.toNat / 0x40000, 0x80 + c.toNat / 0x1000 % 0x40, 0x80 + c.toNat / 0x40 % 0x40,
      0x80 + c.toNat % 0x40]

def encode (text : List Char) : List Nat := text.flatMap encodeChar

/-- What an ill-formed sequence is replaced by. -/
def replacement : Char := '\uFFFD'

/-- A character of which some bytes were read: the bytes that are missing,
and the bounds of the next one. -/
structure Pending where
  code : Nat
  needed : Nat
  lower : Nat
  upper : Nat

/-- A byte between two characters. -/
def first (b : Nat) : Option Pending × List Char :=
  if b < 0x80 then (none, [Char.ofNat b])
  else if 0xC2 ≤ b ∧ b ≤ 0xDF then (some ⟨b - 0xC0, 1, 0x80, 0xBF⟩, [])
  else if 0xE0 ≤ b ∧ b ≤ 0xEF then
    (some ⟨b - 0xE0, 2, if b = 0xE0 then 0xA0 else 0x80, if b = 0xED then 0x9F else 0xBF⟩, [])
  else if 0xF0 ≤ b ∧ b ≤ 0xF4 then
    (some ⟨b - 0xF0, 3, if b = 0xF0 then 0x90 else 0x80, if b = 0xF4 then 0x8F else 0xBF⟩, [])
  else (none, [replacement])

/-- A byte inside a character.  One that does not belong there ends the
character, and is read again. -/
def Pending.next (p : Pending) (b : Nat) : Option Pending × List Char :=
  if p.lower ≤ b ∧ b ≤ p.upper then
    if p.needed = 1 then (none, [Char.ofNat (p.code * 0x40 + (b - 0x80))])
    else (some ⟨p.code * 0x40 + (b - 0x80), p.needed - 1, 0x80, 0xBF⟩, [])
  else ((first b).1, replacement :: (first b).2)

def feed : Option Pending → Nat → Option Pending × List Char
  | none, b => first b
  | some p, b => p.next b

/-- The rest of a decoding.  A character that the bytes end in is replaced. -/
def decodeFrom : Option Pending → List Nat → List Char
  | none, [] => []
  | some _, [] => [replacement]
  | q, b :: bs => (feed q b).2 ++ decodeFrom (feed q b).1 bs

def decode (bytes : List Nat) : List Char := decodeFrom none bytes

theorem length_feed (q : Option Pending) (b : Nat) : (feed q b).2.length ≤ 2 := by
  have hfirst : (first b).2.length ≤ 1 := by
    unfold first
    split_ifs <;> simp
  cases q with
  | none => exact Nat.le_succ_of_le hfirst
  | some p =>
    show (p.next b).2.length ≤ 2
    unfold Pending.next
    split_ifs
    · simp
    · simp
    · exact Nat.succ_le_succ hfirst

/-- A decoding has at most two characters for each byte, and one more. -/
theorem length_decode (bytes : List Nat) : (decode bytes).length ≤ 2 * bytes.length + 1 := by
  unfold decode
  generalize (none : Option Pending) = q
  induction bytes generalizing q with
  | nil => cases q <;> simp [decodeFrom]
  | cons b bytes ih =>
    have hfeed := length_feed q b
    have hrest := ih (feed q b).1
    have heq : decodeFrom q (b :: bytes) = (feed q b).2 ++ decodeFrom (feed q b).1 bytes := by
      cases q <;> rfl
    rw [heq, List.length_append, List.length_cons]
    omega

/-- A byte that a character goes on with. -/
def IsTail (b : Nat) : Prop := 0x80 ≤ b ∧ b < 0xC0

instance (b : Nat) : Decidable (IsTail b) := inferInstanceAs (Decidable (_ ∧ _))

/-! ## One character -/

/-- With these bytes the decoder gives the character, and nothing before. -/
def Awaits (c : Char) : Option Pending → List Nat → Prop
  | _, [] => False
  | q, [b] => feed q b = (none, [c])
  | q, b :: b' :: bs => ∃ p, feed q b = (some p, []) ∧ Awaits c (some p) (b' :: bs)

theorem encodeChar_ne_nil (c : Char) : encodeChar c ≠ [] := by
  unfold encodeChar
  split_ifs <;> exact List.cons_ne_nil _ _

theorem encodeChar_tails (c : Char) : ∀ b ∈ (encodeChar c).tail, IsTail b := by
  have hvalid := c.valid
  unfold encodeChar
  split_ifs <;> intro b hb <;>
    simp only [List.tail_cons, List.mem_cons, List.not_mem_nil, or_false] at hb <;>
    unfold IsTail <;> omega

theorem encodeChar_head (c : Char) : ∀ b ∈ (encodeChar c).head?, ¬ IsTail b := by
  intro b hb
  have hvalid : c.toNat < 0x110000 := by
    rcases c.valid with h | h
    · exact Nat.lt_trans h (by decide)
    · exact h.2
  unfold encodeChar at hb
  split_ifs at hb <;> simp only [List.head?_cons, Option.mem_def, Option.some.injEq] at hb <;>
    unfold IsTail <;> omega

variable {c : Char} {l : List Nat} {text a b r : List Char}

/-- A character of one byte. -/
theorem encodeChar_of_lt (h : c.toNat < 0x80) : encodeChar c = [c.toNat] := if_pos h

theorem first_three {n : Nat} (h : n < 0x10) :
    first (0xE0 + n) = (some ⟨n, 2, if n = 0 then 0xA0 else 0x80,
      if n = 0xD then 0x9F else 0xBF⟩, []) := by
  have hlow : 0xE0 + n = 0xE0 ↔ n = 0 := by omega
  have hupp : 0xE0 + n = 0xED ↔ n = 0xD := by omega
  rw [first, if_neg (by omega), if_neg (by omega), if_pos (by omega), Nat.add_sub_cancel_left]
  simp only [hlow, hupp]

theorem first_four {n : Nat} (h : n < 5) :
    first (0xF0 + n) = (some ⟨n, 3, if n = 0 then 0x90 else 0x80,
      if n = 4 then 0x8F else 0xBF⟩, []) := by
  have hlow : 0xF0 + n = 0xF0 ↔ n = 0 := by omega
  have hupp : 0xF0 + n = 0xF4 ↔ n = 4 := by omega
  rw [first, if_neg (by omega), if_neg (by omega), if_neg (by omega), if_pos (by omega),
    Nat.add_sub_cancel_left]
  simp only [hlow, hupp]

theorem next_last {p : Pending} {b : Nat} (hb : p.lower ≤ b ∧ b ≤ p.upper) (hneeded : p.needed = 1)
    (hc : Char.ofNat (p.code * 0x40 + (b - 0x80)) = c) : p.next b = (none, [c]) := by
  rw [Pending.next, if_pos hb, if_pos hneeded, hc]

theorem next_more {p : Pending} {b : Nat} (hb : p.lower ≤ b ∧ b ≤ p.upper)
    (hneeded : p.needed ≠ 1) :
    p.next b = (some ⟨p.code * 0x40 + (b - 0x80), p.needed - 1, 0x80, 0xBF⟩, []) := by
  rw [Pending.next, if_pos hb, if_neg hneeded]

theorem awaits_encodeChar (c : Char) : Awaits c none (encodeChar c) := by
  have hvalid : c.toNat < 0xD800 ∨ (0xDFFF < c.toNat ∧ c.toNat < 0x110000) := c.valid
  have hchar : ∀ n, n = c.toNat → Char.ofNat n = c := by
    rintro n rfl
    exact Char.ofNat_toNat c
  unfold encodeChar
  split_ifs with h1 h2 h3
  · show first c.toNat = _
    rw [first, if_pos h1, hchar _ rfl]
  · have hlead : first (0xC0 + c.toNat / 0x40) = (some ⟨c.toNat / 0x40, 1, 0x80, 0xBF⟩, []) := by
      rw [first, if_neg (by omega), if_pos (by omega), Nat.add_sub_cancel_left]
    refine ⟨_, hlead, ?_⟩
    exact next_last (by dsimp only; omega) rfl (hchar _ (by dsimp only; omega))
  · refine ⟨_, first_three (by omega), _, next_more ?_ (Nat.succ_succ_ne_one _), ?_⟩
    · dsimp only
      split_ifs <;> omega
    · exact next_last (by dsimp only; omega) rfl (hchar _ (by dsimp only; omega))
  · refine ⟨_, first_four (by omega), _, next_more ?_ (Nat.succ_succ_ne_one _), _,
      next_more (by dsimp only; omega) (Nat.succ_succ_ne_one _), ?_⟩
    · dsimp only
      split_ifs <;> omega
    · exact next_last (by dsimp only; omega) rfl (hchar _ (by dsimp only; omega))

theorem Awaits.decodeFrom {q : Option Pending} (h : Awaits c q l) (rest : List Nat) :
    decodeFrom q (l ++ rest) = c :: decode rest := by
  induction l generalizing q with
  | nil => exact h.elim
  | cons b bs ih =>
    rw [List.cons_append, Utf8.decodeFrom]
    cases bs with
    | nil =>
      have hfeed : feed q b = (none, [c]) := h
      rw [hfeed]
      rfl
    | cons b' bs =>
      obtain ⟨p, hfeed, hrest⟩ := h
      rw [hfeed]
      exact ih hrest

theorem Awaits.decodeFrom_part {q : Option Pending} {rest : List Nat} (h : Awaits c q (l ++ rest))
    (hl : l ≠ []) (hrest : rest ≠ []) : Utf8.decodeFrom q l = [replacement] := by
  induction l generalizing q with
  | nil => exact absurd rfl hl
  | cons b bs ih =>
    rw [Utf8.decodeFrom]
    cases bs with
    | nil =>
      obtain ⟨b', rest, rfl⟩ := List.exists_cons_of_ne_nil hrest
      obtain ⟨p, hfeed, -⟩ := h
      rw [hfeed]
      rfl
    | cons b' bs =>
      obtain ⟨p, hfeed, hnext⟩ := h
      rw [hfeed]
      exact ih hnext (List.cons_ne_nil _ _)

theorem decode_tails (h : ∀ b ∈ l, IsTail b) (rest : List Nat) :
    decode (l ++ rest) = List.replicate l.length replacement ++ decode rest := by
  induction l with
  | nil => rfl
  | cons b bs ih =>
    obtain ⟨hb, hbs⟩ := List.forall_mem_cons.1 h
    have hfeed : feed none b = (none, [replacement]) := by
      unfold IsTail at hb
      show first b = _
      rw [first, if_neg (by omega), if_neg (by omega), if_neg (by omega), if_neg (by omega)]
    rw [List.cons_append, decode, decodeFrom, hfeed]
    exact congrArg (replacement :: ·) (ih hbs)

/-! ## Texts and chunks -/

theorem encode_cons (c : Char) (text : List Char) :
    encode (c :: text) = encodeChar c ++ encode text := List.flatMap_cons

theorem length_encode_append (a b : List Char) :
    (encode (a ++ b)).length = (encode a).length + (encode b).length := by
  unfold encode
  rw [List.flatMap_append, List.length_append]

theorem decode_encode_append (text : List Char) (rest : List Nat) :
    decode (encode text ++ rest) = text ++ decode rest := by
  induction text with
  | nil => rfl
  | cons c text ih =>
    rw [encode_cons, List.append_assoc, decode, (awaits_encodeChar c).decodeFrom, ih]
    rfl

theorem decode_encode (text : List Char) : decode (encode text) = text := by
  have h := decode_encode_append text []
  rwa [List.append_nil, show decode [] = [] from rfl, List.append_nil] at h

/-- Where the first part of an encoding ends: between two characters, or
inside one. -/
theorem encode_split {chunk rest : List Nat} (h : chunk ++ rest = encode text) :
    (∃ t₁ t₂, text = t₁ ++ t₂ ∧ chunk = encode t₁ ∧ rest = encode t₂) ∨
      ∃ t₁ c t₂ l r, text = t₁ ++ c :: t₂ ∧ encodeChar c = l ++ r ∧ l ≠ [] ∧ r ≠ [] ∧
        chunk = encode t₁ ++ l ∧ rest = r ++ encode t₂ := by
  induction text generalizing chunk with
  | nil =>
    obtain ⟨rfl, rfl⟩ := List.append_eq_nil_iff.1 h
    exact Or.inl ⟨[], [], rfl, rfl, rfl⟩
  | cons c text ih =>
    rw [encode_cons] at h
    rcases List.append_eq_append_iff.1 h with ⟨r, hchar, hrest⟩ | ⟨chunk', hchunk, hrest⟩
    · by_cases hnil : chunk = []
      · subst hnil
        refine Or.inl ⟨[], c :: text, rfl, rfl, ?_⟩
        rw [encode_cons, hrest, hchar, List.nil_append]
      · by_cases hr : r = []
        · subst hr
          rw [List.append_nil] at hchar
          refine Or.inl ⟨[c], text, rfl, ?_, hrest⟩
          rw [encode_cons, ← hchar]
          exact (List.append_nil _).symm
        · exact Or.inr ⟨[], c, text, chunk, r, rfl, hchar, hnil, hr, rfl, hrest⟩
    · rcases ih hrest.symm with ⟨t₁, t₂, rfl, rfl, rfl⟩ |
        ⟨t₁, d, t₂, l, r, rfl, hd, hl, hr, rfl, rfl⟩
      · exact Or.inl ⟨c :: t₁, t₂, rfl, by rw [hchunk, encode_cons], rfl⟩
      · refine Or.inr ⟨c :: t₁, d, t₂, l, r, rfl, hd, hl, hr, ?_, rfl⟩
        rw [hchunk, encode_cons, List.append_assoc]

/-- What a character becomes: itself, or replacements where it was cut. -/
def Becomes (c : Char) (run : List Char) : Prop :=
  run = [c] ∨ 0x80 ≤ c.toNat ∧ ∃ n, 2 ≤ n ∧ run = List.replicate n replacement

/-- No chunk begins inside a character. -/
def Aligned (chunks : List (List Nat)) : Prop :=
  ∀ chunk ∈ chunks, ∀ b ∈ chunk.head?, ¬ IsTail b

instance (chunks : List (List Nat)) : Decidable (Aligned chunks) :=
  inferInstanceAs (Decidable (∀ chunk ∈ chunks, ∀ b ∈ chunk.head?, ¬ IsTail b))

/-- Every character is kept. -/
def AllKept (text : List Char) (runs : List (List Char)) : Prop :=
  runs = text.map fun c => [c]

theorem head?_encode (text : List Char) : ∀ b ∈ (encode text).head?, ¬ IsTail b := by
  cases text with
  | nil => exact fun b hb => nomatch (show none = some b from hb)
  | cons c text =>
    intro b hb
    obtain ⟨b', bs, hbs⟩ := List.exists_cons_of_ne_nil (encodeChar_ne_nil c)
    rw [encode_cons, hbs, List.cons_append, List.head?_cons] at hb
    cases hb
    exact encodeChar_head c b (by rw [hbs]; rfl)

theorem forall₂_kept (text : List Char) : List.Forall₂ Becomes text (text.map fun c => [c]) := by
  induction text with
  | nil => exact .nil
  | cons c text ih => exact .cons (Or.inl rfl) ih

theorem flatten_kept (text : List Char) : (text.map fun c => [c]).flatten = text := by
  induction text with
  | nil => rfl
  | cons c text ih => rw [List.map_cons, List.flatten_cons, ih, List.singleton_append]

private theorem decode_chunks_aux (chunks : List (List Nat)) (tails : List Nat)
    (htails : ∀ b ∈ tails, IsTail b) (h : chunks.flatten = tails ++ encode text) :
    ∃ runs, chunks.flatMap decode = List.replicate tails.length replacement ++ runs.flatten ∧
      List.Forall₂ Becomes text runs ∧ (Aligned chunks ↔ tails = [] ∧ AllKept text runs) := by
  induction chunks generalizing tails text with
  | nil =>
    obtain ⟨rfl, hnil⟩ := List.append_eq_nil_iff.1 h.symm
    cases text with
    | nil => exact ⟨[], rfl, .nil, iff_of_true (fun _ hc => nomatch hc) ⟨rfl, rfl⟩⟩
    | cons c text =>
      rw [encode_cons] at hnil
      exact absurd (List.append_eq_nil_iff.1 hnil).1 (encodeChar_ne_nil c)
  | cons chunk chunks ih =>
    have haligned : Aligned (chunk :: chunks) ↔
        (∀ b ∈ chunk.head?, ¬ IsTail b) ∧ Aligned chunks := List.forall_mem_cons
    rw [List.flatten_cons] at h
    rw [List.flatMap_cons]
    rcases List.append_eq_append_iff.1 h with ⟨tails', rfl, hrest⟩ | ⟨chunk', rfl, hrest⟩
    · -- the chunk ends inside the cut character
      have hchunk : decode chunk = List.replicate chunk.length replacement := by
        have := decode_tails (fun b hb => htails b (List.mem_append_left _ hb)) []
        rwa [List.append_nil, show decode [] = [] from rfl, List.append_nil] at this
      obtain ⟨runs, hruns, hbecomes, hiff⟩ :=
        ih _ (fun b hb => htails b (List.mem_append_right _ hb)) hrest
      refine ⟨runs, ?_, hbecomes, ?_⟩
      · rw [hchunk, hruns, List.length_append, List.replicate_add, List.append_assoc]
      · rw [haligned, hiff]
        cases chunk with
        | nil =>
          refine ⟨fun h => h.2, fun h => ⟨fun b hb => ?_, h⟩⟩
          exact nomatch (show none = some b from hb)
        | cons b bs =>
          exact ⟨fun h => absurd (htails b List.mem_cons_self) (h.1 b rfl), fun h => nomatch h.1⟩
    · -- the chunk goes on after it
      have hhead : (∀ b ∈ (tails ++ chunk').head?, ¬ IsTail b) ↔ tails = [] := by
        cases tails with
        | nil =>
          refine iff_of_true (fun b hb => ?_) rfl
          cases chunk' with
          | nil => exact nomatch (show none = some b from hb)
          | cons b' bs =>
            refine head?_encode text b ?_
            rw [hrest]
            exact hb
        | cons b bs =>
          exact ⟨fun h => absurd (htails b List.mem_cons_self) (h b rfl), fun h => nomatch h⟩
      rw [decode_tails htails, haligned, hhead]
      rcases encode_split hrest.symm with ⟨t₁, t₂, rfl, rfl, hrest'⟩ |
        ⟨t₁, c, t₂, l, r, rfl, hc, hl, hr, rfl, hrest'⟩
      · obtain ⟨runs, hruns, hbecomes, hiff⟩ :=
          ih [] (fun _ hb => nomatch hb) (hrest'.trans (List.nil_append _).symm)
        refine ⟨(t₁.map fun c => [c]) ++ runs, ?_, ?_, ?_⟩
        · rw [decode_encode, hruns, List.flatten_append, flatten_kept, List.append_assoc]
          rfl
        · exact List.rel_append (forall₂_kept t₁) hbecomes
        · rw [hiff]
          unfold AllKept
          rw [List.map_append, List.append_cancel_left_eq]
          tauto
      · have hrtail : ∀ b ∈ r, IsTail b := by
          intro b hb
          refine encodeChar_tails c b ?_
          obtain ⟨b', bs, rfl⟩ := List.exists_cons_of_ne_nil hl
          rw [hc]
          exact List.mem_append_right _ hb
        have hpart : decode l = [replacement] := by
          have hawaits := awaits_encodeChar c
          rw [hc] at hawaits
          exact hawaits.decodeFrom_part hl hr
        obtain ⟨runs, hruns, hbecomes, hiff⟩ := ih r hrtail hrest'
        refine ⟨(t₁.map fun c => [c]) ++ List.replicate (r.length + 1) replacement :: runs,
          ?_, ?_, ?_⟩
        · rw [decode_encode_append, hpart, hruns, List.flatten_append, flatten_kept,
            List.flatten_cons, List.replicate_succ, List.append_assoc, List.append_assoc]
          rfl
        · refine List.rel_append (forall₂_kept t₁) (.cons (Or.inr ⟨?_, _, ?_, rfl⟩) hbecomes)
          · by_contra hsmall
            rw [encodeChar_of_lt (by omega)] at hc
            have hlength := congrArg List.length hc
            have hposl := List.length_pos_iff.2 hl
            have hposr := List.length_pos_iff.2 hr
            simp only [List.length_cons, List.length_nil, List.length_append] at hlength
            omega
          · have := List.length_pos_iff.2 hr
            omega
        · rw [hiff]
          refine iff_of_false (fun h => hr h.2.1) (fun h => ?_)
          have hkept := h.2
          unfold AllKept at hkept
          rw [List.map_append, List.append_cancel_left_eq, List.map_cons] at hkept
          have hlength := congrArg List.length (List.cons.inj hkept).1
          have := List.length_pos_iff.2 hr
          simp only [List.length_replicate, List.length_cons, List.length_nil] at hlength
          omega

/-! ## Garbled texts -/

/-- A text in which some characters were cut. -/
inductive Garbled : List Char → List Char → Prop
  | nil : Garbled [] []
  | cons {c : Char} {run text result : List Char} (h : Becomes c run)
      (rest : Garbled text result) : Garbled (c :: text) (run ++ result)

theorem garbled_of_forall₂ {runs : List (List Char)} (h : List.Forall₂ Becomes text runs) :
    Garbled text runs.flatten := by
  induction h with
  | nil => exact .nil
  | cons hc _ ih => exact .cons hc ih

theorem allKept_of_length {runs : List (List Char)} (h : List.Forall₂ Becomes text runs) :
    text.length ≤ runs.flatten.length ∧
      (runs.flatten.length = text.length → AllKept text runs) := by
  induction h with
  | nil => exact ⟨Nat.le_refl _, fun _ => rfl⟩
  | cons hc _ ih =>
    obtain ⟨hle, hkept⟩ := ih
    rcases hc with rfl | ⟨-, n, hn, rfl⟩
    · rw [List.flatten_cons, List.length_append, List.length_cons, List.length_singleton]
      refine ⟨by omega, fun h => ?_⟩
      unfold AllKept
      rw [List.map_cons, hkept (by omega)]
    · rw [List.flatten_cons, List.length_append, List.length_cons, List.length_replicate]
      exact ⟨by omega, fun h => by omega⟩

theorem decode_chunks {chunks : List (List Nat)} (h : chunks.flatten = encode text) :
    Garbled text (chunks.flatMap decode) ∧
      (chunks.flatMap decode = text ↔ Aligned chunks) := by
  obtain ⟨runs, hruns, hbecomes, hiff⟩ :=
    decode_chunks_aux chunks [] (fun _ hb => nomatch hb) h
  rw [hruns, show List.replicate ([] : List Nat).length replacement = [] from rfl,
    List.nil_append]
  refine ⟨garbled_of_forall₂ hbecomes, ?_⟩
  rw [hiff]
  constructor
  · intro htext
    exact ⟨rfl, (allKept_of_length hbecomes).2 (congrArg List.length htext)⟩
  · rintro ⟨-, hkept⟩
    rw [show runs = text.map fun c => [c] from hkept, flatten_kept]

theorem Garbled.split (h : Garbled (a ++ b) r) :
    ∃ ra rb, r = ra ++ rb ∧ Garbled a ra ∧ Garbled b rb := by
  induction a generalizing r with
  | nil => exact ⟨[], r, rfl, .nil, h⟩
  | cons c a ih =>
    rw [List.cons_append] at h
    cases h with
    | cons hc hrest =>
      rename_i run result
      obtain ⟨ra, rb, rfl, ha, hb⟩ := ih hrest
      exact ⟨run ++ ra, rb, (List.append_assoc _ _ _).symm, .cons hc ha, hb⟩

/-- A text of one-byte characters. -/
def IsAscii (text : List Char) : Prop := text.all (fun c => c.toNat < 0x80) = true

instance (text : List Char) : Decidable (IsAscii text) := inferInstanceAs (Decidable (_ = true))

theorem isAscii_iff : IsAscii text ↔ ∀ c ∈ text, c.toNat < 0x80 := by
  unfold IsAscii
  simp only [List.all_eq_true, decide_eq_true_eq]

theorem length_encode_ascii (h : IsAscii text) : (encode text).length = text.length := by
  rw [isAscii_iff] at h
  induction text with
  | nil => rfl
  | cons c text ih =>
    rw [encode_cons, encodeChar_of_lt (h c List.mem_cons_self), List.length_append,
      List.length_singleton, ih fun d hd => h d (List.mem_cons_of_mem c hd), List.length_cons,
      Nat.add_comm]

/-- A text of one-byte characters has no place to cut. -/
theorem Garbled.eq_of_ascii (h : Garbled a r) (ha : IsAscii a) : r = a := by
  rw [isAscii_iff] at ha
  induction h with
  | nil => rfl
  | cons hc _ ih =>
    obtain ⟨hlow, hrest⟩ := List.forall_mem_cons.1 ha
    rcases hc with rfl | ⟨hwide, -⟩
    · rw [ih hrest]
      rfl
    · omega

/-- Where nothing was replaced, nothing was cut. -/
theorem Garbled.eq_of_not_mem (h : Garbled a r) (hr : replacement ∉ r) : r = a := by
  induction h with
  | nil => rfl
  | cons hc _ ih =>
    rw [List.mem_append, not_or] at hr
    rcases hc with rfl | ⟨-, n, hn, rfl⟩
    · rw [ih hr.2]
      rfl
    · refine absurd (List.mem_replicate.2 ⟨?_, rfl⟩) hr.1
      omega

/-- One-byte characters in front of a text. -/
theorem Garbled.ascii_append (h : Garbled (a ++ b) r) (ha : IsAscii a) :
    ∃ rb, r = a ++ rb ∧ Garbled b rb := by
  obtain ⟨ra, rb, rfl, hra, hrb⟩ := h.split
  rw [hra.eq_of_ascii ha]
  exact ⟨rb, rfl, hrb⟩

/-- A one-byte character in front of a text. -/
theorem Garbled.ascii_cons (h : Garbled (c :: b) r) (hc : c.toNat < 0x80) :
    ∃ rb, r = c :: rb ∧ Garbled b rb :=
  Garbled.ascii_append (a := [c]) h (isAscii_iff.2 fun d hd => by rwa [List.mem_singleton.1 hd])

end Cine.Lib.Utf8
