import Mathlib.Data.List.TakeWhile
import Mathlib.Tactic.Common

/-!
# Printing JSON

The text that `JSON.stringify` gives numbers, strings, arrays and objects.
A printer is a function to lists of characters.  It is `ReadBack` when the
value and the rest of a text can be told from each other, as long as the
rest begins with a separator or a bracket, as it does inside an array or an
object.

`ReadBack.list`, `ReadBack.pair`, `ReadBack.label` and `ReadBack.close` put
printers together, so that the printer of a whole document is `ReadBack` by
the way it is built, and `ReadBack.injective` says that two documents of one
text are equal.
-/

namespace Cine.Lib.Json

variable {α β : Type*}

/-- A rest that begins with a separator or a closing bracket. -/
def Stops (s : List Char) : Prop :=
  ∀ c ∈ s.head?, c = ',' ∨ c = ']' ∨ c = '}'

/-- The value and the rest can be told from each other. -/
def ReadBack (f : α → List Char) : Prop :=
  ∀ a b s t, Stops s → Stops t → f a ++ s = f b ++ t → a = b ∧ s = t

/-- Every text of the printer begins with a character of `p`. -/
def Heads (f : α → List Char) (p : Char → Bool) : Prop :=
  ∀ a, ∃ c l, f a = c :: l ∧ p c = true

theorem stops_nil : Stops [] := fun _ h => by cases h

variable {s : List Char} {f : α → List Char} {p : Char → Bool}

theorem stops_cons {c : Char} (h : c = ',' ∨ c = ']' ∨ c = '}') : Stops (c :: s) := by
  intro d hd
  cases hd
  exact h

theorem ReadBack.injective (h : ReadBack f) : Function.Injective f :=
  fun a b hab => (h a b [] [] stops_nil stops_nil (by rw [hab])).1

/-! ## Numbers, truth values and strings -/

/-- A text of characters in `p` ends where the first other character
stands. -/
theorem append_unique {l l' t : List Char} (hl : ∀ c ∈ l, p c = true) (hl' : ∀ c ∈ l', p c = true)
    (hs : ∀ c ∈ s.head?, p c = false) (ht : ∀ c ∈ t.head?, p c = false) (h : l ++ s = l' ++ t) :
    l = l' ∧ s = t := by
  have hstop : ∀ r : List Char, (∀ c ∈ r.head?, p c = false) → r.takeWhile p = [] := by
    intro r hr
    cases r with
    | nil => rfl
    | cons c r => rw [List.takeWhile_cons, hr c rfl, if_neg Bool.false_ne_true]
  have htake := congrArg (List.takeWhile p) h
  rw [List.takeWhile_append_of_pos hl, List.takeWhile_append_of_pos hl', hstop s hs, hstop t ht,
    List.append_nil, List.append_nil] at htake
  subst htake
  exact ⟨rfl, List.append_cancel_left h⟩

/-- A whole number. -/
def int (n : Int) : List Char :=
  if n < 0 then '-' :: Nat.toDigits 10 n.natAbs else Nat.toDigits 10 n.natAbs

/-- A digit or a minus. -/
def isNumeral (c : Char) : Bool := c.isDigit || c = '-'

theorem int_numeral (n : Int) : ∀ c ∈ int n, isNumeral c = true := by
  have hdigits : ∀ c ∈ Nat.toDigits 10 n.natAbs, isNumeral c = true := fun c hc => by
    rw [isNumeral, Nat.isDigit_of_mem_toDigits (by decide) (by decide) hc, Bool.true_or]
  intro c hc
  unfold int at hc
  split_ifs at hc with hneg
  · rcases List.mem_cons.1 hc with rfl | hc
    · rfl
    · exact hdigits c hc
  · exact hdigits c hc

theorem toDigits_inj {m n : Nat} (h : Nat.toDigits 10 m = Nat.toDigits 10 n) : m = n := by
  have hread := congrArg (fun digits => Nat.ofDigitChars 10 digits 0) h
  simpa only [Nat.ofDigitChars_ten_toDigits] using hread

theorem minus_not_mem_toDigits {n : Nat} : '-' ∉ Nat.toDigits 10 n := fun h => by
  have hdigit := Nat.isDigit_of_mem_toDigits (by decide) (by decide) h
  revert hdigit
  decide

theorem int_injective {m n : Int} (h : int m = int n) : m = n := by
  have hminus : ∀ (k : Nat) (l : List Char), '-' :: l ≠ Nat.toDigits 10 k := fun k l heq =>
    minus_not_mem_toDigits (n := k) (heq ▸ List.mem_cons_self)
  unfold int at h
  split_ifs at h with hm hn hn
  · have := toDigits_inj (List.cons.inj h).2
    omega
  · exact absurd h (hminus _ _)
  · exact absurd h.symm (hminus _ _)
  · have := toDigits_inj h
    omega

theorem Stops.not_numeral (h : Stops s) : ∀ c ∈ s.head?, isNumeral c = false := by
  intro c hc
  rcases h c hc with rfl | rfl | rfl <;> rfl

theorem readBack_int : ReadBack int := by
  intro m n s t hs ht h
  obtain ⟨htext, hrest⟩ := append_unique (int_numeral m) (int_numeral n) hs.not_numeral
    ht.not_numeral h
  exact ⟨int_injective htext, hrest⟩

theorem heads_int : Heads int isNumeral := by
  intro n
  have hne : int n ≠ [] := by
    unfold int
    split_ifs
    · exact List.cons_ne_nil _ _
    · exact Nat.toDigits_ne_nil
  obtain ⟨c, l, hl⟩ := List.exists_cons_of_ne_nil hne
  exact ⟨c, l, hl, int_numeral n c (hl ▸ List.mem_cons_self)⟩

/-- A truth value. -/
def bool (b : Bool) : List Char := (if b then "true" else "false").toList

theorem readBack_bool : ReadBack bool := by
  intro a b s t _ _ h
  cases a <;> cases b <;> simp_all [bool]

/-- A hexadecimal digit. -/
def hexDigit (n : Nat) : Char := Nat.digitChar n

/-- A character inside a string. -/
def escape (c : Char) : List Char :=
  if c = '"' then ['\\', '"']
  else if c = '\\' then ['\\', '\\']
  else if c.toNat = 8 then ['\\', 'b']
  else if c.toNat = 9 then ['\\', 't']
  else if c.toNat = 10 then ['\\', 'n']
  else if c.toNat = 12 then ['\\', 'f']
  else if c.toNat = 13 then ['\\', 'r']
  else if c.toNat < 0x20 then
    ['\\', 'u', '0', '0', hexDigit (c.toNat / 16), hexDigit (c.toNat % 16)]
  else [c]

/-- A string. -/
def str (s : String) : List Char := '"' :: s.toList.flatMap escape ++ ['"']

/-- The value of a lower-case hexadecimal digit. -/
def hexValue (c : Char) : Nat := if c.isDigit then c.toNat - 48 else c.toNat - 87

/-- Reads the character that stands in front. -/
def unescape : List Char → Option (Char × List Char)
  | '\\' :: '"' :: s => some ('"', s)
  | '\\' :: '\\' :: s => some ('\\', s)
  | '\\' :: 'b' :: s => some (Char.ofNat 8, s)
  | '\\' :: 't' :: s => some (Char.ofNat 9, s)
  | '\\' :: 'n' :: s => some (Char.ofNat 10, s)
  | '\\' :: 'f' :: s => some (Char.ofNat 12, s)
  | '\\' :: 'r' :: s => some (Char.ofNat 13, s)
  | '\\' :: 'u' :: _ :: _ :: h :: l :: s => some (Char.ofNat (16 * hexValue h + hexValue l), s)
  | c :: s => some (c, s)
  | [] => none

theorem hexValue_hexDigit : ∀ n < 16, hexValue (hexDigit n) = n := by decide

theorem unescape_escape (c : Char) (s : List Char) : unescape (escape c ++ s) = some (c, s) := by
  have hnat : ∀ n, c.toNat = n → Char.ofNat n = c := by
    rintro n rfl
    exact Char.ofNat_toNat c
  unfold escape
  split_ifs with h1 h2 h3 h4 h5 h6 h7 h8
  · rw [h1]
    rfl
  · rw [h2]
    rfl
  · rw [← hnat 8 h3]
    rfl
  · rw [← hnat 9 h4]
    rfl
  · rw [← hnat 10 h5]
    rfl
  · rw [← hnat 12 h6]
    rfl
  · rw [← hnat 13 h7]
    rfl
  · show some (Char.ofNat (16 * hexValue (hexDigit (c.toNat / 16)) +
      hexValue (hexDigit (c.toNat % 16))), s) = _
    rw [hexValue_hexDigit _ (by omega), hexValue_hexDigit _ (by omega), Nat.div_add_mod,
      Char.ofNat_toNat]
  · show unescape (c :: s) = _
    unfold unescape
    split <;> simp_all

theorem escape_ne_quote (c : Char) (s t : List Char) : escape c ++ s ≠ '"' :: t := by
  intro h
  have hread := unescape_escape c s
  rw [h] at hread
  obtain ⟨rfl, rfl⟩ := Prod.mk.inj (Option.some.inj hread)
  exact absurd (congrArg List.head? h) (by simp [escape])

theorem flatMap_escape_unique {l l' t : List Char}
    (h : l.flatMap escape ++ '"' :: s = l'.flatMap escape ++ '"' :: t) : l = l' ∧ s = t := by
  induction l generalizing l' with
  | nil =>
    cases l' with
    | nil => exact ⟨rfl, (List.cons.inj h).2⟩
    | cons c l' =>
      rw [List.flatMap_cons, List.append_assoc] at h
      exact absurd h.symm (escape_ne_quote c _ _)
  | cons c l ih =>
    cases l' with
    | nil =>
      rw [List.flatMap_cons, List.append_assoc] at h
      exact absurd h (escape_ne_quote c _ _)
    | cons d l' =>
      rw [List.flatMap_cons, List.flatMap_cons, List.append_assoc, List.append_assoc] at h
      have hread := congrArg unescape h
      rw [unescape_escape, unescape_escape] at hread
      obtain ⟨rfl, hrest⟩ := Prod.mk.inj (Option.some.inj hread)
      obtain ⟨rfl, rfl⟩ := ih hrest
      exact ⟨rfl, rfl⟩

theorem readBack_str : ReadBack str := by
  intro a b s t _ _ h
  unfold str at h
  rw [List.cons_append, List.cons_append, List.cons_append, List.cons_append] at h
  have htail := (List.cons.inj h).2
  rw [List.append_assoc, List.append_assoc] at htail
  obtain ⟨hlist, hrest⟩ := flatMap_escape_unique htail
  exact ⟨String.toList_inj.1 hlist, hrest⟩

theorem heads_str : Heads str (fun c => c = '"') := fun _ => ⟨_, _, rfl, rfl⟩

/-! ## Values put together -/

/-- `null`, or a value. -/
def option (f : α → List Char) : Option α → List Char
  | none => "null".toList
  | some a => f a

theorem ReadBack.option (hf : ReadBack f) (hp : Heads f p) (hn : p 'n' = false) :
    ReadBack (option f) := by
  have hnull : ∀ a (s t : List Char), f a ++ s ≠ "null".toList ++ t := by
    intro a s t h
    obtain ⟨c, l, hl, hc⟩ := hp a
    rw [hl] at h
    have hhead : c = 'n' := (List.cons.inj h).1
    rw [hhead, hn] at hc
    cases hc
  intro a b s t hs ht h
  cases a with
  | none =>
    cases b with
    | none => exact ⟨rfl, List.append_cancel_left h⟩
    | some b => exact absurd h.symm (hnull b t s)
  | some a =>
    cases b with
    | none => exact absurd h (hnull a s t)
    | some b =>
      obtain ⟨rfl, hrest⟩ := hf a b s t hs ht h
      exact ⟨rfl, hrest⟩

/-- Two values with a comma between them. -/
def pair (f : α → List Char) (g : β → List Char) (x : α × β) : List Char :=
  f x.1 ++ ',' :: g x.2

theorem ReadBack.pair {g : β → List Char} (hf : ReadBack f) (hg : ReadBack g) :
    ReadBack (pair f g) := by
  intro x y s t hs ht h
  unfold Json.pair at h
  rw [List.append_assoc, List.append_assoc] at h
  obtain ⟨hfst, hrest⟩ := hf _ _ _ _ (stops_cons (Or.inl rfl)) (stops_cons (Or.inl rfl)) h
  obtain ⟨hsnd, hst⟩ := hg _ _ _ _ hs ht (List.cons.inj hrest).2
  exact ⟨Prod.ext hfst hsnd, hst⟩

/-- A value behind a fixed text, the name of a field or an opening
bracket. -/
def label (text : String) (f : α → List Char) (a : α) : List Char := text.toList ++ f a

theorem ReadBack.label (hf : ReadBack f) (text : String) : ReadBack (label text f) := by
  intro a b s t hs ht h
  unfold Json.label at h
  rw [List.append_assoc, List.append_assoc] at h
  exact hf a b s t hs ht (List.append_cancel_left h)

/-- A value in front of a closing bracket. -/
def close (f : α → List Char) (bracket : Char) (a : α) : List Char := f a ++ [bracket]

theorem ReadBack.close (hf : ReadBack f) {bracket : Char} (hb : bracket = ']' ∨ bracket = '}') :
    ReadBack (close f bracket) := by
  intro a b s t _ _ h
  unfold Json.close at h
  rw [List.append_assoc, List.append_assoc] at h
  obtain ⟨hab, hrest⟩ := hf a b _ _ (stops_cons (Or.inr hb)) (stops_cons (Or.inr hb)) h
  exact ⟨hab, (List.cons.inj hrest).2⟩

/-- The elements of an array, up to its end. -/
def elements (f : α → List Char) : List α → List Char
  | [] => [']']
  | [a] => f a ++ [']']
  | a :: b :: l => f a ++ ',' :: elements f (b :: l)

/-- An array. -/
def list (f : α → List Char) (l : List α) : List Char := '[' :: elements f l

theorem elements_cons (f : α → List Char) (a : α) (l : List α) (s : List Char) :
    ∃ r, elements f (a :: l) ++ s = f a ++ r ∧ Stops r ∧
      ((l = [] ∧ r = ']' :: s) ∨ (l ≠ [] ∧ r = ',' :: (elements f l ++ s))) := by
  cases l with
  | nil =>
    refine ⟨']' :: s, ?_, stops_cons (Or.inr (Or.inl rfl)), Or.inl ⟨rfl, rfl⟩⟩
    rw [elements, List.append_assoc]
    rfl
  | cons b l =>
    refine ⟨',' :: (elements f (b :: l) ++ s), ?_, stops_cons (Or.inl rfl),
      Or.inr ⟨List.cons_ne_nil _ _, rfl⟩⟩
    rw [elements, List.append_assoc]
    rfl

theorem ReadBack.list (hf : ReadBack f) (hp : Heads f p) (hb : p ']' = false) :
    ReadBack (list f) := by
  have hend : ∀ a (r s : List Char), f a ++ r ≠ ']' :: s := by
    intro a r s h
    obtain ⟨c, l, hl, hc⟩ := hp a
    rw [hl] at h
    rw [(List.cons.inj h).1, hb] at hc
    cases hc
  have helements : ∀ (l l' : List α) (s t : List Char),
      elements f l ++ s = elements f l' ++ t → l = l' ∧ s = t := by
    intro l
    induction l with
    | nil =>
      intro l' s t h
      cases l' with
      | nil => exact ⟨rfl, (List.cons.inj h).2⟩
      | cons b l' =>
        obtain ⟨r, hr, -⟩ := elements_cons f b l' t
        exact absurd (h.trans hr).symm (hend b r _)
    | cons a l ih =>
      intro l' s t h
      obtain ⟨r, hr, hstop, htail⟩ := elements_cons f a l s
      cases l' with
      | nil => exact absurd (hr.symm.trans h) (hend a r _)
      | cons b l' =>
        obtain ⟨r', hr', hstop', htail'⟩ := elements_cons f b l' t
        obtain ⟨rfl, hrest⟩ := hf a b r r' hstop hstop' (hr.symm.trans (h.trans hr'))
        rcases htail with ⟨rfl, rfl⟩ | ⟨-, rfl⟩
        · rcases htail' with ⟨rfl, rfl⟩ | ⟨-, rfl⟩
          · exact ⟨rfl, (List.cons.inj hrest).2⟩
          · exact absurd (List.cons.inj hrest).1 (by decide)
        · rcases htail' with ⟨rfl, rfl⟩ | ⟨-, rfl⟩
          · exact absurd (List.cons.inj hrest).1 (by decide)
          · obtain ⟨rfl, rfl⟩ := ih _ _ _ (List.cons.inj hrest).2
            exact ⟨rfl, rfl⟩
  intro l l' s t _ _ h
  exact helements l l' s t (List.cons.inj h).2

example : list int [1, -20] = "[1,-20]".toList ∧ str "a\"\n" = "\"a\\\"\\n\"".toList := by
  decide +kernel

end Cine.Lib.Json
