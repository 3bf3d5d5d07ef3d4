import Cine.Lib.Json
import Cine.Lib.OrderedMap
import Cine.Lib.ScriptText
import Mathlib.Data.List.DropRight
import Mathlib.Data.List.Perm.Subperm

/-!
# The keys of the criteria of a rubric

`grading/criterion-key.ts`.  A criterion keeps the key that the teacher gives
it.  Any other criterion takes a slug of its description, and where the slug is
taken, the first of `slug_2`, `slug_3`, … that is not.

* Texts are UTF-16 code units, and Unicode is a parameter.
* `freeKey_eq`: the loop ends, as `n + 1` candidates are more than `n` keys.
* `assignFrom_spec`: what the pass over the criteria adds to the keys that are
  taken.
-/

namespace Cine.Grading

open Cine.Lib

/-! ## Slugs -/

/-- What Unicode says about texts. -/
structure UnicodeText where
  /-- `normalize('NFD')`. -/
  nfd : List Nat → List Nat
  /-- The property `M` of a code point. -/
  isMark : Nat → Bool
  toLowerCase : List Nat → List Nat

def MAX_DERIVED : Nat := 48

/-- `[a-z0-9]`. -/
def isSlugLetter (u : Nat) : Bool := (0x61 ≤ u ∧ u ≤ 0x7A) ∨ (0x30 ≤ u ∧ u ≤ 0x39)

def isUnderscore (u : Nat) : Bool := u = 0x5F

def CRITERION_KEY (key : List Nat) : Prop :=
  1 ≤ key.length ∧ key.length ≤ 64 ∧ ∀ u ∈ key, isSlugLetter u ∨ isUnderscore u

instance decidableCriterionKey (key : List Nat) : Decidable (CRITERION_KEY key) :=
  inferInstanceAs (Decidable (_ ∧ _ ∧ _))

/-- `/[^a-z0-9]+/g`, with `_` for each match. -/
def otherRun : Rule Nat
  | [] => none
  | u :: l =>
    if isSlugLetter u then none
    else some ([0x5F], (l.takeWhile fun v => !isSlugLetter v).length)

section Slug

variable (unicode : UnicodeText)

def withoutMarks (text : List Nat) : List Nat :=
  ((codePoints text).filter fun p => !unicode.isMark p).flatMap pointUnits

def slug (description : List Nat) : List Nat :=
  let base := (withoutMarks unicode (unicode.nfd description)).map fun u =>
    if u = 0x111 ∨ u = 0x110 then 0x64 else u
  let words := replaceAll otherRun (unicode.toLowerCase base)
  (((words.dropWhile isUnderscore).rdropWhile isUnderscore).take MAX_DERIVED).rdropWhile
    isUnderscore

theorem mem_replaceFrom_otherRun {u : Nat} (skip : Nat) (l : List Nat)
    (h : u ∈ replaceFrom otherRun skip l) : isSlugLetter u ∨ isUnderscore u := by
  induction l generalizing skip with
  | nil => cases skip <;> exact absurd h List.not_mem_nil
  | cons v l ih =>
    cases skip with
    | succ skip => exact ih skip h
    | zero =>
      by_cases hv : isSlugLetter v = true
      · have hrule : otherRun (v :: l) = none := if_pos hv
        rw [replaceFrom, hrule] at h
        rcases List.mem_cons.1 h with rfl | h
        · exact Or.inl hv
        · exact ih 0 h
      · have hrule : otherRun (v :: l) =
            some ([0x5F], (l.takeWhile fun w => !isSlugLetter w).length) := if_neg hv
        rw [replaceFrom, hrule] at h
        rcases List.mem_append.1 h with h | h
        · rw [List.mem_singleton.1 h]
          exact Or.inr rfl
        · exact ih _ h

theorem mem_slug {u : Nat} {description : List Nat} (h : u ∈ slug unicode description) :
    isSlugLetter u ∨ isUnderscore u := by
  unfold slug at h
  dsimp only at h
  have hcut := (List.rdropWhile_prefix _ _).subset h
  have htail := (List.rdropWhile_prefix _ _).subset (List.take_subset _ _ hcut)
  exact mem_replaceFrom_otherRun 0 _ ((List.dropWhile_sublist _).subset htail)

theorem length_slug_le (description : List Nat) :
    (slug unicode description).length ≤ MAX_DERIVED := by
  unfold slug
  exact (List.rdropWhile_prefix _ _).length_le.trans (List.length_take_le _ _)

end Slug

/-! ## Numbers in keys -/

/-- The decimal digits of a number. -/
def digits (n : Nat) : List Nat := (Nat.toDigits 10 n).map Char.toNat

theorem mem_digits {u n : Nat} (h : u ∈ digits n) : isSlugLetter u := by
  obtain ⟨c, hc, rfl⟩ := List.mem_map.1 h
  have hdigit := Nat.isDigit_of_mem_toDigits (by decide) (by decide) hc
  simp only [Char.isDigit, Bool.and_eq_true, decide_eq_true_eq] at hdigit
  unfold isSlugLetter
  refine decide_eq_true (Or.inr ?_)
  exact ⟨hdigit.1, hdigit.2⟩

theorem digits_injective : Function.Injective digits := by
  intro m n h
  refine Json.toDigits_inj (List.map_injective_iff.2 ?_ h)
  intro c d hcd
  exact Char.toNat_inj.1 hcd

theorem length_digits_pos (n : Nat) : 1 ≤ (digits n).length := by
  unfold digits
  rw [List.length_map]
  exact Nat.length_toDigits_pos

theorem length_digits_le {n : Nat} (h : n < 2 ^ 33) : (digits n).length ≤ 10 := by
  unfold digits
  rw [List.length_map, Nat.length_toDigits_le_iff (by decide) (by decide)]
  omega

/-! ## A key that is free -/

def suffixed (base : List Nat) (n : Nat) : List Nat := base ++ 0x5F :: digits n

/-- `for (let n = 2; taken.has(key); n++)`, for at most `fuel` readings of
`taken`. -/
def freeKey (taken : List (List Nat)) (base : List Nat) : Nat → Nat → List Nat → Option (List Nat)
  | 0, _, _ => none
  | fuel + 1, n, key =>
    if key ∈ taken then freeKey taken base fuel (n + 1) (suffixed base n) else some key

/-- The keys that the loop looks at. -/
def candidate (base : List Nat) : Nat → List Nat
  | 0 => base
  | i + 1 => suffixed base (i + 2)

theorem candidate_injective (base : List Nat) : Function.Injective (candidate base) := by
  have hlonger : ∀ n, base ≠ suffixed base n := by
    intro n h
    have hlength := congrArg List.length h
    rw [suffixed, List.length_append, List.length_cons] at hlength
    omega
  intro i j h
  cases i with
  | zero =>
    cases j with
    | zero => rfl
    | succ j => exact absurd h (hlonger _)
  | succ i =>
    cases j with
    | zero => exact absurd h.symm (hlonger _)
    | succ j =>
      have hdigits := (List.cons.inj (List.append_cancel_left h)).2
      have := digits_injective hdigits
      omega

theorem exists_candidate (taken : List (List Nat)) (base : List Nat) :
    ∃ i ≤ taken.length, candidate base i ∉ taken := by
  by_contra hnone
  have hall : ∀ i ≤ taken.length, candidate base i ∈ taken := by
    intro i hi
    by_contra hfree
    exact hnone ⟨i, hi, hfree⟩
  let candidates := (List.range (taken.length + 1)).map (candidate base)
  have hnodup : candidates.Nodup := List.nodup_range.map (candidate_injective base)
  have hsubset : candidates ⊆ taken := by
    intro key hkey
    obtain ⟨i, hi, rfl⟩ := List.mem_map.1 hkey
    exact hall i (Nat.lt_succ_iff.1 (List.mem_range.1 hi))
  have hlength := (hnodup.subperm hsubset).length_le
  rw [List.length_map, List.length_range] at hlength
  omega

theorem freeKey_eq {taken : List (List Nat)} {base : List Nat} {i j fuel : Nat}
    (hij : i ≤ j) (hfree : candidate base j ∉ taken)
    (hbefore : ∀ k, i ≤ k → k < j → candidate base k ∈ taken) (hfuel : j < i + fuel) :
    freeKey taken base fuel (i + 2) (candidate base i) = some (candidate base j) := by
  induction fuel generalizing i with
  | zero => omega
  | succ fuel ih =>
    rw [freeKey]
    by_cases hi : i = j
    · subst hi
      exact if_neg hfree
    · rw [if_pos (hbefore i (Nat.le_refl i) (by omega))]
      refine ih (i := i + 1) ?_ ?_ ?_
      · omega
      · intro k hk
        exact hbefore k (by omega)
      · omega

theorem exists_freeKey (taken : List (List Nat)) (base : List Nat) :
    ∃ i ≤ taken.length, candidate base i ∉ taken ∧
      ∀ fuel > taken.length, freeKey taken base fuel 2 base = some (candidate base i) := by
  have hexists := exists_candidate taken base
  have hfree : ∃ i, candidate base i ∉ taken := by
    obtain ⟨i, -, hi⟩ := hexists
    exact ⟨i, hi⟩
  obtain ⟨i, hi, hnot⟩ := hexists
  have hle : Nat.find hfree ≤ taken.length := (Nat.find_min' hfree hnot).trans hi
  refine ⟨Nat.find hfree, hle, Nat.find_spec hfree, fun fuel hfuel => ?_⟩
  refine freeKey_eq (Nat.zero_le _) (Nat.find_spec hfree) (fun k _ hk => ?_) (by omega)
  exact not_not.1 (Nat.find_min hfree hk)

/-! ## The keys of a rubric -/

structure Criterion where
  description : List Nat
  key : Option (List Nat)

/-- The key of a criterion, unless it is empty. -/
def Criterion.explicit (c : Criterion) : Option (List Nat) := c.key.filter fun key => key ≠ []

structure DuplicateCriterionKeyError where
  key : List Nat

/-- The loop over the explicit keys. -/
def takeExplicit : List (List Nat) → List (List Nat) →
    Except DuplicateCriterionKeyError (List (List Nat))
  | taken, [] => .ok taken
  | taken, key :: keys =>
    if key ∈ taken then .error ⟨key⟩ else takeExplicit (insertLast taken key) keys

section Keys

variable (unicode : UnicodeText)

def Criterion.base (c : Criterion) (index : Nat) : List Nat :=
  if slug unicode c.description ≠ [] then slug unicode c.description
  else utf16 "tieu_chi_" ++ digits (index + 1)

/-- The pass over the criteria, from an index on. -/
def assignFrom (fuel : Nat) : Nat → List (List Nat) → List Criterion → Option (List (List Nat))
  | _, _, [] => some []
  | index, taken, c :: rest =>
    match c.explicit with
    | some key => (assignFrom fuel (index + 1) taken rest).map (key :: ·)
    | none =>
      let base := c.base unicode index
      (freeKey taken base fuel 2 base).bind fun key =>
        (assignFrom fuel (index + 1) (insertLast taken key) rest).map (key :: ·)

/-- `assignCriterionKeys`, where no inner loop takes more than `fuel` rounds. -/
def assignCriterionKeys (fuel : Nat) (criteria : List Criterion) :
    Option (Except DuplicateCriterionKeyError (List (List Nat))) :=
  match takeExplicit [] (criteria.filterMap Criterion.explicit) with
  | .error e => some (.error e)
  | .ok taken => (assignFrom unicode fuel 0 taken criteria).map .ok

end Keys

theorem takeExplicit_eq {taken keys : List (List Nat)} (h : (taken ++ keys).Nodup) :
    takeExplicit taken keys = .ok (taken ++ keys) := by
  induction keys generalizing taken with
  | nil =>
    rw [List.append_nil]
    rfl
  | cons key keys ih =>
    have hfresh : key ∉ taken := fun hkey =>
      (List.nodup_append.1 h).2.2 key hkey key List.mem_cons_self rfl
    have hassoc : taken ++ key :: keys = (taken ++ [key]) ++ keys := List.append_cons taken key keys
    rw [takeExplicit, if_neg hfresh, insertLast, if_neg hfresh, hassoc]
    exact ih (hassoc ▸ h)

section Assigned

variable {unicode : UnicodeText}

theorem length_base_le {c : Criterion} {index : Nat} (h : index < 2 ^ 32) :
    (c.base unicode index).length ≤ MAX_DERIVED := by
  unfold Criterion.base
  split_ifs
  · exact length_slug_le unicode c.description
  · have hprefix : (utf16 "tieu_chi_").length = 9 := by decide
    have hdigits := length_digits_le (n := index + 1) (by omega)
    rw [List.length_append, hprefix]
    unfold MAX_DERIVED
    omega

theorem length_base_pos (c : Criterion) (index : Nat) : 1 ≤ (c.base unicode index).length := by
  unfold Criterion.base
  split_ifs with hslug
  · exact List.length_pos_iff_ne_nil.2 hslug
  · rw [List.length_append]
    exact Nat.le_add_left_of_le (length_digits_pos _)

theorem mem_base {c : Criterion} {index u : Nat} (h : u ∈ c.base unicode index) :
    isSlugLetter u ∨ isUnderscore u := by
  have hprefix : ∀ v ∈ utf16 "tieu_chi_", isSlugLetter v ∨ isUnderscore v := by decide
  unfold Criterion.base at h
  split_ifs at h
  · exact mem_slug unicode h
  · rcases List.mem_append.1 h with h | h
    · exact hprefix u h
    · exact Or.inl (mem_digits h)

theorem valid_candidate {base : List Nat} {i : Nat} (hpos : 1 ≤ base.length)
    (hlength : base.length ≤ MAX_DERIVED)
    (hunits : ∀ u ∈ base, isSlugLetter u ∨ isUnderscore u) (hi : i < 2 ^ 32) :
    CRITERION_KEY (candidate base i) := by
  unfold MAX_DERIVED at hlength
  cases i with
  | zero => exact ⟨hpos, by rw [candidate]; omega, hunits⟩
  | succ i =>
    have hdigits := length_digits_le (n := i + 2) (by omega)
    refine ⟨?_, ?_, ?_⟩
    · rw [candidate, suffixed, List.length_append]
      omega
    · rw [candidate, suffixed, List.length_append, List.length_cons]
      omega
    · intro u hu
      rcases List.mem_append.1 hu with hu | hu
      · exact hunits u hu
      · rcases List.mem_cons.1 hu with rfl | hu
        · exact Or.inr rfl
        · exact Or.inl (mem_digits hu)

/-- A criterion gets the key of its own, if it has one. -/
def KeepsOwnKey (c : Criterion) (key : List Nat) : Prop := ∀ k, c.explicit = some k → key = k

/-- How many criteria have no key of their own. -/
def derivedCount (criteria : List Criterion) : Nat := criteria.countP fun c => c.explicit.isNone

theorem length_insertLast_le (taken : List (List Nat)) (key : List Nat) :
    (insertLast taken key).length ≤ taken.length + 1 := by
  unfold insertLast
  split_ifs
  · exact Nat.le_succ _
  · rw [List.length_append, List.length_singleton]

theorem assignFrom_spec (unicode : UnicodeText) {total : Nat} (index : Nat)
    (taken : List (List Nat)) {rest : List Criterion} (htotal : total < 2 ^ 32)
    (hindex : index + rest.length ≤ total) (hroom : taken.length + derivedCount rest ≤ total)
    (hvalid : ∀ key ∈ rest.filterMap Criterion.explicit, CRITERION_KEY key)
    (hnodup : (rest.filterMap Criterion.explicit).Nodup)
    (htaken : rest.filterMap Criterion.explicit ⊆ taken) :
    ∃ keys, (∀ fuel ≥ total, assignFrom unicode fuel index taken rest = some keys) ∧
      List.Forall₂ KeepsOwnKey rest keys ∧ keys.Nodup ∧ (∀ key ∈ keys, CRITERION_KEY key) ∧
      ∀ key ∈ keys, key ∈ taken → key ∈ rest.filterMap Criterion.explicit := by
  induction rest generalizing index taken with
  | nil =>
    exact ⟨[], fun _ _ => rfl, .nil, List.nodup_nil, fun _ h => absurd h List.not_mem_nil,
      fun _ h => absurd h List.not_mem_nil⟩
  | cons c rest ih =>
    rw [List.length_cons] at hindex
    unfold derivedCount at hroom ih
    rw [List.countP_cons] at hroom
    cases hc : c.explicit with
    | some k =>
      rw [List.filterMap_cons_some hc] at hvalid hnodup htaken ⊢
      obtain ⟨hk, hnodup⟩ := List.nodup_cons.1 hnodup
      obtain ⟨hkTaken, htaken⟩ := List.cons_subset.1 htaken
      obtain ⟨keys, hrun, hkeeps, hdistinct, hkeys, hown⟩ :=
        ih (index + 1) taken (by omega) (by omega)
          (fun key hkey => hvalid key (List.mem_cons_of_mem k hkey)) hnodup htaken
      refine ⟨k :: keys, fun fuel hfuel => ?_, .cons ?_ hkeeps, ?_, ?_, ?_⟩
      · rw [assignFrom, hc]
        dsimp only
        rw [hrun fuel hfuel]
        rfl
      · intro k' hk'
        exact Option.some.inj (hc.symm.trans hk')
      · exact List.nodup_cons.2 ⟨fun hmem => hk (hown k hmem hkTaken), hdistinct⟩
      · exact List.forall_mem_cons.2 ⟨hvalid k List.mem_cons_self, hkeys⟩
      · intro key hkey hmem
        rcases List.mem_cons.1 hkey with rfl | hkey
        · exact List.mem_cons_self
        · exact List.mem_cons_of_mem k (hown key hkey hmem)
    | none =>
      rw [List.filterMap_cons_none hc] at hvalid hnodup htaken ⊢
      rw [hc] at hroom
      simp only [Option.isNone_none, if_true] at hroom
      obtain ⟨i, hi, hfree, hloop⟩ := exists_freeKey taken (c.base unicode index)
      set key := candidate (c.base unicode index) i with hkey
      have hlength := length_insertLast_le taken key
      obtain ⟨keys, hrun, hkeeps, hdistinct, hkeys, hown⟩ :=
        ih (index + 1) (insertLast taken key) (by omega) (by omega)
          hvalid hnodup (fun k hk => mem_insertLast.2 (Or.inl (htaken hk)))
      have hlater : key ∉ keys := fun hmem =>
        hfree (htaken (hown key hmem (mem_insertLast.2 (Or.inr rfl))))
      refine ⟨key :: keys, fun fuel hfuel => ?_, .cons ?_ hkeeps, ?_, ?_, ?_⟩
      · rw [assignFrom, hc]
        dsimp only
        rw [hloop fuel (by omega), Option.bind_some, hrun fuel hfuel]
        rfl
      · intro k' hk'
        rw [hc] at hk'
        cases hk'
      · exact List.nodup_cons.2 ⟨hlater, hdistinct⟩
      · refine List.forall_mem_cons.2 ⟨?_, hkeys⟩
        exact valid_candidate (length_base_pos c index) (length_base_le (by omega))
          (fun u hu => mem_base hu) (by omega)
      · intro k hk hmem
        rcases List.mem_cons.1 hk with rfl | hk
        · exact absurd hmem hfree
        · exact hown k hk (mem_insertLast.2 (Or.inl hmem))

end Assigned

/-- An array has fewer than `2 ^ 32` elements.  If the keys of the criteria's own
are valid and distinct, there are keys for all criteria, in their order, and every
run that may take as many rounds as there are criteria returns them.  They keep
the criteria's own keys, they are distinct and they are valid. -/
theorem assignCriterionKeys_valid (unicode : UnicodeText) (criteria : List Criterion)
    (harray : criteria.length < 2 ^ 32)
    (hvalid : ∀ key ∈ criteria.filterMap Criterion.explicit, CRITERION_KEY key)
    (hdistinct : (criteria.filterMap Criterion.explicit).Nodup) :
    ∃ keys,
      (∀ fuel ≥ criteria.length, assignCriterionKeys unicode fuel criteria = some (.ok keys)) ∧
        List.Forall₂ KeepsOwnKey criteria keys ∧ keys.Nodup ∧ ∀ key ∈ keys, CRITERION_KEY key := by
  have htaken : takeExplicit [] (criteria.filterMap Criterion.explicit) =
      .ok (criteria.filterMap Criterion.explicit) := takeExplicit_eq hdistinct
  have hroom : (criteria.filterMap Criterion.explicit).length + derivedCount criteria ≤
      criteria.length := by
    unfold derivedCount
    rw [List.length_filterMap_eq_countP]
    have hsplit : criteria.length = criteria.countP (fun c => c.explicit.isSome) +
        criteria.countP fun c => c.explicit.isNone := by
      rw [List.length_eq_countP_add_countP fun c : Criterion => c.explicit.isSome]
      refine congrArg (_ + ·) (List.countP_congr fun c _ => ?_)
      cases c.explicit <;> simp
    omega
  obtain ⟨keys, hrun, hkeeps, hnodup, hkeys, -⟩ := assignFrom_spec unicode 0
    (criteria.filterMap Criterion.explicit) harray (by omega) hroom hvalid hdistinct
    (List.Subset.refl _)
  refine ⟨keys, fun fuel hfuel => ?_, hkeeps, hnodup, hkeys⟩
  unfold assignCriterionKeys
  rw [htaken]
  dsimp only
  rw [hrun fuel hfuel]
  rfl

/-- The letters of Latin without marks, where only `A`-`Z` have another case. -/
def plainUnicode : UnicodeText where
  nfd := id
  isMark p := 0x300 ≤ p ∧ p ≤ 0x36F
  toLowerCase := List.map fun u => if 0x41 ≤ u ∧ u ≤ 0x5A then u + 0x20 else u

/-- Two criteria with one description, and one whose own key is the second
candidate. -/
def collidingCriteria : List Criterion :=
  [⟨utf16 "Code", none⟩, ⟨utf16 "Code!", none⟩, ⟨utf16 "x", some (utf16 "code_2")⟩,
    ⟨utf16 "—", none⟩]

theorem assignCriterionKeys_colliding : ∃ keys,
    (∀ fuel ≥ collidingCriteria.length,
        assignCriterionKeys plainUnicode fuel collidingCriteria = some (.ok keys)) ∧
      List.Forall₂ KeepsOwnKey collidingCriteria keys ∧ keys.Nodup ∧
        ∀ key ∈ keys, CRITERION_KEY key :=
  assignCriterionKeys_valid plainUnicode collidingCriteria (by decide) (by decide) (by decide)

example : assignCriterionKeys plainUnicode 4 collidingCriteria =
    some (.ok [utf16 "code", utf16 "code_3", utf16 "code_2", utf16 "tieu_chi_4"]) := by
  rfl

end Cine.Grading
