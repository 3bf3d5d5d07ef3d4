import Cine.Authoring.AuthoringBundle
import Cine.Authoring.Ruler.Quotes

/-!
# The proposed cases before they are run

`normalizeGroup`, `uniqueKey` and `prefilterCases` of
`exam-authoring/ruler/ruler-core.ts`.

* `dropReason` is the chain of checks of a proposal.
* `foldl_prefilterStep`: each proposal is kept or dropped, in their order.
* `caseKeys_fit`: what the table asks of the keys and the groups, here and in
  the bundle of an authored exam.
-/

namespace Cine.Authoring.Ruler

open Cine.Lib

structure CaseProposal where
  name : String
  group : String
  input : String
  quote : String
  answerIsUnique : Bool
deriving DecidableEq, Repr

structure KeptCase where
  key : String
  group : String
  input : String
  quote : String
deriving DecidableEq, Repr

structure DroppedCase where
  name : String
  key : String
  group : String
  input : String
  reason : String
deriving DecidableEq, Repr

/-! ## Groups and keys -/

def asciiFold (lib : CaseFolding) (text : List Char) : List Char :=
  foldD (dropMarks (lib.nfd (lib.toLowerCase text)))

def isGroupChar (c : Char) : Bool :=
  ('a' ≤ c ∧ c ≤ 'z') ∨ ('0' ≤ c ∧ c ≤ '9')

/-- `normalizeGroup`, with `MAX_GROUP_CHARS` and `DEFAULT_GROUP`. -/
def normalizeGroup (lib : CaseFolding) (raw : String) : String :=
  let underscored :=
    Squeeze.collapse (fun c => !isGroupChar c) '_' false (asciiFold lib raw.toList)
  let slug := (Squeeze.trimEnds (· = '_') underscored).take 100
  if slug = [] then "co_ban" else String.ofList slug

/-- The key of the proposal at `index` as long as it is free. -/
def wantedKey (lib : CaseFolding) (c : CaseProposal × Nat) : List Char :=
  let base := (dashed (asciiFold lib c.1.name.toList)).take 64
  if base = [] then "ca-".toList ++ numberText (c.2 + 1) else base

/-! ## The filter -/

/-- `replace(/\u0000/g, '\\0')`. -/
def escapeNul (input : String) : String :=
  String.ofList (input.toList.flatMap fun c => if c = '\x00' then ['\\', '0'] else [c])

/-- `INLINE_MAX_CHARS`. -/
def inlineMaxChars : Nat := 4 * (1024 * 1024)

/-- Why a proposal is dropped when `kept` cases are kept already. -/
def dropReason (nfc : List Nat → List Nat) (statement : String) (limit : Int) (kept : Nat)
    (c : CaseProposal) : Option String :=
  if !quoteAppearsInStatement nfc c.quote statement then
    some "không trích được câu nào trong đề"
  else if '\x00' ∈ c.input.toList then
    some "input chứa ký tự NUL (cơ sở dữ liệu không lưu được)"
  else if !c.answerIsUnique then
    some "đáp án không duy nhất và gói chưa có bộ so sánh phù hợp"
  else if inlineMaxChars < (utf16 c.input).length then some "input vượt 4 MiB"
  else if limit ≤ kept then some s!"vượt trần {limit} ca của một job"
  else none

structure Prefiltered where
  kept : List KeptCase
  dropped : List DroppedCase
deriving DecidableEq, Repr

/-- The body of the loop, for a proposal with its key. -/
def prefilterStep (lib : CaseFolding) (nfc : List Nat → List Nat) (statement : String)
    (limit : Int) (s : Prefiltered) (p : (CaseProposal × Nat) × List Char) : Prefiltered :=
  let c := p.1.1
  let key := String.ofList p.2
  let group := normalizeGroup lib c.group
  match dropReason nfc statement limit s.kept.length c with
  | some reason =>
    { s with dropped := s.dropped ++ [⟨c.name, key, group, escapeNul c.input, reason⟩] }
  | none => { s with kept := s.kept ++ [⟨key, group, c.input, c.quote⟩] }

/-- `prefilterCases`; the loop over the suffixes gets `rounds` rounds for each key. -/
def prefilterCases (lib : CaseFolding) (nfc : List Nat → List Nat) (rounds : Nat)
    (proposed : List CaseProposal) (statement : String) (limit : Int) : Option Prefiltered :=
  (FreshName.assign (wantedKey lib) (fun c => numbered (wantedKey lib c)) rounds []
    proposed.zipIdx).map fun named =>
      named.foldl (prefilterStep lib nfc statement limit) ⟨[], []⟩

/-! ## Keys and groups that fit -/

theorem normalizeGroup_length (lib : CaseFolding) (raw : String) :
    1 ≤ (normalizeGroup lib raw).length ∧ (normalizeGroup lib raw).length ≤ 100 := by
  unfold normalizeGroup
  dsimp only
  split_ifs with h
  · decide
  · rw [String.length_ofList]
    refine ⟨?_, List.length_take_le _ _⟩
    exact List.length_pos_iff.2 h

theorem isKeyChar_of_mem_wantedKey (lib : CaseFolding) (c : CaseProposal × Nat) :
    ∀ x ∈ wantedKey lib c, isKeyChar x = true := by
  unfold wantedKey
  dsimp only
  intro x hx
  split_ifs at hx with hbase
  · cases List.mem_append.1 hx with
    | inl hmem =>
      have hchars : "ca-".toList = ['c', 'a', '-'] := rfl
      rw [hchars] at hmem
      simp only [List.mem_cons, List.not_mem_nil, or_false] at hmem
      obtain rfl | rfl | rfl := hmem <;> decide
    | inr hdigit => exact isKeyChar_of_mem_toDigits hdigit
  · exact isKeyChar_of_isSlugChar (isSlugChar_of_mem_dashed (List.mem_of_mem_take hx))

theorem isCaseKey_wantedKey (lib : CaseFolding) {c : CaseProposal × Nat} (h : c.2 < 2 ^ 32) :
    isCaseKey (wantedKey lib c) = true := by
  refine isCaseKey_of ?_ (isKeyChar_of_mem_wantedKey lib c)
  unfold wantedKey
  dsimp only
  split_ifs with hbase
  · have hdigits := length_toDigits (n := c.2 + 1) (by omega)
    simp only [numberText, List.length_append, String.length_toList]
    have hca : "ca-".length = 3 := rfl
    omega
  · exact ⟨List.length_pos_iff.2 hbase, List.length_take_le _ _⟩

/-! ## Each proposal is kept or dropped -/

/-- What became of a proposal. -/
inductive Outcome
  | kept (c : KeptCase)
  | dropped (c : DroppedCase)
deriving DecidableEq, Repr

namespace Outcome

def key : Outcome → String
  | kept c => c.key
  | dropped c => c.key

def group : Outcome → String
  | kept c => c.group
  | dropped c => c.group

def kept? : Outcome → Option KeptCase
  | kept c => some c
  | dropped _ => none

def dropped? : Outcome → Option DroppedCase
  | kept _ => none
  | dropped c => some c

@[simp] theorem kept?_kept (c : KeptCase) : (kept c).kept? = some c := rfl

@[simp] theorem kept?_dropped (c : DroppedCase) : (dropped c).kept? = none := rfl

@[simp] theorem dropped?_kept (c : KeptCase) : (kept c).dropped? = none := rfl

@[simp] theorem dropped?_dropped (c : DroppedCase) : (dropped c).dropped? = some c := rfl

/-- The outcome is that of the proposal `c`. -/
def Of (lib : CaseFolding) (c : CaseProposal) : Outcome → Prop
  | kept k => k.group = normalizeGroup lib c.group ∧ k.input = c.input ∧ k.quote = c.quote
  | dropped d => d.name = c.name ∧ d.group = normalizeGroup lib c.group ∧
      d.input = escapeNul c.input ∧ d.reason ≠ ""

end Outcome

theorem dropReason_ne_empty {nfc : List Nat → List Nat} {statement : String} {limit : Int}
    {kept : Nat} {c : CaseProposal} {reason : String}
    (h : dropReason nfc statement limit kept c = some reason) : reason ≠ "" := by
  unfold dropReason at h
  split_ifs at h <;> cases Option.some.inj h
  · decide
  · decide
  · decide
  · decide
  · intro hempty
    have hlast := (String.append_eq_empty_iff.1 hempty).2
    revert hlast
    decide

variable (lib : CaseFolding) (nfc : List Nat → List Nat) (statement : String) (limit : Int)

theorem prefilterStep_outcome (s : Prefiltered) (p : (CaseProposal × Nat) × List Char) :
    ∃ o : Outcome, o.Of lib p.1.1 ∧ o.key = String.ofList p.2 ∧
      (o.kept?.isSome = true → s.kept.length < limit) ∧
      prefilterStep lib nfc statement limit s p =
        ⟨s.kept ++ o.kept?.toList, s.dropped ++ o.dropped?.toList⟩ := by
  unfold prefilterStep
  dsimp only
  cases hreason : dropReason nfc statement limit s.kept.length p.1.1 with
  | some reason =>
    refine ⟨.dropped ⟨p.1.1.name, String.ofList p.2, normalizeGroup lib p.1.1.group,
      escapeNul p.1.1.input, reason⟩, ?_, rfl, ?_, ?_⟩
    · exact ⟨rfl, rfl, rfl, dropReason_ne_empty hreason⟩
    · exact fun h => absurd h Bool.false_ne_true
    · simp
  | none =>
    refine ⟨.kept ⟨String.ofList p.2, normalizeGroup lib p.1.1.group, p.1.1.input,
      p.1.1.quote⟩, ⟨rfl, rfl, rfl⟩, rfl, ?_, ?_⟩
    · intro _
      unfold dropReason at hreason
      split_ifs at hreason with _ _ _ _ hlimit
      omega
    · simp

theorem foldl_prefilterStep (named : List ((CaseProposal × Nat) × List Char)) (s : Prefiltered) :
    ∃ outcomes : List Outcome,
      List.Forall₂ (fun p o => o.Of lib p.1.1 ∧ o.key = String.ofList p.2) named outcomes ∧
      named.foldl (prefilterStep lib nfc statement limit) s =
        ⟨s.kept ++ outcomes.filterMap Outcome.kept?,
          s.dropped ++ outcomes.filterMap Outcome.dropped?⟩ := by
  induction named generalizing s with
  | nil => exact ⟨[], List.Forall₂.nil, by simp⟩
  | cons p named ih =>
    obtain ⟨o, hof, hkey, -, hstep⟩ :=
      prefilterStep_outcome lib nfc statement limit s p
    obtain ⟨outcomes, hplaced, hfold⟩ := ih (prefilterStep lib nfc statement limit s p)
    refine ⟨o :: outcomes, List.Forall₂.cons ⟨hof, hkey⟩ hplaced, ?_⟩
    rw [List.foldl_cons, hfold, hstep]
    cases o with
    | kept c =>
      rw [List.filterMap_cons_some (Outcome.kept?_kept c),
        List.filterMap_cons_none (Outcome.dropped?_kept c)]
      simp
    | dropped c =>
      rw [List.filterMap_cons_none (Outcome.kept?_dropped c),
        List.filterMap_cons_some (Outcome.dropped?_dropped c)]
      simp

/-- No more than the limit is kept. -/
def Prefiltered.Within (limit : Int) (s : Prefiltered) : Prop :=
  s.kept = [] ∨ s.kept.length ≤ limit

theorem within_foldl {limit : Int} (named : List ((CaseProposal × Nat) × List Char))
    {s : Prefiltered} (h : s.Within limit) :
    (named.foldl (prefilterStep lib nfc statement limit) s).Within limit := by
  induction named generalizing s with
  | nil => exact h
  | cons p named ih =>
    apply ih
    obtain ⟨o, -, -, hroom, hstep⟩ :=
      prefilterStep_outcome lib nfc statement limit s p
    rw [hstep]
    cases o with
    | kept c =>
      right
      have := hroom rfl
      simp only [Outcome.kept?_kept, Option.toList_some, List.length_append,
        List.length_singleton]
      omega
    | dropped c => simpa [Prefiltered.Within] using h

/-! ## What the table asks -/

/-- What is left of the proposals: each is kept or dropped, in their order, under a key and in a
group that the table accepts. -/
structure PrefilterFits (lib : CaseFolding) (proposed : List CaseProposal) (limit : Int)
    (s : Prefiltered) (outcomes : List Outcome) : Prop where
  kept : s.kept = outcomes.filterMap Outcome.kept?
  dropped : s.dropped = outcomes.filterMap Outcome.dropped?
  placed : List.Forall₂ (fun c o => o.Of lib c) proposed outcomes
  keys_nodup : (outcomes.map Outcome.key).Nodup
  keys : ∀ o ∈ outcomes, isCaseKey o.key.toList = true
  groups : ∀ o ∈ outcomes, 1 ≤ o.group.length ∧ o.group.length ≤ 100
  within : s.Within limit

theorem Outcome.Of.group_eq {c : CaseProposal} {o : Outcome} (h : o.Of lib c) :
    o.group = normalizeGroup lib c.group := by
  cases o with
  | kept k => exact h.1
  | dropped d => exact h.2.1

theorem exists_of_mem_forall₂ {α β : Type} {R : α → β → Prop} {l : List α} {l' : List β}
    (h : List.Forall₂ R l l') {b : β} (hb : b ∈ l') : ∃ a, R a b := by
  induction h with
  | nil => cases hb
  | @cons a b' l l' hab _ ih =>
    cases List.mem_cons.1 hb with
    | inl heq => exact ⟨a, heq ▸ hab⟩
    | inr hmem => exact ih hmem

theorem exists_outcomes {lib : CaseFolding} {rounds : Nat} {proposed : List CaseProposal}
    {named : List ((CaseProposal × Nat) × List Char)}
    (hassign : FreshName.assign (wantedKey lib) (fun c => numbered (wantedKey lib c)) rounds []
      proposed.zipIdx = some named) (nfc : List Nat → List Nat) (statement : String) (limit : Int) :
    ∃ outcomes : List Outcome,
      named.foldl (prefilterStep lib nfc statement limit) ⟨[], []⟩ =
        ⟨outcomes.filterMap Outcome.kept?, outcomes.filterMap Outcome.dropped?⟩ ∧
      List.Forall₂ (fun c o => Outcome.Of lib c o) proposed outcomes ∧
      outcomes.map Outcome.key = (named.map Prod.snd).map String.ofList := by
  have hnamed := FreshName.assign_spec hassign
  obtain ⟨outcomes, hplaced, hfold⟩ :=
    foldl_prefilterStep lib nfc statement limit named ⟨[], []⟩
  refine ⟨outcomes, hfold, ?_, ?_⟩
  · have hitems : proposed = named.map (Prod.fst ∘ Prod.fst) := by
      rw [← List.map_map, hnamed.items_eq, List.zipIdx_map_fst]
    rw [hitems, List.forall₂_map_left_iff]
    exact hplaced.imp fun p o ho => ho.1
  · rw [List.map_map]
    have heq : List.Forall₂ (· = ·) (named.map (String.ofList ∘ Prod.snd))
        (outcomes.map Outcome.key) := by
      rw [List.forall₂_map_left_iff, List.forall₂_map_right_iff]
      exact hplaced.imp fun p o ho => ho.2.symm
    exact (List.forall₂_eq_eq_eq ▸ heq).symm

theorem exists_named (lib : CaseFolding) (proposed : List CaseProposal) :
    ∃ named, ∀ rounds, proposed.length + 1 ≤ rounds →
      FreshName.assign (wantedKey lib) (fun c => numbered (wantedKey lib c)) rounds []
        proposed.zipIdx = some named := by
  have hinj : ∀ c : CaseProposal × Nat, Function.Injective (numbered (wantedKey lib c)) :=
    fun c => numbered_injective _
  have hrounds : ([] : List (List Char)).length + proposed.zipIdx.length + 1 ≤
      proposed.length + 1 := by simp
  exact @FreshName.exists_assign _ _ _ _ (wantedKey lib) _ _ hinj proposed.zipIdx hrounds

theorem prefilterCases_fits (lib : CaseFolding) (nfc : List Nat → List Nat)
    (proposed : Arr CaseProposal) (statement : String) (limit : Int) :
    ∃ s outcomes, PrefilterFits lib proposed.1 limit s outcomes ∧
      ∀ rounds, proposed.1.length + 1 ≤ rounds →
        prefilterCases lib nfc rounds proposed.1 statement limit = some s := by
  obtain ⟨named, hassign⟩ := exists_named lib proposed.1
  have hnamed := FreshName.assign_spec (hassign _ (Nat.le_refl _))
  have hlength := proposed.2
  have hkey : ∀ p ∈ named, isCaseKey p.2 = true := by
    intro p hp
    have hmem : p.1 ∈ proposed.1.zipIdx := hnamed.items_eq ▸ List.mem_map_of_mem hp
    have hindex : p.1.2 < proposed.1.length := (List.mem_zipIdx' hmem).1
    have hwanted := @isCaseKey_wantedKey lib p.1 (by omega)
    cases hnamed.shape p hp with
    | inl heq => exact heq ▸ hwanted
    | inr hnumbered =>
      obtain ⟨m, hm, heq⟩ := hnumbered
      rw [heq]
      exact isCaseKey_numbered (isKeyChar_of_isCaseKey hwanted) (by omega)
  obtain ⟨outcomes, hfold, hof, hkeys⟩ :=
    exists_outcomes (hassign _ (Nat.le_refl _)) nfc statement limit
  let s := named.foldl (prefilterStep lib nfc statement limit) ⟨[], []⟩
  refine ⟨s, outcomes, ?_, fun rounds hle => ?_⟩
  · refine ⟨congrArg Prefiltered.kept hfold, congrArg Prefiltered.dropped hfold, hof, ?_, ?_, ?_,
      within_foldl lib nfc statement named (Or.inl rfl)⟩
    · rw [hkeys]
      exact hnamed.nodup.map fun _ _ => String.ofList_injective
    · intro o ho
      have hmem : o.key ∈ (named.map Prod.snd).map String.ofList :=
        hkeys ▸ List.mem_map_of_mem ho
      obtain ⟨key, hnamedKey, heq⟩ := List.mem_map.1 hmem
      obtain ⟨p, hp, rfl⟩ := List.mem_map.1 hnamedKey
      rw [← heq, String.toList_ofList]
      exact hkey p hp
    · intro o ho
      obtain ⟨c, hc⟩ := exists_of_mem_forall₂ hof ho
      rw [hc.group_eq]
      exact normalizeGroup_length lib c.group
  · rw [prefilterCases, hassign rounds hle]
    rfl

/-- The keys and groups of the cases, proposed or authored, are those that the table asks for. -/
theorem caseKeys_fit (lib : CaseFolding) (nfc : List Nat → List Nat) :
    (∀ (proposed : Arr CaseProposal) (statement : String) (limit : Int),
      ∃ s outcomes, PrefilterFits lib proposed.1 limit s outcomes ∧
        ∀ rounds, proposed.1.length + 1 ≤ rounds →
          prefilterCases lib nfc rounds proposed.1 statement limit = some s) ∧
      ∀ questions : Arr (Arr TestCase),
        ∃ cases, BundleFits (questions.1.map Subtype.val) cases ∧
          ∀ rounds, (casePlaces (questions.1.map Subtype.val)).length + 1 ≤ rounds →
            flattenAuthoringCases lib rounds (questions.1.map Subtype.val) = some cases :=
  ⟨prefilterCases_fits lib nfc, flattenAuthoringCases_fits lib⟩

/-- Two names of one slug. -/
example : (prefilterCases ⟨id, id⟩ id 3 [⟨"a", "", "1", "", true⟩, ⟨"A a", "G", "2", "", true⟩] ""
    5).map (fun s => s.dropped.map (·.key)) = some ["a", "a-2"] := by
  decide

theorem caseKeys_fit_once :
    ∃ s outcomes, PrefilterFits ⟨id, id⟩ [⟨"a", "", "1", "", true⟩, ⟨"A a", "G", "2", "", true⟩] 5 s
        outcomes ∧
      prefilterCases ⟨id, id⟩ id 3 [⟨"a", "", "1", "", true⟩, ⟨"A a", "G", "2", "", true⟩] "" 5 =
        some s := by
  obtain ⟨s, outcomes, hfits, h⟩ := (caseKeys_fit ⟨id, id⟩ id).1
    ⟨[⟨"a", "", "1", "", true⟩, ⟨"A a", "G", "2", "", true⟩], by decide⟩ "" 5
  exact ⟨s, outcomes, hfits, h 3 (by decide)⟩

end Cine.Authoring.Ruler
