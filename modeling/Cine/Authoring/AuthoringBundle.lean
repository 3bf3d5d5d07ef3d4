import Cine.Lib.FreshName
import Cine.Lib.Json
import Cine.Lib.Squeeze
import Cine.Lib.Utf16
import Mathlib.Data.Nat.Digits.Defs

/-!
# The test cases of an authored exam

`exam-authoring/authoring-bundle.ts`: the cases of all questions as those of one
bundle, with a key each that the table accepts.

* `isCaseKey` is the check of the column, `numbered` a key with a suffix.
* `numbered_injective` and `isCaseKey_numbered`: what the loop over the suffixes
  rests on.
* `flattenAuthoringCases_fits`: the keys of a bundle.

The normal form and the lower case are parameters, and so is the number of
rounds that the loop over the suffixes gets.
-/

namespace Cine.Authoring

open Cine.Lib

/-! ## Keys -/

def isKeyChar (c : Char) : Bool :=
  ('a' ≤ c ∧ c ≤ 'z') ∨ ('A' ≤ c ∧ c ≤ 'Z') ∨ ('0' ≤ c ∧ c ≤ '9') ∨ c = '_' ∨ c = '-'

/-- `CASE_KEY_REGEX`. -/
def isCaseKey (key : List Char) : Bool :=
  decide (1 ≤ key.length ∧ key.length ≤ 64) && key.all isKeyChar

/-- `text.slice(0, stop)` of a text in the basic plane. -/
def sliceTo (text : List Char) (stop : Int) : List Char :=
  if stop < 0 then text.take (text.length - stop.natAbs) else text.take stop.toNat

def suffix (n : Nat) : List Char :=
  '-' :: Nat.toDigits 10 n

/-- `base` cut to what the suffix leaves of 64 characters, and the suffix. -/
def numbered (base : List Char) (n : Nat) : List Char :=
  sliceTo base (64 - (suffix n).length) ++ suffix n

theorem append_dash_inj {x y a b : List Char} (ha : '-' ∉ a) (hb : '-' ∉ b)
    (h : x ++ '-' :: a = y ++ '-' :: b) : a = b := by
  cases List.append_eq_append_iff.1 h with
  | inl hleft =>
    obtain ⟨between, _, hrest⟩ := hleft
    cases between with
    | nil => exact (List.cons.inj hrest).2
    | cons c between => exact absurd (by rw [(List.cons.inj hrest).2]; simp) ha
  | inr hright =>
    obtain ⟨between, _, hrest⟩ := hright
    cases between with
    | nil => exact (List.cons.inj hrest).2.symm
    | cons c between => exact absurd (by rw [(List.cons.inj hrest).2]; simp) hb

theorem numbered_injective (base : List Char) : Function.Injective (numbered base) := by
  intro m n h
  unfold numbered suffix at h
  apply Json.toDigits_inj
  exact append_dash_inj Json.minus_not_mem_toDigits Json.minus_not_mem_toDigits h

variable {c : Char} {n : Nat}

theorem isKeyChar_of_isDigit (h : c.isDigit = true) : isKeyChar c = true := by
  have hdigit : '0' ≤ c ∧ c ≤ '9' := by
    have h' : (decide ('0' ≤ c) && decide (c ≤ '9')) = true := h
    simpa using h'
  unfold isKeyChar
  exact decide_eq_true (Or.inr (Or.inr (Or.inl hdigit)))

theorem isKeyChar_of_mem_toDigits (h : c ∈ Nat.toDigits 10 n) : isKeyChar c = true :=
  isKeyChar_of_isDigit (Nat.isDigit_of_mem_toDigits (by decide) (by decide) h)

theorem length_toDigits (h : n < 10 ^ 20) : (Nat.toDigits 10 n).length ≤ 20 := by
  have hlength := Nat.repr_length n 20 (by decide) h
  rwa [Nat.repr, String.length_ofList] at hlength

theorem length_sliceTo_le (text : List Char) {stop : Int} (h : 0 ≤ stop) :
    (sliceTo text stop).length ≤ stop.toNat := by
  rw [sliceTo, if_neg (by omega)]
  exact List.length_take_le _ _

theorem mem_of_mem_sliceTo {text : List Char} {stop : Int} (h : c ∈ sliceTo text stop) :
    c ∈ text := by
  unfold sliceTo at h
  split_ifs at h <;> exact List.mem_of_mem_take h

theorem isKeyChar_of_mem_numbered {base : List Char} (hbase : ∀ c ∈ base, isKeyChar c = true) :
    ∀ c ∈ numbered base n, isKeyChar c = true := by
  intro c hc
  cases List.mem_append.1 hc with
  | inl hmem => exact hbase c (mem_of_mem_sliceTo hmem)
  | inr hmem =>
    cases List.mem_cons.1 hmem with
    | inl hdash => rw [hdash]; decide
    | inr hdigit => exact isKeyChar_of_mem_toDigits hdigit

theorem isCaseKey_numbered {base : List Char} (hbase : ∀ c ∈ base, isKeyChar c = true)
    (hn : n < 10 ^ 20) : isCaseKey (numbered base n) = true := by
  have hdigits := length_toDigits hn
  have hsuffix : (suffix n).length = (Nat.toDigits 10 n).length + 1 := List.length_cons
  have hstop : (0 : Int) ≤ 64 - (suffix n).length := by omega
  have hslice := length_sliceTo_le base hstop
  unfold isCaseKey
  rw [Bool.and_eq_true, decide_eq_true_iff, List.all_eq_true]
  constructor
  · rw [numbered, List.length_append]
    omega
  · exact isKeyChar_of_mem_numbered hbase

/-! ## Slugs -/

/-- `normalize('NFD')` and `toLowerCase` of the script's library. -/
structure CaseFolding where
  nfd : List Char → List Char
  toLowerCase : List Char → List Char

/-- `replace(/[\u0300-\u036f]/g, '')`. -/
def dropMarks (text : List Char) : List Char :=
  text.filter fun c => !('\u0300' ≤ c && c ≤ '\u036f')

/-- `replace(/đ/g, 'd')`. -/
def foldD (text : List Char) : List Char :=
  text.map fun c => if c = 'đ' then 'd' else c

def isSlugChar (c : Char) : Bool :=
  ('a' ≤ c ∧ c ≤ 'z') ∨ ('0' ≤ c ∧ c ≤ '9') ∨ c = '_' ∨ c = '-'

/-- Runs of other characters as a dash, runs of dashes as one, and none at the ends. -/
def dashed (text : List Char) : List Char :=
  let text := Squeeze.collapse (fun c => !isSlugChar c) '-' false text
  let text := Squeeze.collapse (· = '-') '-' false text
  Squeeze.trimEnds (· = '-') text

def slugify (lib : CaseFolding) (value : List Char) : List Char :=
  dashed (foldD (lib.toLowerCase (dropMarks (lib.nfd value))))

theorem isSlugChar_dash : isSlugChar '-' = true := by decide

theorem isSlugChar_of_mem_dashed {text : List Char} (h : c ∈ dashed text) :
    isSlugChar c = true := by
  cases Squeeze.mem_collapse (Squeeze.mem_of_mem_trimEnds h) with
  | inl hgap => rw [hgap]; exact isSlugChar_dash
  | inr hmem =>
    cases Squeeze.mem_collapse hmem.1 with
    | inl hgap => rw [hgap]; exact isSlugChar_dash
    | inr hslug => simpa using hslug.2

theorem isKeyChar_of_isSlugChar (h : isSlugChar c = true) : isKeyChar c = true := by
  have h' := of_decide_eq_true h
  apply decide_eq_true
  obtain hlower | hdigit | hrest := h'
  · exact Or.inl hlower
  · exact Or.inr (Or.inr (Or.inl hdigit))
  · exact Or.inr (Or.inr (Or.inr hrest))

/-! ## The bundle -/

abbrev Arr (α : Type) := {l : List α // l.length < 2 ^ 32}

structure TestCase where
  name : String
  group : String
  input : String
  expectedOutput : String
deriving DecidableEq, Repr

structure AuthoringCase where
  caseKey : String
  group : String
  input : String
  expectedOutput : String
  questionIndex : Nat
deriving DecidableEq, Repr

def numberText (n : Nat) : List Char :=
  Nat.toDigits 10 n

def caseKeyFor (lib : CaseFolding) (questionNumber caseIndex : Nat) (name : String) : List Char :=
  let pre := 'q' :: numberText questionNumber ++ ['-']
  let fallback := pre ++ 'c' :: numberText caseIndex
  let slug := slugify lib name.toList
  let candidate := if slug ≠ [] then sliceTo (pre ++ slug) 64 else fallback
  let trimmed := Squeeze.trimEnds (· = '-') candidate
  let fixed := if trimmed ≠ [] then trimmed else fallback
  if isCaseKey fixed then fixed else fallback

def groupFor (group : String) : String :=
  let trimmed := trim group
  if trimmed = "" ∨ 100 < (utf16 trimmed).length then "general" else trimmed

/-- The case `testCase` at `caseIndex` of the question at `questionIndex`. -/
structure CasePlace where
  questionIndex : Nat
  caseIndex : Nat
  testCase : TestCase
deriving DecidableEq, Repr

/-- The cases in the order of the two loops over the `testBundle` of each question. -/
def casePlaces (questions : List (List TestCase)) : List CasePlace :=
  questions.zipIdx.flatMap fun (bundle, questionIndex) =>
    bundle.zipIdx.map fun (testCase, caseIndex) => ⟨questionIndex, caseIndex, testCase⟩

def CasePlace.base (lib : CaseFolding) (place : CasePlace) : List Char :=
  caseKeyFor lib (place.questionIndex + 1) place.caseIndex place.testCase.name

def CasePlace.authoringCase (place : CasePlace) (key : List Char) : AuthoringCase where
  caseKey := String.ofList key
  group := groupFor place.testCase.group
  input := place.testCase.input
  expectedOutput := place.testCase.expectedOutput
  questionIndex := place.questionIndex

@[simp] theorem authoringCase_group (place : CasePlace) (key : List Char) :
    (place.authoringCase key).group = groupFor place.testCase.group := by
  unfold CasePlace.authoringCase
  rfl

/-- `flattenAuthoringCases`; the loop over the suffixes gets `rounds` rounds for each key. -/
def flattenAuthoringCases (lib : CaseFolding) (rounds : Nat) (questions : List (List TestCase)) :
    Option (List AuthoringCase) :=
  (FreshName.assign (CasePlace.base lib) (fun place => numbered (place.base lib)) rounds []
    (casePlaces questions)).map fun named => named.map fun p => p.1.authoringCase p.2

/-! ## Its keys and groups -/

theorem isCaseKey_of {key : List Char} (hlength : 1 ≤ key.length ∧ key.length ≤ 64)
    (hchars : ∀ c ∈ key, isKeyChar c = true) : isCaseKey key = true := by
  unfold isCaseKey
  rw [Bool.and_eq_true, decide_eq_true_iff, List.all_eq_true]
  exact ⟨hlength, hchars⟩

theorem isKeyChar_of_isCaseKey {key : List Char} (h : isCaseKey key = true) :
    ∀ c ∈ key, isKeyChar c = true := by
  unfold isCaseKey at h
  rw [Bool.and_eq_true, List.all_eq_true] at h
  exact h.2

theorem isCaseKey_caseKeyFor (lib : CaseFolding) {questionNumber caseIndex : Nat} (name : String)
    (hquestion : questionNumber < 10 ^ 20) (hcase : caseIndex < 10 ^ 20) :
    isCaseKey (caseKeyFor lib questionNumber caseIndex name) = true := by
  have hfallback : isCaseKey ('q' :: numberText questionNumber ++ ['-'] ++
      'c' :: numberText caseIndex) = true := by
    have hq := length_toDigits hquestion
    have hc := length_toDigits hcase
    apply isCaseKey_of
    · simp only [numberText, List.length_append, List.length_cons, List.length_nil]
      omega
    · intro c hmem
      simp only [numberText, List.mem_append, List.mem_cons, List.not_mem_nil, or_false] at hmem
      obtain ((rfl | hmem) | rfl) | rfl | hmem := hmem
      · decide
      · exact isKeyChar_of_mem_toDigits hmem
      · decide
      · decide
      · exact isKeyChar_of_mem_toDigits hmem
  unfold caseKeyFor
  dsimp only
  split_ifs with h <;> assumption

theorem groupFor_length (group : String) :
    1 ≤ (groupFor group).length ∧ (groupFor group).length ≤ 100 := by
  unfold groupFor
  dsimp only
  split_ifs with h
  · decide
  · rw [not_or, Nat.not_lt] at h
    have hle := length_toList_le_utf16 (trim group)
    rw [String.length_toList] at hle
    refine ⟨?_, hle.trans h.2⟩
    rw [Nat.one_le_iff_ne_zero, ne_eq, String.length_eq_zero_iff]
    exact h.1

theorem mem_casePlaces {questions : List (List TestCase)} {place : CasePlace}
    (h : place ∈ casePlaces questions) : ∃ bundle ∈ questions,
      place.questionIndex < questions.length ∧ place.caseIndex < bundle.length := by
  obtain ⟨⟨bundle, questionIndex⟩, hbundle, hplace⟩ := List.mem_flatMap.1 h
  obtain ⟨⟨testCase, caseIndex⟩, hcase, rfl⟩ := List.mem_map.1 hplace
  have hquestion := List.mem_zipIdx' hbundle
  have hindex := List.mem_zipIdx' hcase
  exact ⟨bundle, hquestion.2 ▸ List.getElem_mem _, hquestion.1, hindex.1⟩

theorem length_casePlaces_le {questions : List (List TestCase)}
    (h : ∀ bundle ∈ questions, bundle.length ≤ n) :
    (casePlaces questions).length ≤ questions.length * n := by
  have hle : ∀ k, ((questions.zipIdx k).flatMap fun (bundle, questionIndex) =>
      bundle.zipIdx.map fun (testCase, caseIndex) =>
        (⟨questionIndex, caseIndex, testCase⟩ : CasePlace)).length ≤ questions.length * n := by
    induction questions with
    | nil => exact fun _ => Nat.zero_le _
    | cons bundle questions ih =>
      intro k
      have hbundle := h bundle List.mem_cons_self
      have hrest := ih (fun b hb => h b (List.mem_cons_of_mem _ hb)) (k + 1)
      rw [List.zipIdx_cons, List.flatMap_cons, List.length_append, List.length_map,
        List.length_zipIdx, List.length_cons, Nat.succ_mul]
      omega
  exact hle 0

structure BundleFits (questions : List (List TestCase)) (cases : List AuthoringCase) : Prop where
  keys_nodup : (cases.map (·.caseKey)).Nodup
  keys : ∀ c ∈ cases, isCaseKey c.caseKey.toList = true
  groups : ∀ c ∈ cases, 1 ≤ c.group.length ∧ c.group.length ≤ 100
  placed : List.Forall₂ (fun place c => c.group = groupFor place.testCase.group ∧
    c.input = place.testCase.input ∧ c.expectedOutput = place.testCase.expectedOutput ∧
    c.questionIndex = place.questionIndex) (casePlaces questions) cases

theorem flattenAuthoringCases_fits (lib : CaseFolding) (questions : Arr (Arr TestCase)) :
    ∃ cases, BundleFits (questions.1.map Subtype.val) cases ∧
      ∀ rounds, (casePlaces (questions.1.map Subtype.val)).length + 1 ≤ rounds →
        flattenAuthoringCases lib rounds (questions.1.map Subtype.val) = some cases := by
  let places := casePlaces (questions.1.map Subtype.val)
  have hlength : places.length < 2 ^ 64 := by
    have hle : ∀ bundle ∈ questions.1.map Subtype.val, bundle.length ≤ 2 ^ 32 - 1 := by
      intro bundle hbundle
      obtain ⟨arr, _, rfl⟩ := List.mem_map.1 hbundle
      have := arr.2
      omega
    have hbound := length_casePlaces_le hle
    rw [List.length_map] at hbound
    have hquestions := questions.2
    calc places.length ≤ questions.1.length * (2 ^ 32 - 1) := hbound
      _ ≤ 2 ^ 32 * (2 ^ 32 - 1) := Nat.mul_le_mul_right _ hquestions.le
      _ < 2 ^ 64 := by decide
  have hinj : ∀ place : CasePlace, Function.Injective (numbered (place.base lib)) :=
    fun place => numbered_injective _
  have hrounds : ([] : List (List Char)).length + places.length + 1 ≤ places.length + 1 := by simp
  obtain ⟨named, hassign⟩ :=
    @FreshName.exists_assign _ _ _ _ (CasePlace.base lib) _ _ hinj places hrounds
  have hnamed := FreshName.assign_spec (hassign _ (Nat.le_refl _))
  have hkey : ∀ p ∈ named, isCaseKey p.2 = true := by
    intro p hp
    have hplace : p.1 ∈ places := hnamed.items_eq ▸ List.mem_map_of_mem hp
    obtain ⟨bundle, hbundle, hquestion, hcase⟩ := mem_casePlaces hplace
    obtain ⟨arr, _, rfl⟩ := List.mem_map.1 hbundle
    rw [List.length_map] at hquestion
    have hq := questions.2
    have harr := arr.2
    have hbase : isCaseKey (p.1.base lib) = true :=
      isCaseKey_caseKeyFor lib _ (by omega) (by omega)
    cases hnamed.shape p hp with
    | inl hwanted => exact hwanted ▸ hbase
    | inr hnumbered =>
      obtain ⟨m, hm, heq⟩ := hnumbered
      rw [heq]
      exact isCaseKey_numbered (isKeyChar_of_isCaseKey hbase) (by omega)
  refine ⟨named.map fun p => p.1.authoringCase p.2, ⟨?_, ?_, ?_, ?_⟩, ?_⟩
  · have hmap : (named.map fun p => p.1.authoringCase p.2).map (·.caseKey) =
        (named.map Prod.snd).map String.ofList := by
      rw [List.map_map, List.map_map]
      rfl
    rw [hmap]
    exact hnamed.nodup.map fun _ _ => String.ofList_injective
  · intro c hc
    obtain ⟨p, hp, rfl⟩ := List.mem_map.1 hc
    show isCaseKey (String.ofList p.2).toList = true
    rw [String.toList_ofList]
    exact hkey p hp
  · intro c hc
    obtain ⟨p, _, rfl⟩ := List.mem_map.1 hc
    rw [authoringCase_group]
    exact groupFor_length p.1.testCase.group
  · show List.Forall₂ _ places _
    rw [← hnamed.items_eq, List.forall₂_map_left_iff, List.forall₂_map_right_iff]
    exact List.forall₂_same.2 fun p _ => ⟨authoringCase_group p.1 p.2, rfl, rfl, rfl⟩
  · intro rounds hle
    rw [flattenAuthoringCases, hassign rounds hle]
    rfl

end Cine.Authoring
