import Cine.Grading.OneShot.LocateEvidence
import Cine.Lib.NodePath

/-!
# The grader without a model

`grading/ai-provider/keyword-grading.provider.ts`: the words of a criterion are
looked for in the normal form of a submission, and the evidence is cut out of
the submission itself at the place of the first word in the normal form.

* `infix_normalize_iff`: a word is found in the normal form exactly where the
  units of the text spell it, unit by unit.
* `infix_normalize_of_part` and `infix_normalize_trim`: a part of the text, and
  the text without the space at its ends.
* `excerptAround_iff`: the excerpt holds a word exactly when the place where the
  text spells it is not too far from its place in the normal form.
* `quotes_iff` is the result; `shiftedSubmission_unquoted` is a submission where
  the two places are too far apart.

Texts are lists of code units.  The tables of Unicode are a parameter,
`CanonicalTables`, with the facts of them that are used.  A capital sigma has
two lower cases; neither is left in a normal form, and the tables have one.
-/

namespace Cine.Grading.Keyword

open Cine.Lib

/-! ## The normal form -/

/-- `[a-z0-9]`. -/
def isLetter (c : Nat) : Bool := (0x61 ≤ c ∧ c ≤ 0x7A) ∨ (0x30 ≤ c ∧ c ≤ 0x39)

def isSeparator (c : Nat) : Bool := !isLetter c

/-- `/[̀-ͯ]/`. -/
def isDiacritic (c : Nat) : Bool := 0x300 ≤ c ∧ c ≤ 0x36F

/-- `replace(/đ/gi, 'd')`. -/
def plainD (c : Nat) : Nat := if c = 0x110 ∨ c = 0x111 then 0x64 else c

/-- What the normal form keeps of a decomposed code point, before separators are replaced. -/
def fold (lowerCase : Nat → List Nat) (c : Nat) : List Nat :=
  if isDiacritic c then [] else lowerCase (plainD c)

/-- The tables behind `normalize('NFD')` and `toLowerCase`. -/
structure CanonicalTables where
  /-- The full canonical decomposition of a code point. -/
  decomposition : Nat → List Nat
  combiningClass : Nat → Nat
  lowerCase : Nat → List Nat
  /-- A mark that is put in order is no letter. -/
  marks : ∀ c, combiningClass c ≠ 0 → ∀ d ∈ fold lowerCase c, isSeparator d = true
  /-- What does not fit in one unit, and half of it, leaves a separator. -/
  wide : ∀ c, (isSurrogate c = true ∨ 0x10000 ≤ c) →
    (decomposition c).flatMap (fold lowerCase) ≠ [] ∧
      ∀ d ∈ (decomposition c).flatMap (fold lowerCase), isSeparator d = true
  /-- White space has no letter in it. -/
  blank : ∀ u, isSpaceUnit u = true →
    ∀ d ∈ (decomposition u).flatMap (fold lowerCase), isSeparator d = true

namespace CanonicalTables

variable (tables : CanonicalTables)

/-- A mark goes in front of the marks of a lower class. -/
def place (c : Nat) : List Nat → List Nat
  | [] => [c]
  | d :: l =>
    if 0 < tables.combiningClass d ∧ tables.combiningClass d < tables.combiningClass c then
      d :: place c l
    else c :: d :: l

def canonicalOrder (l : List Nat) : List Nat := l.foldr tables.place []

/-- `normalize('NFD')` of code points. -/
def nfd (points : List Nat) : List Nat :=
  tables.canonicalOrder (points.flatMap tables.decomposition)

def normalize (text : List Nat) : List Nat :=
  let lower := ((((tables.nfd (codePoints text)).filter fun c => !isDiacritic c).map plainD).flatMap
    tables.lowerCase)
  Squeeze.collapse isSeparator 0x20 false lower

end CanonicalTables

/-! ## The grader -/

def stopwords : List String :=
  ["the", "and", "for", "with", "that", "this", "from", "has", "have", "are", "was", "were", "not",
    "but", "all", "any", "can", "must", "should", "when", "which", "their", "there", "they", "you",
    "your", "its", "va", "cua", "cho", "voi", "mot", "cac", "nhung", "duoc", "phai", "khi", "trong",
    "theo", "tren", "nhu", "hoac", "neu", "thi", "la", "co", "khong"]

def radius : Nat := 60

structure GradingRequest where
  content : ScriptText
  criteria : List GradingRubricCriterion

structure KeywordResult where
  criterionId : String
  verdict : CriterionVerdict
  points : ℚ
  evidence : List Nat

structure GradingOutcome where
  modelUsed : String
  criterionResults : List KeywordResult
  totalScore : ℚ
  confidenceCeiling : ℚ

section Grader

variable (tables : CanonicalTables)

def keywordsOf (description : String) : List (List Nat) :=
  (((tables.normalize (utf16 description)).splitOn 0x20).filter fun word =>
    4 ≤ word.length && !(stopwords.map utf16).contains word).eraseDups

/-- The part of a text between two places, as `slice` gives it. -/
def slice (text : List Nat) (start stop : Nat) : List Nat := (text.take stop).drop start

def excerptAround (original keyword : List Nat) : List Nat :=
  match indexOf (tables.normalize original) keyword 0 with
  | none => []
  | some i =>
    let start := i - radius
    let stop := min original.length (i + keyword.length + radius)
    Squeeze.trimEnds isSpaceUnit (slice original start stop)

def foundIn (content : List Nat) (keywords : List (List Nat)) : List (List Nat) :=
  keywords.filter fun word => (indexOf (tables.normalize content) word 0).isSome

def gradeCriterion (content : List Nat) (criterion : GradingRubricCriterion) : KeywordResult :=
  let keywords := keywordsOf tables criterion.description
  let unreadable := Squeeze.trimEnds isSpaceUnit (tables.normalize content) = []
  if unreadable ∨ keywords = [] then ⟨criterion.id, .notMet, 0, []⟩
  else
    let found := foundIn tables content keywords
    let verdict : CriterionVerdict :=
      if 3 * keywords.length ≤ 4 * found.length then .met
      else if 0 < found.length then .partiallyMet
      else .notMet
    { criterionId := criterion.id
      verdict := verdict
      points := pointsFor verdict criterion.maxPoints
      evidence := match found with
        | [] => []
        | word :: _ => excerptAround tables content word }

/-- `grade`.  It uses neither tokens nor the question nor a model answer. -/
def grade (request : GradingRequest) : GradingOutcome :=
  let content := request.content.units
  let criterionResults := request.criteria.map (gradeCriterion tables content)
  { modelUsed := "keyword-match@1"
    criterionResults
    totalScore := mathRound ((criterionResults.map KeywordResult.points).foldl (· + ·) 0 * 100) / 100
    confidenceCeiling :=
      if Squeeze.trimEnds isSpaceUnit (tables.normalize content) = [] then 0 else 0.2 }

end Grader

/-! ## The letters of a normal form -/

section Spelling

variable (tables : CanonicalTables)

/-- What a unit leaves of itself, before separators are replaced. -/
def spellUnit (u : Nat) : List Nat :=
  if isSurrogate u then [0x20] else (tables.decomposition u).flatMap (fold tables.lowerCase)

variable {tables} {word : List Nat} (hne : word ≠ []) (hword : ∀ c ∈ word, isSeparator c = false)

include hne hword

theorem infix_place_iff (c : Nat) (l before : List Nat) :
    word <:+: before ++ (tables.place c l).flatMap (fold tables.lowerCase) ↔
      word <:+: before ++ (fold tables.lowerCase c ++ l.flatMap (fold tables.lowerCase)) := by
  induction l generalizing before with
  | nil =>
    unfold CanonicalTables.place
    rw [List.flatMap_cons]
  | cons d l ih =>
    unfold CanonicalTables.place
    split_ifs with hclass
    · obtain ⟨hd, hc⟩ := hclass
      have hmarks : ∀ e ∈ fold tables.lowerCase d ++ fold tables.lowerCase c,
          isSeparator e = true := by
        intro e he
        rcases List.mem_append.1 he with he | he
        · exact tables.marks d (by omega) e he
        · exact tables.marks c (by omega) e he
      have hswap : ∀ e ∈ fold tables.lowerCase c ++ fold tables.lowerCase d,
          isSeparator e = true := fun e he => by
        rw [List.mem_append, or_comm, ← List.mem_append] at he
        exact hmarks e he
      rw [List.flatMap_cons, ← List.append_assoc, ih, List.flatMap_cons, List.append_assoc,
        ← List.append_assoc (fold tables.lowerCase d),
        Squeeze.infix_spaces hne hword hmarks hswap (by simp [and_comm]), List.append_assoc]
    · rw [List.flatMap_cons]

theorem infix_canonicalOrder_iff (l before : List Nat) :
    word <:+: before ++ (tables.canonicalOrder l).flatMap (fold tables.lowerCase) ↔
      word <:+: before ++ l.flatMap (fold tables.lowerCase) := by
  induction l generalizing before with
  | nil => rfl
  | cons c l ih =>
    show word <:+: before ++ (tables.place c (tables.canonicalOrder l)).flatMap _ ↔ _
    rw [infix_place_iff hne hword, ← List.append_assoc, ih, List.flatMap_cons, List.append_assoc]

/-- Half a surrogate pair stands for the pair. -/
theorem infix_codePoints_iff (text before : List Nat) :
    word <:+: before ++ (codePoints text).flatMap
        (fun c => (tables.decomposition c).flatMap (fold tables.lowerCase)) ↔
      word <:+: before ++ text.flatMap (spellUnit tables) := by
  have hsingle : ∀ (u : Nat) (behind before : List Nat),
      word <:+: before ++ ((tables.decomposition u).flatMap (fold tables.lowerCase) ++ behind) ↔
        word <:+: before ++ (spellUnit tables u ++ behind) := by
    intro u behind before
    unfold spellUnit
    by_cases hu : isSurrogate u = true
    · obtain ⟨hsome, hseparators⟩ := tables.wide u (Or.inl hu)
      rw [if_pos hu]
      exact Squeeze.infix_spaces hne hword hseparators (by decide)
        (iff_of_false hsome (List.cons_ne_nil _ _)) before behind
    · rw [if_neg hu]
  induction text using codePoints.induct generalizing before with
  | case1 => rfl
  | case2 u =>
    rw [codePoints, List.flatMap_cons, List.flatMap_cons]
    exact hsingle u [] before
  | case3 hi lo l hpair ih =>
    have hhalf : ∀ {u}, isHigh u = true ∨ isLow u = true → spellUnit tables u = [0x20] := by
      intro u hu
      refine if_pos (decide_eq_true ?_)
      rcases hu with hu | hu
      · obtain ⟨hlow, hhigh⟩ := of_decide_eq_true hu
        omega
      · obtain ⟨hlow, hhigh⟩ := of_decide_eq_true hu
        omega
    obtain ⟨hsome, hseparators⟩ :=
      tables.wide (0x10000 + (hi - 0xD800) * 0x400 + (lo - 0xDC00)) (Or.inr (by omega))
    rw [codePoints, if_pos hpair, List.flatMap_cons, List.flatMap_cons, List.flatMap_cons,
      hhalf (Or.inl hpair.1), hhalf (Or.inr hpair.2)]
    have hspaces : ∀ d ∈ [0x20, 0x20], isSeparator d = true := by decide
    refine (Squeeze.infix_spaces hne hword hseparators hspaces
      (iff_of_false hsome (List.cons_ne_nil _ _)) before _).trans ?_
    have hrest := ih (before ++ [0x20, 0x20])
    rwa [List.append_assoc, List.append_assoc] at hrest
  | case4 hi lo l hpair ih =>
    have hrest := ih (before ++ spellUnit tables hi)
    rw [List.append_assoc, List.append_assoc] at hrest
    rw [codePoints, if_neg hpair, List.flatMap_cons, hsingle, List.flatMap_cons]
    exact hrest

theorem infix_normalize_iff (text : List Nat) :
    word <:+: tables.normalize text ↔ word <:+: text.flatMap (spellUnit tables) := by
  have hfold : ∀ l : List Nat, (((l.filter fun c => !isDiacritic c).map plainD).flatMap
      tables.lowerCase) = l.flatMap (fold tables.lowerCase) := by
    intro l
    induction l with
    | nil => rfl
    | cons c l ih =>
      rw [List.flatMap_cons, ← ih]
      unfold fold
      by_cases hc : isDiacritic c = true
      · simp [hc]
      · simp [hc]
  unfold CanonicalTables.normalize CanonicalTables.nfd
  dsimp only
  have hcode := @infix_codePoints_iff tables word hne hword text []
  have horder := @infix_canonicalOrder_iff tables word hne hword
    ((codePoints text).flatMap tables.decomposition) []
  rw [List.nil_append, List.nil_append] at hcode horder
  rw [Squeeze.infix_collapse rfl hne hword, hfold, horder, List.flatMap_assoc, hcode]

theorem infix_normalize_of_part {part text : List Nat} (hpart : part <:+: text)
    (h : word <:+: tables.normalize part) : word <:+: tables.normalize text := by
  obtain ⟨before, behind, rfl⟩ := hpart
  rw [infix_normalize_iff hne hword] at h ⊢
  rw [List.flatMap_append, List.flatMap_append]
  exact h.trans (List.infix_append _ _ _)

theorem infix_normalize_trim (text : List Nat) :
    word <:+: tables.normalize (Squeeze.trimEnds isSpaceUnit text) ↔
      word <:+: tables.normalize text := by
  have hblank : ∀ l : List Nat, (∀ u ∈ l, isSpaceUnit u = true) →
      ∀ d ∈ l.flatMap (spellUnit tables), isSeparator d = true := by
    intro l hl d hd
    obtain ⟨u, hu, hd⟩ := List.mem_flatMap.1 hd
    unfold spellUnit at hd
    split_ifs at hd with hhalf
    · rw [List.mem_singleton.1 hd]
      rfl
    · exact tables.blank u (hl u hu) d hd
  have hfront : text = text.takeWhile isSpaceUnit ++ text.dropWhile isSpaceUnit :=
    (List.takeWhile_append_dropWhile).symm
  have hback : text.dropWhile isSpaceUnit = Squeeze.trimEnds isSpaceUnit text ++
      (text.dropWhile isSpaceUnit).rtakeWhile isSpaceUnit :=
    (List.rdropWhile_append_rtakeWhile ..).symm
  rw [infix_normalize_iff hne hword, infix_normalize_iff hne hword]
  conv_rhs => rw [hfront, hback]
  rw [List.flatMap_append, List.flatMap_append,
    Squeeze.infix_spaces_append hne hword (hblank _ fun u hu => List.mem_takeWhile_imp hu),
    Squeeze.infix_append_spaces hne hword (hblank _ fun u hu => List.mem_rtakeWhile_imp hu)]

end Spelling

/-! ## The keywords -/

section Keywords

variable (tables : CanonicalTables)

theorem mem_normalize {text : List Nat} {c : Nat} (h : c ∈ tables.normalize text) :
    c = 0x20 ∨ isSeparator c = false := by
  unfold CanonicalTables.normalize at h
  cases Squeeze.mem_collapse h with
  | inl hgap => exact Or.inl hgap
  | inr hletter => exact Or.inr hletter.2

theorem keyword_letters {description : String} {word : List Nat}
    (h : word ∈ keywordsOf tables description) :
    word ≠ [] ∧ ∀ c ∈ word, isSeparator c = false := by
  unfold keywordsOf at h
  rw [List.mem_eraseDups, List.mem_filter, Bool.and_eq_true, decide_eq_true_eq] at h
  obtain ⟨hword, hlong, -⟩ := h
  have hne : word ≠ [] := by
    rintro rfl
    cases hlong
  refine ⟨hne, fun c hc => ?_⟩
  have hmem : c ∈ tables.normalize (utf16 description) := by
    obtain ⟨i, hi⟩ := List.mem_iff_getElem?.1 hword
    have hpart : (((tables.normalize (utf16 description)).splitOn 0x20).intersperse [0x20])[2 * i]? =
        some word := List.getElem?_intersperse_two_mul.trans hi
    have hjoin : [0x20].intercalate ((tables.normalize (utf16 description)).splitOn 0x20) =
        tables.normalize (utf16 description) := List.intercalate_splitOn 0x20
    rw [← hjoin]
    exact List.mem_flatten_of_mem (List.mem_of_getElem? hpart) hc
  cases mem_normalize tables hmem with
  | inl hgap => exact absurd (hgap ▸ hc) (NodePath.notMem_of_mem_splitOn hword)
  | inr hletter => exact hletter

/-- The first keyword of a criterion that is found. -/
def firstMatch (content : List Nat) (criterion : GradingRubricCriterion) : Option (List Nat) :=
  (foundIn tables content (keywordsOf tables criterion.description)).head?

theorem firstMatch_spec {content word : List Nat} {criterion : GradingRubricCriterion}
    (h : firstMatch tables content criterion = some word) :
    word ≠ [] ∧ (∀ c ∈ word, isSeparator c = false) ∧ word <:+: tables.normalize content := by
  have hmem := List.mem_of_mem_head? h
  unfold foundIn at hmem
  rw [List.mem_filter, Option.isSome_iff_exists] at hmem
  obtain ⟨hkeyword, i, hi⟩ := hmem
  obtain ⟨hne, hletters⟩ := keyword_letters tables hkeyword
  refine ⟨hne, hletters, ?_⟩
  rw [← (indexOf_eq_some hi).2]
  exact (List.take_prefix _ _).isInfix.trans (List.drop_suffix _ _).isInfix

end Keywords

/-! ## The excerpt -/

section Excerpt

variable (tables : CanonicalTables)

theorem slice_within (text : List Nat) (i j : Nat) : slice text i j <:+: text :=
  (List.drop_suffix _ _).isInfix.trans (List.take_prefix _ _).isInfix

theorem slice_within_slice {text : List Nat} {i j i' j' : Nat} (hi : i' ≤ i) (hj : j ≤ j') :
    slice text i j <:+: slice text i' j' := by
  have hfront : slice text i j <:+: slice text i' j := by
    unfold slice
    rw [← Nat.add_sub_of_le hi, ← List.drop_drop]
    exact (List.drop_suffix _ _).isInfix
  have hback : slice text i' j <:+: slice text i' j' := by
    unfold slice
    rw [← Nat.min_eq_left hj, ← List.take_take]
    exact ((List.take_prefix _ _).drop _).isInfix
  exact hfront.trans hback

/-- The units from `i` to `j` spell the word. -/
def SpelledBetween (text word : List Nat) (i j : Nat) : Prop :=
  word <:+: (slice text i j).flatMap (spellUnit tables)

/-- The text spells the word no further from its place in the normal form than
the radius of an excerpt. -/
def Near (text word : List Nat) : Prop :=
  ∃ start i j, indexOf (tables.normalize text) word 0 = some start ∧
    start ≤ i + radius ∧ j ≤ start + word.length + radius ∧ j ≤ text.length ∧
      SpelledBetween tables text word i j

variable {tables}

theorem excerptAround_infix (text word : List Nat) : excerptAround tables text word <:+: text := by
  unfold excerptAround
  split
  · exact List.nil_infix
  · unfold Squeeze.trimEnds
    exact (List.rdropWhile_prefix _ _).isInfix.trans
      ((List.dropWhile_suffix _).isInfix.trans (slice_within _ _ _))

theorem excerptAround_iff {text word : List Nat} (hne : word ≠ [])
    (hword : ∀ c ∈ word, isSeparator c = false) (hfound : word <:+: tables.normalize text) :
    word <:+: tables.normalize (excerptAround tables text word) ↔ Near tables text word := by
  obtain ⟨i, hi⟩ := exists_indexOf hfound
  have hexcerpt : excerptAround tables text word = Squeeze.trimEnds isSpaceUnit
      (slice text (i - radius) (min text.length (i + word.length + radius))) := by
    unfold excerptAround
    rw [hi]
  rw [hexcerpt, infix_normalize_trim hne hword, infix_normalize_iff hne hword]
  constructor
  · intro h
    exact ⟨i, i - radius, min text.length (i + word.length + radius), hi, by omega, by omega,
      by omega, h⟩
  · intro h
    obtain ⟨start, k, l, hstart, hk, hl, hlength, hspelled⟩ := h
    rw [hi] at hstart
    cases hstart
    have hwindow : slice text k l <:+:
        slice text (i - radius) (min text.length (i + word.length + radius)) :=
      slice_within_slice (by omega) (by omega)
    rw [← infix_normalize_iff hne hword]
    apply infix_normalize_of_part hne hword hwindow
    rw [infix_normalize_iff hne hword]
    exact hspelled

end Excerpt

/-! ## What a row quotes -/

section Result

variable (tables : CanonicalTables)

/-- A row that awards something quotes the first word that was found. -/
def Quotes (content : List Nat) (criterion : GradingRubricCriterion) (row : KeywordResult) : Prop :=
  row.verdict ≠ .notMet → row.evidence ≠ [] ∧ row.evidence <:+: content ∧
    ∃ word, firstMatch tables content criterion = some word ∧
      word <:+: tables.normalize row.evidence

variable {tables}

theorem normalize_nil : tables.normalize [] = [] := rfl

theorem readable_of_found {content word : List Nat} (hne : word ≠ [])
    (hword : ∀ c ∈ word, isSeparator c = false) (hfound : word <:+: tables.normalize content) :
    Squeeze.trimEnds isSpaceUnit (tables.normalize content) ≠ [] := by
  intro hblank
  rw [Squeeze.trimEnds_eq_nil] at hblank
  obtain ⟨c, hc⟩ := List.exists_mem_of_ne_nil _ hne
  have hspace := hblank c (hfound.subset hc)
  have hletter := hword c hc
  simp only [isSpaceUnit, decide_eq_true_eq] at hspace
  simp only [isSeparator, isLetter, Bool.not_eq_false', decide_eq_true_eq] at hletter
  omega

theorem quotes_row_iff (content : List Nat) (criterion : GradingRubricCriterion) :
    Quotes tables content criterion (gradeCriterion tables content criterion) ↔
      ∀ word, firstMatch tables content criterion = some word → Near tables content word := by
  cases hfirst : firstMatch tables content criterion with
  | none =>
    have hnone : (gradeCriterion tables content criterion).verdict = .notMet := by
      have hfound := List.head?_eq_none_iff.1 hfirst
      unfold gradeCriterion
      dsimp only
      split_ifs with hskip hmost hsome
      · rfl
      · have hpos := List.length_pos_iff.2 (not_or.1 hskip).2
        rw [hfound, List.length_nil] at hmost
        omega
      · rw [hfound] at hsome
        cases hsome
      · rfl
    refine iff_of_true (fun h => absurd hnone h) fun word h => ?_
    cases h
  | some word =>
    obtain ⟨hne, hletters, hinfix⟩ := firstMatch_spec tables hfirst
    obtain ⟨rest, hfound⟩ := List.head?_eq_some_iff.1 hfirst
    have hreadable := readable_of_found hne hletters hinfix
    have hkeywords : keywordsOf tables criterion.description ≠ [] := by
      intro hnil
      rw [hnil] at hfound
      cases hfound
    have hrow : (gradeCriterion tables content criterion).verdict ≠ .notMet ∧
        (gradeCriterion tables content criterion).evidence = excerptAround tables content word := by
      unfold gradeCriterion
      dsimp only
      rw [if_neg (not_or.2 ⟨hreadable, hkeywords⟩), hfound]
      refine ⟨?_, rfl⟩
      dsimp only
      split_ifs with hmost hsome
      · decide
      · decide
      · exact absurd (Nat.succ_pos _) hsome
    have hquoted := excerptAround_iff hne hletters hinfix
    unfold Quotes
    rw [hrow.2]
    constructor
    · intro h other hother
      cases hother
      obtain ⟨-, -, other, hother, hpart⟩ := h hrow.1
      rw [hfirst] at hother
      cases hother
      exact hquoted.1 hpart
    · intro h _
      have hpart := hquoted.2 (h word rfl)
      refine ⟨?_, excerptAround_infix _ _, word, hfirst, hpart⟩
      intro hnil
      rw [hnil, normalize_nil, List.infix_nil] at hpart
      exact hne hpart

/-- Every row of a grading quotes the first word of its criterion exactly when
the text has that word near its place in the normal form. -/
theorem quotes_iff (tables : CanonicalTables) (request : GradingRequest) :
    List.Forall₂ (Quotes tables request.content.units) request.criteria
        (grade tables request).criterionResults ↔
      ∀ criterion ∈ request.criteria, ∀ word,
        firstMatch tables request.content.units criterion = some word →
          Near tables request.content.units word := by
  show List.Forall₂ _ request.criteria (request.criteria.map _) ↔ _
  rw [List.forall₂_map_right_iff, List.forall₂_same]
  apply forall_congr'
  intro criterion
  apply imp_congr_right
  intro _
  exact quotes_row_iff _ _

end Result

/-! ## A submission with a long run of punctuation -/

/-- `A-Z` only. -/
def asciiLower (c : Nat) : List Nat := if 0x41 ≤ c ∧ c ≤ 0x5A then [c + 0x20] else [c]

theorem fold_asciiLower {c : Nat} (hmark : ¬(0x300 ≤ c ∧ c ≤ 0x36F))
    (hd : ¬(c = 0x110 ∨ c = 0x111)) (hcapital : ¬(0x41 ≤ c ∧ c ≤ 0x5A)) :
    fold asciiLower c = [c] := by
  unfold fold plainD asciiLower isDiacritic
  rw [if_neg (by simpa only [decide_eq_true_eq] using hmark), if_neg hd, if_neg hcapital]

theorem marks_ascii (c : Nat) (h : (0 : Nat) ≠ 0) :
    ∀ d ∈ fold asciiLower c, isSeparator d = true :=
  absurd rfl h

theorem wide_ascii (c : Nat) (h : isSurrogate c = true ∨ 0x10000 ≤ c) :
    [c].flatMap (fold asciiLower) ≠ [] ∧
      ∀ d ∈ [c].flatMap (fold asciiLower), isSeparator d = true := by
  have hwide : 0xD800 ≤ c := by
    simp only [isSurrogate, decide_eq_true_eq] at h
    omega
  have hfold : fold asciiLower c = [c] := fold_asciiLower (by omega) (by omega) (by omega)
  rw [List.flatMap_singleton, hfold]
  refine ⟨List.cons_ne_nil _ _, fun d hd => ?_⟩
  rw [List.mem_singleton.1 hd]
  simp only [isSeparator, isLetter, Bool.not_eq_true', decide_eq_false_iff_not]
  omega

theorem blank_ascii (u : Nat) (h : isSpaceUnit u = true) :
    ∀ d ∈ [u].flatMap (fold asciiLower), isSeparator d = true := by
  intro d hd
  simp only [isSpaceUnit, decide_eq_true_eq] at h
  have hfold : fold asciiLower u = [u] := fold_asciiLower (by omega) (by omega) (by omega)
  rw [List.flatMap_singleton, hfold, List.mem_singleton] at hd
  rw [hd]
  simp only [isSeparator, isLetter, Bool.not_eq_true', decide_eq_false_iff_not]
  omega

def asciiTables : CanonicalTables where
  decomposition c := [c]
  combiningClass _ := 0
  lowerCase := asciiLower
  marks := marks_ascii
  wide := wide_ascii
  blank := blank_ascii

/-- Eighty dashes and a word: the word is the second unit of the normal form. -/
def shiftedSubmission : GradingRequest where
  content :=
    { units := List.replicate 80 0x2D ++ utf16 "recursion"
      bounded := by decide +kernel }
  criteria := [⟨"k1", "Recursion.", 2⟩]

theorem shiftedSubmission_unquoted :
    ¬ List.Forall₂ (Quotes asciiTables shiftedSubmission.content.units) shiftedSubmission.criteria
      (grade asciiTables shiftedSubmission).criterionResults := by
  intro h
  cases h with
  | cons hrow _ =>
    have hawarded : (gradeCriterion asciiTables shiftedSubmission.content.units
        ⟨"k1", "Recursion.", 2⟩).verdict = .met := by
      decide +kernel
    have hdashes : asciiTables.normalize (gradeCriterion asciiTables
        shiftedSubmission.content.units ⟨"k1", "Recursion.", 2⟩).evidence = [0x20] := by
      decide +kernel
    obtain ⟨-, -, word, hfirst, hpart⟩ := hrow (by rw [hawarded]; decide)
    obtain ⟨hne, hletters, -⟩ := firstMatch_spec asciiTables hfirst
    obtain ⟨c, hc⟩ := List.exists_mem_of_ne_nil _ hne
    rw [hdashes] at hpart
    have hspace := hletters c hc
    rw [List.mem_singleton.1 (hpart.subset hc)] at hspace
    cases hspace

end Cine.Grading.Keyword
