import Cine.Grading.GradeExport.Plan
import Cine.Grading.Scoring.TeacherExceptions
import Cine.Lib.Transaction

/-!
# Why a mark changed

`grade-export/diff-rules.ts`: the causes that an export gives for a mark that
is not the one written last.

* `diffRules` compares two breakdowns rule by rule, and `attribute` turns the
  differences into causes, after the cases of a rounding step, of a mark by
  hand and of a review.
* `ComputedBreakdown` is what the score service stores: a breakdown of
  `computeScore`, or one that `repriceBreakdown` priced again.  In both the
  errors explain the score (`ScoredBy`).
* The direction of a mark comes from totals that are cut at every criterion
  and rounded, the causes from the rules one by one.  `exists_lt_deductionAt`
  goes back from the first to the second, as long as no rule has been moved
  to another criterion of the rubric.
-/

namespace Cine.Grading

open Cine.Lib

variable {K : Type}

/-! ## The causes -/

structure RuleDelta where
  ruleId : String
  ruleKey : String
  revisionId : String
  /-- Above zero where the rule deducts more now. -/
  delta : Int
deriving DecidableEq, Repr

inductive Cause
  | rule (ruleKey : String) (ruleName : Option String) (delta : Int)
  | manualScore
  | review
  | rounding
  | unknown
deriving DecidableEq, Repr

/-- `effective`: only an error that is counted deducts. -/
def BreakdownError.effective (e : BreakdownError) : Int :=
  if e.counted = .counted then e.deductionHundredths.getD 0 else 0

def errorsById (breakdown : Option (ScoreBreakdown K)) : OrderedMap String BreakdownError :=
  .ofList (((breakdown.map ScoreBreakdown.errors).getD []).map fun e => (e.ruleId, e))

/-- What the rule deducts according to the map. -/
def deductionAt (m : OrderedMap String BreakdownError) (id : String) : Int :=
  ((m.get? id).map BreakdownError.effective).getD 0

/-- The loop body of `diffRules` for one rule. -/
def ruleDelta (b a : OrderedMap String BreakdownError) (id : String) : Option RuleDelta :=
  let delta := deductionAt a id - deductionAt b id
  if delta = 0 then none
  else
    ((a.get? id).or (b.get? id)).map fun any =>
      { ruleId := id, ruleKey := any.ruleKey, revisionId := any.revisionId, delta := delta }

/-- The rules of two maps, each once. -/
def ruleIds (b a : OrderedMap String BreakdownError) : List String :=
  (b.entries.map Prod.fst ++ a.entries.map Prod.fst).eraseDups

def diffRules (before after : Option (ScoreBreakdown K)) : List RuleDelta :=
  let b := errorsById before
  let a := errorsById after
  (ruleIds b a).filterMap (ruleDelta b a)

structure AttributeInput (K : Type) where
  direction : Direction
  currentSource : OutcomeSource
  /-- What was written last, and the step it was rounded with. -/
  previousWritten : Int
  previousStep : Int
  /-- The score of now, not rounded. -/
  currentRaw : Int
  previousBreakdown : Option (ScoreBreakdown K)
  currentBreakdown : Option (ScoreBreakdown K)
  /-- The names of the rules by revision. -/
  ruleNames : OrderedMap String String

/-- A mark falls where a rule deducts more. -/
def Direction.matches (direction : Direction) (delta : Int) : Bool :=
  if direction = .down then decide (0 < delta) else decide (delta < 0)

def AttributeInput.cause (i : AttributeInput K) (d : RuleDelta) : Cause :=
  .rule d.ruleKey (i.ruleNames.get? d.revisionId) d.delta

def AttributeInput.attribute (i : AttributeInput K) : Except String (List Cause) := do
  let rounded ← roundHalfUp i.currentRaw i.previousStep
  if rounded = i.previousWritten then return [.rounding]
  if i.currentSource = .current .manual then return [.manualScore]
  if i.currentSource = .current .review then return [.review]
  if i.previousBreakdown.isNone ∨ i.currentBreakdown.isNone then return [.unknown]
  let causes := ((diffRules i.previousBreakdown i.currentBreakdown).filter
    fun d => i.direction.matches d.delta).map i.cause
  return if causes ≠ [] then causes else [.unknown]

/-! ## Rounding keeps the order -/

variable {step : Int}

theorem roundHalfUp_eq_ok {v : Int} (hv : 0 ≤ v) (hstep : step ∈ roundingSteps) :
    roundHalfUp v step = .ok ((2 * v + step) / (2 * step) * step) := by
  unfold roundHalfUp
  rw [if_neg (by omega), if_neg (by simpa using hstep)]

theorem roundingSteps_pos (h : step ∈ roundingSteps) : 0 < step := by
  simp only [roundingSteps, List.mem_cons, List.not_mem_nil, or_false] at h
  omega

theorem roundHalfUp_mono {v w : Int} (hstep : step ∈ roundingSteps) (h : v ≤ w) :
    (2 * v + step) / (2 * step) * step ≤ (2 * w + step) / (2 * step) * step := by
  have hpos := roundingSteps_pos hstep
  have hdiv : (2 * v + step) / (2 * step) ≤ (2 * w + step) / (2 * step) :=
    Int.ediv_le_ediv (by omega) (by omega)
  exact Int.mul_le_mul_of_nonneg_right hdiv hpos.le

/-! ## The errors explain the score -/

def BreakdownError.chargeOn (criterionKey : String) (e : BreakdownError) : Int :=
  if e.criterionKey = criterionKey then e.effective else 0

/-- What errors take from a criterion, before the cut. -/
def chargedOn (errors : List BreakdownError) (criterionKey : String) : Int :=
  (errors.map (BreakdownError.chargeOn criterionKey)).sum

/-- The errors are of distinct rules, and the score is what they leave of the
rubric. -/
structure ScoredBy (rubric : List RubricCriterion) (errors : List BreakdownError) (score : Int) :
    Prop where
  ids_nodup : (errors.map BreakdownError.ruleId).Nodup
  keys_nodup : (errors.map BreakdownError.ruleKey).Nodup
  nonneg : 0 ≤ score
  score_eq : score = (rubric.map RubricCriterion.maxHundredths).sum -
    (rubric.map fun c => min (chargedOn errors c.key) c.maxHundredths).sum

section Charges

variable {rules : List ScoringRule} {errors : List BreakdownError}

theorem chargeOf_error {e : BreakdownError}
    (hrule : (scoringTable rules).get? e.ruleKey = some e.toScoringRule)
    (hscored : e.isScored = true) (hprice : e.counted = .unpriced → e.deductionHundredths = none)
    (criterionKey : String) :
    chargeOf (scoringTable rules) criterionKey e.ruleKey = e.chargeOn criterionKey := by
  have heffective : e.effective = e.deductionHundredths.getD 0 := by
    unfold BreakdownError.effective
    by_cases hc : e.counted = .counted
    · rw [if_pos hc]
    · have hu : e.counted = .unpriced := by
        unfold BreakdownError.isScored at hscored
        cases h : e.counted <;> simp_all
      rw [if_neg hc, hprice hu]
      rfl
  unfold chargeOf BreakdownError.chargeOn
  rw [hrule, heffective]
  rfl

theorem chargeOn_of_not_isScored {e : BreakdownError} (h : e.isScored = false)
    (criterionKey : String) : e.chargeOn criterionKey = 0 := by
  have heffective : e.effective = 0 := by
    unfold BreakdownError.effective
    rw [if_neg]
    intro hc
    unfold BreakdownError.isScored at h
    simp [hc] at h
  unfold BreakdownError.chargeOn
  rw [heffective, ite_self]

theorem chargesOf_errors (hkeys : (errors.map BreakdownError.ruleKey).Nodup)
    (hrule : ∀ e ∈ errors, (scoringTable rules).get? e.ruleKey = some e.toScoringRule)
    (hprice : ∀ e ∈ errors, e.counted = .unpriced → e.deductionHundredths = none)
    (criterionKey : String) :
    chargesOf rules (scoredKeysOf errors) criterionKey = chargedOn errors criterionKey := by
  have hnodup : (scoredKeysOf errors).Nodup := hkeys.sublist (List.filter_sublist.map _)
  have hperm : (scoredKeysOf errors).eraseDups.Perm (scoredKeysOf errors) := by
    rw [List.perm_ext_iff_of_nodup (nodup_eraseDups _) hnodup]
    exact fun k => List.mem_eraseDups
  have hone : ∀ e ∈ errors.filter BreakdownError.isScored,
      chargeOf (scoringTable rules) criterionKey e.ruleKey = e.chargeOn criterionKey := by
    intro e he
    obtain ⟨hmem, hscored⟩ := List.mem_filter.1 he
    exact chargeOf_error (hrule e hmem) hscored (hprice e hmem) criterionKey
  calc chargesOf rules (scoredKeysOf errors) criterionKey
      = ((scoredKeysOf errors).map (chargeOf (scoringTable rules) criterionKey)).sum :=
        (hperm.map _).sum_eq
    _ = ((errors.filter BreakdownError.isScored).map
          (BreakdownError.chargeOn criterionKey)).sum := by
        rw [scoredKeysOf, List.map_map]
        exact congrArg List.sum (List.map_congr_left hone)
    _ = chargedOn errors criterionKey :=
        sum_map_filter_of_zero fun e _ h => chargeOn_of_not_isScored h criterionKey

theorem scoredBy_of_score {rubric : List RubricCriterion} {s : DeductionScore}
    (hids : (errors.map BreakdownError.ruleId).Nodup)
    (hkeys : (errors.map BreakdownError.ruleKey).Nodup)
    (hrule : ∀ e ∈ errors, (scoringTable rules).get? e.ruleKey = some e.toScoringRule)
    (hprice : ∀ e ∈ errors, e.counted = .unpriced → e.deductionHundredths = none)
    (hs : computeDeductionScore rubric rules (scoredKeysOf errors) = .ok s) :
    ScoredBy rubric errors s.scoreHundredths where
  ids_nodup := hids
  keys_nodup := hkeys
  nonneg := by
    rw [scoreHundredths_eq hs]
    exact le_max_left _ _
  score_eq := by
    rw [clamp_idle hs]
    simp only [chargesOf_errors hkeys hrule hprice]

end Charges

/-! ## What the score service stores -/

/-- A breakdown that the score service has stored for the rubric, with its
score: computed from an investigation, or priced again later.  The rules that
a computation loads are rows of the database, so their ids and their keys are
distinct. -/
inductive ComputedBreakdown [Number K] :
    List RubricCriterion → ScoreBreakdown K → Int → Prop
  | computed {input : ScoreCoreInput K} {out : ScoreCoreOutput K} {score : Int}
      (hids : (input.rules.map RuleSnapshot.ruleId).Nodup)
      (hkeys : (input.rules.map RuleSnapshot.ruleKey).Nodup)
      (hout : input.computeScore = .ok out) (hscore : out.scoreHundredths = some score) :
      ComputedBreakdown input.rubric out.breakdown score
  | repriced {rubric rubric' : List RubricCriterion} {before : ScoreBreakdown K} {score : Int}
      {prices : OrderedMap String (Option Int)} {r : Repriced K}
      (hbefore : ComputedBreakdown rubric' before score)
      (hr : repriceBreakdown before rubric prices = .ok r) :
      ComputedBreakdown rubric r.breakdown r.scoreHundredths

section Stored

variable {decision : Decision K} {input : ScoreCoreInput K}

theorem exists_rule_of_error (hkeys : (input.rules.map RuleSnapshot.ruleKey).Nodup)
    (herrors : decision.errors = input.decisionInput.errors) {e : BreakdownError}
    (he : e ∈ errorsOf input decision) :
    ∃ r ∈ input.used, e.ruleId = r.ruleId ∧ e.ruleKey = r.ruleKey ∧
      e.toScoringRule = r.toScoringRule ∧ e.counted = input.countedOf decision r := by
  obtain ⟨d, hd, rfl⟩ := List.mem_map.1 he
  rw [herrors] at hd
  obtain ⟨r, hr, hk, _⟩ := exists_used_of_error hd
  refine ⟨r, hr, ?_⟩
  dsimp only [BreakdownError.toScoringRule, RuleSnapshot.toScoringRule]
  rw [← hk, ruleOf_of_used hkeys hr]
  exact ⟨rfl, rfl, rfl, rfl⟩

theorem errorsOf_keys_nodup (hkeys : (input.rules.map RuleSnapshot.ruleKey).Nodup)
    (herrors : decision.errors = input.decisionInput.errors) :
    ((errorsOf input decision).map BreakdownError.ruleKey).Nodup := by
  rw [errorsOf_keys hkeys decision herrors]
  exact diagnose_errors_nodup (decisionInput_keys_nodup hkeys)

theorem errorsOf_ids_nodup (hids : (input.rules.map RuleSnapshot.ruleId).Nodup)
    (hkeys : (input.rules.map RuleSnapshot.ruleKey).Nodup)
    (herrors : decision.errors = input.decisionInput.errors) :
    ((errorsOf input decision).map BreakdownError.ruleId).Nodup := by
  have hnodup := errorsOf_keys_nodup hkeys herrors
  refine List.Nodup.map_on (fun e he e' he' hid => ?_) hnodup.of_map
  obtain ⟨r, hr, hrid, hrkey, _⟩ := exists_rule_of_error hkeys herrors he
  obtain ⟨r', hr', hrid', hrkey', _⟩ := exists_rule_of_error hkeys herrors he'
  have hrule : r = r' := by
    refine List.inj_on_of_nodup_map hids ((used_sublist input).subset hr)
      ((used_sublist input).subset hr') ?_
    rw [← hrid, ← hrid', hid]
  refine List.inj_on_of_nodup_map hnodup he he' ?_
  rw [hrkey, hrkey', hrule]

theorem scoredBy_of_computeScore [Number K] {out : ScoreCoreOutput K} {score : Int}
    (hids : (input.rules.map RuleSnapshot.ruleId).Nodup)
    (hkeys : (input.rules.map RuleSnapshot.ruleKey).Nodup) (hout : input.computeScore = .ok out)
    (hscore : out.scoreHundredths = some score) :
    ScoredBy input.rubric out.breakdown.errors score := by
  rcases computeScore_split hkeys hout with
    ⟨_, _, hnone, _⟩ | ⟨s, total, _, _, htotal, hsome, herrors, _⟩
  · rw [hnone] at hscore
    cases hscore
  · rw [hsome, Option.some.injEq] at hscore
    subst hscore
    rw [herrors]
    refine scoredBy_of_score (errorsOf_ids_nodup hids hkeys rfl) (errorsOf_keys_nodup hkeys rfl)
      (fun e he => ?_) (fun e he hunpriced => ?_) htotal
    · obtain ⟨r, hr, _, hkey, hscoring, _⟩ := exists_rule_of_error hkeys rfl he
      rw [hkey, hscoring]
      exact scoringTable_of_used hkeys hr
    · obtain ⟨r, _, _, _, hscoring, hcounted⟩ := exists_rule_of_error hkeys rfl he
      have hprice : e.deductionHundredths = r.deductionHundredths :=
        congrArg ScoringRule.deductionHundredths hscoring
      rw [hcounted, countedOf_cases] at hunpriced
      rw [hprice]
      split_ifs at hunpriced with _ _ hnone
      exact hnone

theorem repriceError_unpriced {prices : OrderedMap String (Option Int)} {e : BreakdownError}
    (h : (repriceError prices e).counted = .unpriced) :
    (repriceError prices e).deductionHundredths = none := by
  unfold repriceError at h ⊢
  by_cases hscored : e.isScored = true
  · rw [if_pos hscored] at h ⊢
    dsimp only at h ⊢
    split_ifs at h with hnone
    exact hnone
  · rw [if_neg hscored] at h
    unfold BreakdownError.isScored at hscored
    simp [h] at hscored

theorem map_field_repriceError {α : Type} (prices : OrderedMap String (Option Int))
    (errors : List BreakdownError) {f : BreakdownError → α}
    (hf : ∀ e, f (repriceError prices e) = f e) :
    (errors.map (repriceError prices)).map f = errors.map f := by
  rw [List.map_map]
  exact List.map_congr_left fun e _ => hf e

theorem scoredBy_of_reprice {rubric : List RubricCriterion} {before : ScoreBreakdown K}
    {prices : OrderedMap String (Option Int)} {r : Repriced K}
    (hids : (before.errors.map BreakdownError.ruleId).Nodup)
    (hkeys : (before.errors.map BreakdownError.ruleKey).Nodup)
    (hr : repriceBreakdown before rubric prices = .ok r) :
    ScoredBy rubric r.breakdown.errors r.scoreHundredths := by
  rw [repriceBreakdown] at hr
  obtain ⟨score, hscore, hr⟩ := bind_eq_ok.1 hr
  cases hr
  rw [← scoredKeysOf] at hscore
  have hid : ∀ e, (repriceError prices e).ruleId = e.ruleId := fun e => by
    unfold repriceError
    split_ifs <;> rfl
  have hkey : ∀ e, (repriceError prices e).ruleKey = e.ruleKey := fun e => by
    unfold repriceError
    split_ifs <;> rfl
  have hkeys' : ((before.errors.map (repriceError prices)).map BreakdownError.ruleKey).Nodup := by
    rwa [map_field_repriceError prices _ hkey]
  refine scoredBy_of_score ?_ hkeys' (fun e he => ?_) (fun e he => ?_) hscore
  · rwa [map_field_repriceError prices _ hid]
  · refine OrderedMap.get?_ofList_of_nodup ?_
      (List.mem_map.2 ⟨_, List.mem_map_of_mem he, rfl⟩)
    rw [List.map_map, List.map_map]
    exact hkeys'
  · obtain ⟨e', _, rfl⟩ := List.mem_map.1 he
    exact repriceError_unpriced

theorem ComputedBreakdown.scoredBy [Number K] {rubric : List RubricCriterion}
    {b : ScoreBreakdown K} {score : Int} (h : ComputedBreakdown rubric b score) :
    ScoredBy rubric b.errors score := by
  induction h with
  | computed hids hkeys hout hscore => exact scoredBy_of_computeScore hids hkeys hout hscore
  | repriced _ hr ih => exact scoredBy_of_reprice ih.ids_nodup ih.keys_nodup hr

end Stored

/-! ## From the totals back to one rule -/

/-- A rule of both breakdowns counts towards another criterion now. -/
def CriterionMoved (b a : ScoreBreakdown K) : Prop :=
  ∃ e ∈ b.errors, ∃ e' ∈ a.errors, e.ruleId = e'.ruleId ∧ e.criterionKey ≠ e'.criterionKey

section Differences

variable {b a : ScoreBreakdown K}

/-- What the rule takes from a criterion according to the map. -/
def chargeAt (m : OrderedMap String BreakdownError) (criterionKey id : String) : Int :=
  ((m.get? id).map (BreakdownError.chargeOn criterionKey)).getD 0

variable {e : BreakdownError} {id : String}

theorem errorsById_get? (hids : (b.errors.map BreakdownError.ruleId).Nodup) (he : e ∈ b.errors) :
    (errorsById (some b)).get? e.ruleId = some e := by
  refine OrderedMap.get?_ofList_of_nodup ?_ (List.mem_map.2 ⟨e, he, rfl⟩)
  rw [List.map_map]
  exact hids

theorem mem_of_errorsById (h : (errorsById (some b)).get? id = some e) :
    e ∈ b.errors ∧ e.ruleId = id := by
  obtain ⟨e', he', heq⟩ := List.mem_map.1 (OrderedMap.mem_of_get?_ofList h)
  obtain ⟨rfl, rfl⟩ := Prod.mk.inj heq
  exact ⟨he', rfl⟩

theorem sum_chargeAt (hids : (b.errors.map BreakdownError.ruleId).Nodup) {ids : List String}
    (hnodup : ids.Nodup) (hsub : ∀ e ∈ b.errors, e.ruleId ∈ ids) (criterionKey : String) :
    (ids.map (chargeAt (errorsById (some b)) criterionKey)).sum =
      chargedOn b.errors criterionKey := by
  let isRule : String → Bool := fun id => decide (id ∈ b.errors.map BreakdownError.ruleId)
  have hperm : (ids.filter isRule).Perm (b.errors.map BreakdownError.ruleId) := by
    rw [List.perm_ext_iff_of_nodup (hnodup.filter _) hids]
    intro id
    rw [List.mem_filter, decide_eq_true_eq]
    refine ⟨And.right, fun hid => ⟨?_, hid⟩⟩
    obtain ⟨e, he, rfl⟩ := List.mem_map.1 hid
    exact hsub e he
  have hzero : ∀ id ∈ ids, isRule id = false →
      chargeAt (errorsById (some b)) criterionKey id = 0 := by
    intro id _ hid
    unfold chargeAt
    cases hget : (errorsById (some b)).get? id with
    | none => rfl
    | some e =>
      obtain ⟨he, rfl⟩ := mem_of_errorsById hget
      exact absurd (List.mem_map_of_mem he) (of_decide_eq_false hid)
  have hone : ∀ e ∈ b.errors, chargeAt (errorsById (some b)) criterionKey e.ruleId =
      e.chargeOn criterionKey := by
    intro e he
    unfold chargeAt
    rw [errorsById_get? hids he]
    rfl
  rw [← sum_map_filter_of_zero hzero, (hperm.map _).sum_eq, List.map_map]
  exact congrArg List.sum (List.map_congr_left hone)

theorem deductionAt_lt_of_chargeAt (hmoved : ¬ CriterionMoved b a) {criterionKey : String}
    (h : chargeAt (errorsById (some b)) criterionKey id <
      chargeAt (errorsById (some a)) criterionKey id) :
    deductionAt (errorsById (some b)) id < deductionAt (errorsById (some a)) id := by
  unfold chargeAt at h
  unfold deductionAt
  cases hb : (errorsById (some b)).get? id with
  | none =>
    cases ha : (errorsById (some a)).get? id with
    | none => simp [hb, ha] at h
    | some e' =>
      simp only [hb, ha, Option.map_none, Option.map_some, Option.getD_none, Option.getD_some,
        BreakdownError.chargeOn] at h ⊢
      split_ifs at h <;> omega
  | some e =>
    cases ha : (errorsById (some a)).get? id with
    | none =>
      simp only [hb, ha, Option.map_none, Option.map_some, Option.getD_none, Option.getD_some,
        BreakdownError.chargeOn] at h ⊢
      split_ifs at h <;> omega
    | some e' =>
      obtain ⟨he, heid⟩ := mem_of_errorsById hb
      obtain ⟨he', heid'⟩ := mem_of_errorsById ha
      have hsame : e.criterionKey = e'.criterionKey := by
        by_contra hne
        exact hmoved ⟨e, he, e', he', heid.trans heid'.symm, hne⟩
      simp only [hb, ha, Option.map_some, Option.getD_some, BreakdownError.chargeOn, hsame] at h ⊢
      split_ifs at h <;> omega

theorem mem_ruleIds {b a : OrderedMap String BreakdownError} :
    id ∈ ruleIds b a ↔ id ∈ b.entries.map Prod.fst ∨ id ∈ a.entries.map Prod.fst := by
  rw [ruleIds, List.mem_eraseDups, List.mem_append]

theorem mem_entries_of_error (he : e ∈ b.errors) :
    e.ruleId ∈ (errorsById (some b)).entries.map Prod.fst := by
  unfold errorsById
  rw [OrderedMap.mem_keys_ofList, List.map_map]
  exact List.mem_map_of_mem (f := BreakdownError.ruleId) he

theorem exists_lt_deductionAt {rubric : List RubricCriterion} {old new : Int}
    (hb : ScoredBy rubric b.errors old) (ha : ScoredBy rubric a.errors new)
    (hmoved : ¬ CriterionMoved b a) (h : new < old) :
    ∃ id, deductionAt (errorsById (some b)) id < deductionAt (errorsById (some a)) id := by
  -- some criterion loses more after the cut, so before it as well
  have hcut : (rubric.map fun c => min (chargedOn b.errors c.key) c.maxHundredths).sum <
      (rubric.map fun c => min (chargedOn a.errors c.key) c.maxHundredths).sum := by
    rw [hb.score_eq, ha.score_eq] at h
    omega
  obtain ⟨c, _, hc⟩ := List.exists_lt_of_sum_lt _ _ hcut
  have hcharged : chargedOn b.errors c.key < chargedOn a.errors c.key := by omega
  let ids := ruleIds (errorsById (some b)) (errorsById (some a))
  have hnodup : ids.Nodup := nodup_eraseDups _
  rw [← sum_chargeAt hb.ids_nodup hnodup
      (fun e he => mem_ruleIds.2 (.inl (mem_entries_of_error he))),
    ← sum_chargeAt ha.ids_nodup hnodup
      (fun e he => mem_ruleIds.2 (.inr (mem_entries_of_error he)))] at hcharged
  obtain ⟨id, _, hid⟩ := List.exists_lt_of_sum_lt _ _ hcharged
  exact ⟨id, deductionAt_lt_of_chargeAt hmoved hid⟩

theorem mem_diffRules {d : RuleDelta} (h : d ∈ diffRules (some b) (some a)) :
    ∃ e, (e ∈ b.errors ∨ e ∈ a.errors) ∧ d.ruleKey = e.ruleKey ∧
      d.delta = deductionAt (errorsById (some a)) e.ruleId -
        deductionAt (errorsById (some b)) e.ruleId := by
  obtain ⟨id, _, hd⟩ := List.mem_filterMap.1 h
  unfold ruleDelta at hd
  dsimp only at hd
  split_ifs at hd
  obtain ⟨e, he, rfl⟩ := Option.map_eq_some_iff.1 hd
  rcases Option.or_eq_some_iff.1 he with ha | ⟨_, hb⟩
  · obtain ⟨hmem, rfl⟩ := mem_of_errorsById ha
    exact ⟨e, .inr hmem, rfl, rfl⟩
  · obtain ⟨hmem, rfl⟩ := mem_of_errorsById hb
    exact ⟨e, .inl hmem, rfl, rfl⟩

theorem exists_mem_diffRules
    (h : deductionAt (errorsById (some b)) id ≠ deductionAt (errorsById (some a)) id) :
    ∃ d ∈ diffRules (some b) (some a), d.delta =
      deductionAt (errorsById (some a)) id - deductionAt (errorsById (some b)) id := by
  have hany : ∃ any, ((errorsById (some a)).get? id).or ((errorsById (some b)).get? id) =
      some any := by
    unfold deductionAt at h
    cases ha : (errorsById (some a)).get? id with
    | some e => exact ⟨e, rfl⟩
    | none =>
      cases hb : (errorsById (some b)).get? id with
      | some e => exact ⟨e, rfl⟩
      | none => simp [ha, hb] at h
  obtain ⟨any, hany⟩ := hany
  refine ⟨⟨id, any.ruleKey, any.revisionId, deductionAt (errorsById (some a)) id -
    deductionAt (errorsById (some b)) id⟩, List.mem_filterMap.2 ⟨id, ?_, ?_⟩, rfl⟩
  · rw [mem_ruleIds]
    rcases Option.or_eq_some_iff.1 hany with ha | ⟨_, hb⟩
    · exact .inr (OrderedMap.isSome_get?_iff.1 (by rw [ha]; rfl))
    · exact .inl (OrderedMap.isSome_get?_iff.1 (by rw [hb]; rfl))
  · unfold ruleDelta
    dsimp only
    rw [if_neg (by omega), hany]
    rfl

end Differences

/-! ## Every changed mark is explained -/

def Direction.WentTo (direction : Direction) (old new : Int) : Prop :=
  direction = .up ∧ old < new ∨ direction = .down ∧ new < old

/-- The cause is a rule whose change of deduction has the sign of the
direction. -/
def Cause.IsRuleOf (direction : Direction) (b a : ScoreBreakdown K) (c : Cause) : Prop :=
  ∃ e, (e ∈ b.errors ∨ e ∈ a.errors) ∧ ∃ ruleName delta,
    c = .rule e.ruleKey ruleName delta ∧
      delta = deductionAt (errorsById (some a)) e.ruleId -
        deductionAt (errorsById (some b)) e.ruleId ∧
      (direction = .up → delta < 0) ∧ (direction = .down → 0 < delta)

section Explained

variable {b a : ScoreBreakdown K} {direction : Direction}

theorem attribute_eq {i : AttributeInput K} {rounded : Int}
    (hrounded : roundHalfUp i.currentRaw i.previousStep = .ok rounded)
    (hwritten : rounded ≠ i.previousWritten) (hmanual : i.currentSource ≠ .current .manual)
    (hreview : i.currentSource ≠ .current .review) (hb : i.previousBreakdown = some b)
    (ha : i.currentBreakdown = some a) :
    i.attribute =
      let causes := ((diffRules (some b) (some a)).filter
        fun d => i.direction.matches d.delta).map i.cause
      .ok (if causes ≠ [] then causes else [.unknown]) := by
  unfold AttributeInput.attribute
  rw [hrounded, hb, ha]
  simp only [bind, Except.bind, pure, Except.pure]
  rw [if_neg hwritten, if_neg hmanual, if_neg hreview, if_neg (by simp)]

theorem isRuleOf_of_mem {i : AttributeInput K} {c : Cause}
    (hc : c ∈ ((diffRules (some b) (some a)).filter
      fun d => i.direction.matches d.delta).map i.cause) : c.IsRuleOf i.direction b a := by
  obtain ⟨d, hd, rfl⟩ := List.mem_map.1 hc
  obtain ⟨hmem, hsign⟩ := List.mem_filter.1 hd
  obtain ⟨e, he, hkey, hdelta⟩ := mem_diffRules hmem
  refine ⟨e, he, i.ruleNames.get? d.revisionId, d.delta, ?_, hdelta, ?_, ?_⟩
  · rw [AttributeInput.cause, hkey]
  · intro hup
    simpa [Direction.matches, hup] using hsign
  · intro hdown
    simpa [Direction.matches, hdown] using hsign

theorem exists_matching_delta {rubric : List RubricCriterion} {old new : Int}
    (hb : ScoredBy rubric b.errors old) (ha : ScoredBy rubric a.errors new)
    (hmoved : ¬ CriterionMoved b a) (hwent : direction.WentTo old new) :
    ∃ d ∈ diffRules (some b) (some a), direction.matches d.delta = true := by
  rcases hwent with ⟨rfl, hlt⟩ | ⟨rfl, hlt⟩
  · have hmoved' : ¬ CriterionMoved a b := by
      rintro ⟨e, he, e', he', hid, hne⟩
      exact hmoved ⟨e', he', e, he, hid.symm, hne.symm⟩
    obtain ⟨id, hid⟩ := exists_lt_deductionAt ha hb hmoved' hlt
    obtain ⟨d, hd, hdelta⟩ := exists_mem_diffRules (ne_of_gt hid)
    refine ⟨d, hd, ?_⟩
    unfold Direction.matches
    rw [if_neg (by decide), decide_eq_true_eq, hdelta]
    omega
  · obtain ⟨id, hid⟩ := exists_lt_deductionAt hb ha hmoved hlt
    obtain ⟨d, hd, hdelta⟩ := exists_mem_diffRules (ne_of_lt hid)
    refine ⟨d, hd, ?_⟩
    unfold Direction.matches
    rw [if_pos rfl, decide_eq_true_eq, hdelta]
    omega

theorem wentTo_of_rounded {old new step : Int} (hstep : step ∈ roundingSteps)
    (h : direction.WentTo ((2 * old + step) / (2 * step) * step)
      ((2 * new + step) / (2 * step) * step)) : direction.WentTo old new := by
  rcases h with ⟨hup, hlt⟩ | ⟨hdown, hlt⟩
  · refine .inl ⟨hup, ?_⟩
    by_contra hle
    exact absurd (roundHalfUp_mono hstep (not_lt.1 hle)) (not_le.2 hlt)
  · refine .inr ⟨hdown, ?_⟩
    by_contra hle
    exact absurd (roundHalfUp_mono hstep (not_lt.1 hle)) (not_le.2 hlt)

end Explained

/-- Two stored breakdowns of one rubric, whose scores are written with one
rounding step.  Both are written, and where the written mark went up or down
the answer is a list of rules whose change of deduction has the matching sign.
It is `unknown` only where a rule counts towards another criterion now. -/
theorem attribute_explains [Number K] {rubric : List RubricCriterion} {b a : ScoreBreakdown K}
    {old new step : Int} (hb : ComputedBreakdown rubric b old)
    (ha : ComputedBreakdown rubric a new) (hstep : step ∈ roundingSteps) :
    ∃ oldWritten newWritten, roundHalfUp old step = .ok oldWritten ∧
      roundHalfUp new step = .ok newWritten ∧
      ∀ (direction : Direction) (source : OutcomeSource) (ruleNames : OrderedMap String String),
        direction.WentTo oldWritten newWritten → source ≠ .current .manual →
        source ≠ .current .review →
        ∃ causes, AttributeInput.attribute
            { direction := direction
              currentSource := source
              previousWritten := oldWritten
              previousStep := step
              currentRaw := new
              previousBreakdown := some b
              currentBreakdown := some a
              ruleNames := ruleNames } = .ok causes ∧
          (causes ≠ [] ∧ (∀ c ∈ causes, c.IsRuleOf direction b a) ∨
            causes = [.unknown] ∧ CriterionMoved b a) := by
  have hold := roundHalfUp_eq_ok hb.scoredBy.nonneg hstep
  have hnew := roundHalfUp_eq_ok ha.scoredBy.nonneg hstep
  refine ⟨_, _, hold, hnew, fun direction source ruleNames hwent hmanual hreview => ?_⟩
  have hwritten : (2 * new + step) / (2 * step) * step ≠
      (2 * old + step) / (2 * step) * step := by
    rcases hwent with ⟨_, hlt⟩ | ⟨_, hlt⟩
    · exact ne_of_gt hlt
    · exact ne_of_lt hlt
  refine ⟨_, attribute_eq hnew hwritten hmanual hreview rfl rfl, ?_⟩
  dsimp only
  split_ifs with hsome
  · exact .inl ⟨hsome, fun c hc => isRuleOf_of_mem hc⟩
  · refine .inr ⟨rfl, ?_⟩
    by_contra hmoved
    obtain ⟨d, hd, hsign⟩ := exists_matching_delta hb.scoredBy ha.scoredBy hmoved
      (wentTo_of_rounded hstep hwent)
    refine hsome (List.ne_nil_of_mem (List.mem_map_of_mem (List.mem_filter.2 ⟨hd, hsign⟩)))

/-- What two computations and the attribution between them return. -/
def explain (before after : ScoreCoreInput ℚ) (direction : Direction) (oldWritten new : Int) :
    Except String (Option Int × Option Int × List Cause) := do
  let b ← before.computeScore
  let a ← after.computeScore
  let causes ← AttributeInput.attribute
    { direction := direction
      currentSource := .current .finalized
      previousWritten := oldWritten
      previousStep := 1
      currentRaw := new
      previousBreakdown := some b.breakdown
      currentBreakdown := some a.breakdown
      ruleNames := .empty }
  return (b.scoreHundredths, a.scoreHundredths, causes)

theorem explain_eq_ok {before after : ScoreCoreInput ℚ} {direction : Direction}
    {oldWritten new : Int} {r : Option Int × Option Int × List Cause}
    (h : (explain before after direction oldWritten new).toOption = some r) :
    ∃ b a, before.computeScore = .ok b ∧ after.computeScore = .ok a ∧
      b.scoreHundredths = r.1 ∧ a.scoreHundredths = r.2.1 ∧
      AttributeInput.attribute
        { direction := direction
          currentSource := .current .finalized
          previousWritten := oldWritten
          previousStep := 1
          currentRaw := new
          previousBreakdown := some b.breakdown
          currentBreakdown := some a.breakdown
          ruleNames := .empty } = .ok r.2.2 := by
  cases hrun : explain before after direction oldWritten new with
  | error e =>
    rw [hrun] at h
    cases h
  | ok r' =>
    rw [hrun] at h
    cases h
    unfold explain at hrun
    obtain ⟨b, hb, hrun⟩ := bind_eq_ok.1 hrun
    obtain ⟨a, ha, hrun⟩ := bind_eq_ok.1 hrun
    obtain ⟨causes, hcauses, hrun⟩ := bind_eq_ok.1 hrun
    cases hrun
    exact ⟨b, a, hb, ha, rfl, rfl, hcauses⟩

/-- A rule that got a price explains the mark that fell. -/
theorem storedSample_explained :
    ∃ before after, storedSample.computeScore = .ok before ∧
      (storedSample.withPrices newPrices).computeScore = .ok after ∧
      AttributeInput.attribute
        { direction := .down
          currentSource := .current .finalized
          previousWritten := 110
          previousStep := 1
          currentRaw := 100
          previousBreakdown := some before.breakdown
          currentBreakdown := some after.breakdown
          ruleNames := .empty } = .ok [.rule "comments" none 70] ∧
      (Cause.rule "comments" none 70).IsRuleOf .down before.breakdown after.breakdown := by
  obtain ⟨before, after, hbefore, hafter, hold, hnew, hcauses⟩ := explain_eq_ok
    (by decide +kernel : (explain storedSample (storedSample.withPrices newPrices) .down 110
      100).toOption = some (some 110, some 100, [.rule "comments" none 70]))
  have hb : ComputedBreakdown storedSample.rubric before.breakdown 110 :=
    .computed (by decide) (by decide) hbefore hold
  have ha : ComputedBreakdown (storedSample.withPrices newPrices).rubric after.breakdown 100 :=
    .computed (by decide) (by decide) hafter hnew
  obtain ⟨oldWritten, newWritten, hold, hnew, h⟩ :=
    attribute_explains hb ha (by decide : (1 : Int) ∈ roundingSteps)
  obtain rfl : 110 = oldWritten := Except.ok.inj hold
  obtain rfl : 100 = newWritten := Except.ok.inj hnew
  obtain ⟨causes, hrun, hexplained⟩ := h .down (.current .finalized) .empty
    (.inr ⟨rfl, by decide⟩) (by decide) (by decide)
  rw [hcauses, Except.ok.injEq] at hrun
  subst hrun
  rcases hexplained with ⟨_, hall⟩ | ⟨hunknown, _⟩
  · exact ⟨before, after, hbefore, hafter, hcauses, hall _ List.mem_cons_self⟩
  · cases hunknown

/-- The sample with a criterion that is used up. -/
def cappedSample : ScoreCoreInput ℚ :=
  { storedSample with rubric := [⟨"correctness", 30⟩, ⟨"style", 50⟩] }

/-- The same paper after the rule was moved to the other criterion. -/
def movedSample : ScoreCoreInput ℚ :=
  { cappedSample with
    rules :=
      [⟨"r1", "v1", "edge-cases", "style", some (.testGroupFailed "edge"), some 40⟩,
        ⟨"r2", "v1", "naming", "style", none, some 20⟩,
        ⟨"r3", "v1", "comments", "style", none, none⟩] }

/-- A rule that is moved away from a criterion that is used up lowers the mark
and deducts as much as before. -/
theorem moved_rule_unknown :
    ¬ ∀ (rubric : List RubricCriterion) (b a : ScoreBreakdown ℚ) (old new step : Int),
      ComputedBreakdown rubric b old → ComputedBreakdown rubric a new → step ∈ roundingSteps →
        ∀ oldWritten newWritten, roundHalfUp old step = .ok oldWritten →
          roundHalfUp new step = .ok newWritten →
          ∀ (direction : Direction) (source : OutcomeSource)
            (ruleNames : OrderedMap String String), direction.WentTo oldWritten newWritten →
            source ≠ .current .manual → source ≠ .current .review →
            ∃ causes, AttributeInput.attribute
                { direction := direction
                  currentSource := source
                  previousWritten := oldWritten
                  previousStep := step
                  currentRaw := new
                  previousBreakdown := some b
                  currentBreakdown := some a
                  ruleNames := ruleNames } = .ok causes ∧
              (∃ c ∈ causes, c.IsRuleOf direction b a) ∧ .unknown ∉ causes := by
  intro h
  obtain ⟨before, after, hbefore, hafter, hold, hnew, hcauses⟩ := explain_eq_ok
    (by decide +kernel : (explain cappedSample movedSample .down 50 40).toOption =
      some (some 50, some 40, [.unknown]))
  have hb : ComputedBreakdown cappedSample.rubric before.breakdown 50 :=
    .computed (by decide) (by decide) hbefore hold
  have ha : ComputedBreakdown movedSample.rubric after.breakdown 40 :=
    .computed (by decide) (by decide) hafter hnew
  obtain ⟨causes, hrun, _, hnot⟩ := h _ _ _ 50 40 1 hb ha (by decide) 50 40 rfl rfl .down
    (.current .finalized) .empty (.inr ⟨rfl, by decide⟩) (by decide) (by decide)
  rw [hcauses, Except.ok.injEq] at hrun
  subst hrun
  exact hnot List.mem_cons_self

end Cine.Grading
