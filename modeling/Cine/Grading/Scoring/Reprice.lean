import Cine.Grading.Scoring.ScoreCore

/-!
# New prices and a new computation agree

`repriceBreakdown` sees a stored breakdown and a table of prices, and
`computeScore` starts from the stored investigation.  This module proves
that both give the same score.

* Prices do not enter the diagnosis.  Two tables that differ in prices only
  are below the same floor and refute the same keys
  (`floor_of_withoutPrice`, `refutedKeys_of_withoutPrice`).
* `errorsOf_withPrices` writes the errors of the second computation as those
  of the first one with the rules of the second table.
* `repriceError_agrees` is the case analysis for one error: excluded,
  refuted, priced or not.
* `computeDeductionScore_congr` closes the last gap, since the two tables of
  rules agree on the keys that enter the score.
-/

namespace Cine.Grading

open Cine.Lib

/-- The rule under another table of prices. -/
def RuleSnapshot.withPrice (prices : OrderedMap String (Option Int)) (r : RuleSnapshot) :
    RuleSnapshot :=
  { r with deductionHundredths := priceOf prices r.ruleId }

/-- The same stored investigation under another table of prices. -/
def ScoreCoreInput.withPrices {K : Type} (input : ScoreCoreInput K)
    (prices : OrderedMap String (Option Int)) : ScoreCoreInput K :=
  { input with rules := input.rules.map (RuleSnapshot.withPrice prices) }

/-! ## Prices do not enter a decision's floors and refutations -/

section WithoutPrice

variable {K : Type} {a b : DecisionInput K}

/-- Two inputs that differ in the prices of their rules only. -/
structure SameButPrices (a b : DecisionInput K) : Prop where
  pipeline : a.pipeline = b.pipeline
  result : a.result = b.result
  bundle : a.bundle = b.bundle
  challenge : a.challenge = b.challenge
  rules : a.rules.map ErrorRule.withoutPrice = b.rules.map ErrorRule.withoutPrice

theorem errors_of_withoutPrice (h : SameButPrices a b) :
    a.errors.map DiagnosedError.withoutPrice = b.errors.map DiagnosedError.withoutPrice := by
  rw [DecisionInput.errors, DecisionInput.errors, DecisionInput.diagnosis,
    DecisionInput.diagnosis, ← diagnose_withoutPrice, ← diagnose_withoutPrice, h.rules, h.bundle,
    h.result]

theorem errors_eq_nil_of_withoutPrice (h : SameButPrices a b) :
    a.errors = [] ↔ b.errors = [] := by
  rw [← List.map_eq_nil_iff (f := DiagnosedError.withoutPrice), errors_of_withoutPrice h,
    List.map_eq_nil_iff]

theorem floor_congr (hpipeline : a.pipeline = b.pipeline) (hresult : a.result = b.result)
    (hbundle : a.bundle = b.bundle) (herrors : a.errors = [] ↔ b.errors = []) :
    a.floor = b.floor := by
  have hmissing : a.missing = b.missing := by
    rw [DecisionInput.missing, DecisionInput.missing, DecisionInput.toolCalls,
      DecisionInput.structured, hbundle, hresult]
    rfl
  rw [DecisionInput.floor, DecisionInput.floor, hmissing, hresult, hpipeline, hbundle]
  by_cases he : b.errors = []
  · rw [he, herrors.2 he]
  · have he' : a.errors ≠ [] := fun hnil => he (herrors.1 hnil)
    simp only [he, he', and_false]

theorem floor_of_withoutPrice (h : SameButPrices a b) : a.floor = b.floor :=
  floor_congr h.pipeline h.result h.bundle (errors_eq_nil_of_withoutPrice h)

theorem refutedKeys_of_withoutPrice (h : SameButPrices a b) :
    a.refutedKeys = b.refutedKeys := by
  have key : ∀ (errors : List DiagnosedError) (ch : StoredChallenge),
      (errors.filter (fun e => e.source ≠ .deterministic ∧
          mergedStatusOf e.ruleKey ch.perError = some .refuted)).map DiagnosedError.ruleKey =
        ((errors.map DiagnosedError.withoutPrice).filter (fun e => e.source ≠ .deterministic ∧
          mergedStatusOf e.ruleKey ch.perError = some .refuted)).map DiagnosedError.ruleKey := by
    intro errors ch
    rw [List.filter_map, List.map_map]
    rfl
  rw [DecisionInput.refutedKeys, DecisionInput.refutedKeys, DecisionInput.challengedKeys,
    DecisionInput.challengedKeys, h.challenge]
  cases b.challenge with
  | none => rfl
  | some ch =>
    simp only
    rw [key a.errors ch, key b.errors ch, errors_of_withoutPrice h]

end WithoutPrice

/-! ## The second computation, in terms of the first -/

section Reprice

variable {K : Type} {input : ScoreCoreInput K} {prices : OrderedMap String (Option Int)}

theorem used_withPrices (input : ScoreCoreInput K) (prices : OrderedMap String (Option Int)) :
    (input.withPrices prices).used = input.used.map (RuleSnapshot.withPrice prices) := by
  rw [ScoreCoreInput.used, ScoreCoreInput.used, ScoreCoreInput.matching, ScoreCoreInput.matching,
    ScoreCoreInput.withPrices, List.filter_map, List.filter_map]
  rfl

theorem keys_withPrices (input : ScoreCoreInput K) (prices : OrderedMap String (Option Int)) :
    (input.withPrices prices).rules.map RuleSnapshot.ruleKey =
      input.rules.map RuleSnapshot.ruleKey := by
  simp [ScoreCoreInput.withPrices, List.map_map, Function.comp_def, RuleSnapshot.withPrice]

theorem sameButPrices_withPrices (input : ScoreCoreInput K)
    (prices : OrderedMap String (Option Int)) :
    SameButPrices (input.withPrices prices).decisionInput input.decisionInput where
  pipeline := rfl
  result := rfl
  bundle := rfl
  challenge := rfl
  rules := by
    simp only [ScoreCoreInput.decisionInput, used_withPrices, List.map_map]
    rfl

theorem exceptedKeys_withPrices (input : ScoreCoreInput K)
    (prices : OrderedMap String (Option Int)) (x : ErrorException) :
    (input.withPrices prices).exceptedKeys x = input.exceptedKeys x := by
  rw [ScoreCoreInput.exceptedKeys, ScoreCoreInput.exceptedKeys, used_withPrices, List.filter_map,
    List.map_map]
  rfl

theorem decidedRefuted_decisionOf [Number K] (input : DecisionInput K) (s : DeductionScore) :
    ScoreCoreInput.decidedRefuted (input.decisionOf s) = input.refutedKeys := by
  simp only [ScoreCoreInput.decidedRefuted, DecisionInput.decisionOf, DecisionInput.errorFlagsOf,
    List.filter_append, List.filter_map, List.map_append, List.map_map]
  simp [Function.comp_def]

theorem refutedKeys_withPrices [Number K] (input : ScoreCoreInput K)
    (prices : OrderedMap String (Option Int)) (s s' : DeductionScore) :
    (input.withPrices prices).refutedKeys
        ((input.withPrices prices).decisionInput.decisionOf s') =
      input.refutedKeys (input.decisionInput.decisionOf s) := by
  rw [ScoreCoreInput.refutedKeys, ScoreCoreInput.refutedKeys, decidedRefuted_decisionOf,
    decidedRefuted_decisionOf, refutedKeys_of_withoutPrice (sameButPrices_withPrices input prices)]
  simp only [ScoreCoreInput.excludedKeys, ScoreCoreInput.includedKeys, exceptedKeys_withPrices]
  exact List.filter_congr fun _ _ => decide_eq_decide.2 Iff.rfl

theorem ruleOf_withPrices (hkeys : (input.rules.map RuleSnapshot.ruleKey).Nodup)
    {r : RuleSnapshot} (hr : r ∈ input.used) :
    ruleOf (input.withPrices prices) r.ruleKey = r.withPrice prices := by
  have hkeys' : ((input.withPrices prices).rules.map RuleSnapshot.ruleKey).Nodup := by
    rwa [keys_withPrices]
  have hmem : r.withPrice prices ∈ (input.withPrices prices).used := by
    rw [used_withPrices]
    exact List.mem_map_of_mem hr
  exact ruleOf_of_used hkeys' hmem

/-- What the two ways of pricing one error agree on. -/
structure Agree (a b : BreakdownError) : Prop where
  ruleKey : a.ruleKey = b.ruleKey
  counted : a.counted = b.counted
  rule : a.isScored = true → a.toScoringRule = b.toScoringRule

theorem Agree.isScored {a b : BreakdownError} (h : Agree a b) : a.isScored = b.isScored := by
  rw [BreakdownError.isScored, BreakdownError.isScored, h.counted]

theorem repriceError_agrees [Number K] (s s' : DeductionScore) (r : RuleSnapshot)
    (source : VerdictSource) (toolCallIds : List String) :
    Agree
      (repriceError prices
        ⟨r.ruleId, r.revisionId, r.ruleKey, r.criterionKey, source, toolCallIds,
          r.deductionHundredths, input.countedOf (input.decisionInput.decisionOf s) r⟩)
      ⟨r.ruleId, r.revisionId, r.ruleKey, r.criterionKey, source, toolCallIds,
        priceOf prices r.ruleId,
        (input.withPrices prices).countedOf
          ((input.withPrices prices).decisionInput.decisionOf s') (r.withPrice prices)⟩ := by
  have hexcluded : (input.withPrices prices).excludedKeys = input.excludedKeys :=
    exceptedKeys_withPrices input prices .exclude
  simp only [ScoreCoreInput.countedOf, refutedKeys_withPrices input prices s s', hexcluded,
    RuleSnapshot.withPrice, repriceError, BreakdownError.isScored]
  -- an error that is neither refuted nor excluded takes the new price, whatever the old one was
  by_cases href : r.ruleKey ∈ input.refutedKeys (input.decisionInput.decisionOf s)
  · simp only [href, if_true]
    exact ⟨rfl, rfl, fun h => by simp [BreakdownError.isScored] at h⟩
  · by_cases hexc : r.ruleKey ∈ input.excludedKeys
    · simp only [href, hexc, if_true, if_false]
      exact ⟨rfl, rfl, fun h => by simp [BreakdownError.isScored] at h⟩
    · have hscored : ∀ d : Option Int, (if d = none then Counted.unpriced else .counted) ≠
          .excluded ∧ (if d = none then Counted.unpriced else .counted) ≠ .refuted := by
        intro d
        split_ifs <;> simp
      simp only [href, hexc, if_false, hscored, ne_eq, not_false_eq_true, and_self, decide_true,
        if_true]
      exact ⟨rfl, rfl, fun _ => rfl⟩

theorem errorsOf_agree [Number K] (prices : OrderedMap String (Option Int))
    (hkeys : (input.rules.map RuleSnapshot.ruleKey).Nodup) (s s' : DeductionScore) :
    List.Forall₂ Agree
      ((errorsOf input (input.decisionInput.decisionOf s)).map (repriceError prices))
      (errorsOf (input.withPrices prices)
        ((input.withPrices prices).decisionInput.decisionOf s')) := by
  have hsecond : errorsOf (input.withPrices prices)
      ((input.withPrices prices).decisionInput.decisionOf s') =
        input.decisionInput.errors.map fun e =>
          let r := ruleOf (input.withPrices prices) e.ruleKey
          ⟨r.ruleId, r.revisionId, r.ruleKey, r.criterionKey, e.source, e.toolCallIds,
            r.deductionHundredths, (input.withPrices prices).countedOf
              ((input.withPrices prices).decisionInput.decisionOf s') r⟩ := by
    have hw := errors_of_withoutPrice (sameButPrices_withPrices input prices)
    have hmap := congrArg (List.map fun e : DiagnosedError =>
      let r := ruleOf (input.withPrices prices) e.ruleKey
      (⟨r.ruleId, r.revisionId, r.ruleKey, r.criterionKey, e.source, e.toolCallIds,
        r.deductionHundredths, (input.withPrices prices).countedOf
          ((input.withPrices prices).decisionInput.decisionOf s') r⟩ : BreakdownError)) hw
    rwa [List.map_map, List.map_map] at hmap
  rw [hsecond, errorsOf, List.map_map, List.forall₂_map_left_iff, List.forall₂_map_right_iff]
  refine List.forall₂_same.2 fun e he => ?_
  obtain ⟨r, hr, hk, _⟩ := exists_used_of_error he
  simp only [Function.comp_apply, ← hk, ruleOf_of_used hkeys hr, ruleOf_withPrices hkeys hr]
  exact repriceError_agrees s s' r e.source e.toolCallIds

variable {as bs : List BreakdownError}

theorem scoredKeysOf_agree (h : List.Forall₂ Agree as bs) : scoredKeysOf as = scoredKeysOf bs := by
  induction h with
  | nil => rfl
  | @cons a b as bs hab _ ih =>
    rw [scoredKeysOf, scoredKeysOf, List.filter_cons, List.filter_cons, hab.isScored]
    by_cases hb : b.isScored = true
    · simp only [hb, if_true, List.map_cons, hab.ruleKey]
      exact congrArg _ ih
    · simp only [hb, Bool.false_eq_true, if_false]
      exact ih

theorem counted_agree (h : List.Forall₂ Agree as bs) :
    as.map (fun e => (e.ruleKey, e.counted)) = bs.map (fun e => (e.ruleKey, e.counted)) := by
  induction h with
  | nil => rfl
  | cons hab _ ih => rw [List.map_cons, List.map_cons, hab.ruleKey, hab.counted, ih]

theorem keys_agree (h : List.Forall₂ Agree as bs) :
    as.map BreakdownError.ruleKey = bs.map BreakdownError.ruleKey := by
  induction h with
  | nil => rfl
  | cons hab _ ih => rw [List.map_cons, List.map_cons, hab.ruleKey, ih]

theorem exists_scored_partner (h : List.Forall₂ Agree as bs) {key : String}
    (hk : key ∈ scoredKeysOf bs) :
    ∃ a ∈ as, ∃ b ∈ bs, b.ruleKey = key ∧ a.toScoringRule = b.toScoringRule := by
  induction h with
  | nil => simp [scoredKeysOf] at hk
  | @cons a b as bs hab _ ih =>
    rw [scoredKeysOf, List.mem_map] at hk
    obtain ⟨x, hx, rfl⟩ := hk
    rw [List.mem_filter] at hx
    rcases List.mem_cons.1 hx.1 with rfl | hmem
    · refine ⟨a, List.mem_cons_self, x, List.mem_cons_self, rfl, hab.rule ?_⟩
      rw [hab.isScored]
      exact hx.2
    · obtain ⟨a', ha', b', hb', hr⟩ :=
        ih (List.mem_map.2 ⟨x, List.mem_filter.2 ⟨hmem, hx.2⟩, rfl⟩)
      exact ⟨a', List.mem_cons_of_mem _ ha', b', List.mem_cons_of_mem _ hb', hr⟩

theorem scoringTable_agree [Number K] (hkeys : (input.rules.map RuleSnapshot.ruleKey).Nodup)
    (s : DeductionScore)
    (h : List.Forall₂ Agree as (errorsOf input (input.decisionInput.decisionOf s))) {key : String}
    (hk : key ∈ scoredKeysOf (errorsOf input (input.decisionInput.decisionOf s))) :
    (scoringTable (as.map BreakdownError.toScoringRule)).get? key =
      (scoringTable (input.used.map RuleSnapshot.toScoringRule)).get? key := by
  obtain ⟨a, ha, b, hb, rfl, hab⟩ := exists_scored_partner h hk
  have hnodup : (as.map BreakdownError.ruleKey).Nodup := by
    rw [keys_agree h, errorsOf_keys hkeys _ rfl]
    exact diagnose_errors_nodup (decisionInput_keys_nodup hkeys)
  obtain ⟨e, he, rfl⟩ := List.mem_map.1 hb
  obtain ⟨r, hr, hkr, _⟩ := exists_used_of_error he
  have hak : a.toScoringRule.ruleKey = r.ruleKey := by
    rw [hab]
    simp [BreakdownError.toScoringRule, ← hkr, ruleOf_of_used hkeys hr]
  have hleft : (scoringTable (as.map BreakdownError.toScoringRule)).get?
      a.toScoringRule.ruleKey = some a.toScoringRule := by
    rw [scoringTable]
    refine OrderedMap.get?_ofList_of_nodup ?_
      (List.mem_map.2 ⟨_, List.mem_map_of_mem ha, rfl⟩)
    simpa [List.map_map, Function.comp_def, BreakdownError.toScoringRule] using hnodup
  have hright : (scoringTable (input.used.map RuleSnapshot.toScoringRule)).get? r.ruleKey =
      some r.toScoringRule := by
    rw [scoringTable]
    refine OrderedMap.get?_ofList_of_nodup ?_
      (List.mem_map.2 ⟨_, List.mem_map_of_mem hr, rfl⟩)
    simpa [List.map_map, Function.comp_def, RuleSnapshot.toScoringRule] using
      used_keys_nodup hkeys
  simp only [← hkr, ruleOf_of_used hkeys hr] at hab ⊢
  rw [hak, hab] at hleft
  rw [hleft, hright]
  rfl

/-- Repricing a stored breakdown agrees with computing the score again
under the new prices: the same score, the same deductions of the criteria
and the same errors, counted alike. -/
theorem repriceBreakdown_eq_computeScore [Number K] (input : ScoreCoreInput K)
    (prices : OrderedMap String (Option Int)) (before : ScoreCoreOutput K)
    (hkeys : (input.rules.map RuleSnapshot.ruleKey).Nodup)
    (hbefore : input.computeScore = .ok before) (hgradable : before.outcome ≠ .ungradable) :
    ∃ repriced after,
      repriceBreakdown before.breakdown input.rubric prices = .ok repriced ∧
        (input.withPrices prices).computeScore = .ok after ∧
        after.outcome ≠ .ungradable ∧
        after.scoreHundredths = some repriced.scoreHundredths ∧
        repriced.breakdown.perCriterion = after.breakdown.perCriterion ∧
        repriced.breakdown.errors.map (fun e => (e.ruleKey, e.counted)) =
          after.breakdown.errors.map (fun e => (e.ruleKey, e.counted)) := by
  have hkeys' : ((input.withPrices prices).rules.map RuleSnapshot.ruleKey).Nodup := by
    rwa [keys_withPrices]
  rcases computeScore_cases hkeys with ⟨f, out, _, hout, hungr, _⟩ | ⟨s, score, hfloor, _, hout⟩
  · rw [hbefore, Except.ok.injEq] at hout
    exact absurd (hout ▸ hungr) hgradable
  rw [hbefore, Except.ok.injEq] at hout
  subst hout
  rcases computeScore_cases hkeys' with
    ⟨f, out, hfloor', _⟩ | ⟨s', score', hfloor', hscore', hafter⟩
  · rw [floor_of_withoutPrice (sameButPrices_withPrices input prices), hfloor] at hfloor'
    cases hfloor'
  have hagree := errorsOf_agree prices hkeys s s'
  have hscore : computeDeductionScore input.rubric
      (((errorsOf input (input.decisionInput.decisionOf s)).map (repriceError prices)).map
        BreakdownError.toScoringRule)
      (scoredKeysOf ((errorsOf input (input.decisionInput.decisionOf s)).map
        (repriceError prices))) = .ok score' := by
    rw [scoredKeysOf_agree hagree,
      computeDeductionScore_congr fun key hk => scoringTable_agree hkeys' s' hagree hk]
    exact hscore'
  obtain ⟨repriced, hrepriced, htotal, hper, herrors⟩ :=
    repriceBreakdown_of_score (input.breakdownOf (input.decisionInput.decisionOf s)
      (errorsOf input (input.decisionInput.decisionOf s)) score.perCriterion) hscore
  refine ⟨repriced, _, hrepriced, hafter, ?_, by rw [htotal], hper, ?_⟩
  · simp only [DecisionInput.decisionOf]
    split_ifs <;> simp
  · rw [herrors]
    exact counted_agree hagree

end Reprice

/-- A stored investigation with a failing case, a proposal of the model that
the teacher excluded, and one without a price. -/
def storedSample : ScoreCoreInput ℚ :=
  { stored :=
      { result := { failingPaper.result with
          verdict := some ⟨[⟨"naming", ["tc-2"]⟩, ⟨"comments", ["tc-2"]⟩], []⟩ }
        rulesSeen := [⟨"naming", .model⟩, ⟨"comments", .model⟩]
        ruleTable := [⟨"naming", .model⟩, ⟨"comments", .model⟩]
        modelCeiling := 0.6
        challenge := none }
    bundleCases := failingPaper.bundle
    rubric := [⟨"correctness", 100⟩, ⟨"style", 50⟩]
    rules :=
      [⟨"r1", "v1", "edge-cases", "correctness", some (.testGroupFailed "edge"), some 40⟩,
        ⟨"r2", "v1", "naming", "style", none, some 20⟩,
        ⟨"r3", "v1", "comments", "style", none, none⟩]
    waivedCriteria := []
    exceptions := .ofList [("r2", .exclude)]
    theta := 0.7
    rulerTrust := none
    autoBlockedRuleKeys := none
    autoNoErrorEnabled := none }

/-- Prices under which one rule loses its price and another one gets one. -/
def newPrices : OrderedMap String (Option Int) :=
  .ofList [("r1", none), ("r2", some 30), ("r3", some 70)]

theorem storedSample_repriced :
    ∃ before repriced after, storedSample.computeScore = .ok before ∧
      before.scoreHundredths = some 110 ∧
      repriceBreakdown before.breakdown storedSample.rubric newPrices = .ok repriced ∧
      (storedSample.withPrices newPrices).computeScore = .ok after ∧
      after.scoreHundredths = some repriced.scoreHundredths := by
  have hrun : storedSample.computeScore.toOption.map
      (fun out => (out.outcome, out.scoreHundredths)) = some (.flagged, some 110) := by
    decide +kernel
  have hkeys : (storedSample.rules.map RuleSnapshot.ruleKey).Nodup := by decide
  obtain ⟨before, hbefore⟩ := computeScore_isOk hkeys
  rw [hbefore] at hrun
  obtain ⟨houtcome, hscore⟩ := Prod.mk.inj (Option.some.inj hrun)
  obtain ⟨repriced, after, hrepriced, hafter, _, heq, _⟩ :=
    repriceBreakdown_eq_computeScore storedSample newPrices before hkeys hbefore
      (by rw [houtcome]; decide)
  exact ⟨before, repriced, after, hbefore, hscore, hrepriced, hafter, heq⟩

end Cine.Grading
