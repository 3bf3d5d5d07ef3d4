import Cine.Grading.Scoring.Reprice

/-!
# What a computation counts

Two computations of a paper agree when they have the same score and the
same errors, each with the same rule, criterion, price and way of counting.
`ScoreView` is that part of a computation; the id of the revision of a rule
is not in it.

`SameErrors.view_eq` is the one congruence: the view reads the diagnosed
errors and the rules of these errors.  The rest of the module says which
changes of the input keep both: the gates and the marked criteria, new
revision ids, the price of a rule that no error has, and a new rule in words
that the verdict does not name.
-/

namespace Cine.Grading

open Cine.Lib

variable {K : Type}

/-- An error without the revision of its rule. -/
def BreakdownError.sansRevision (e : BreakdownError) : BreakdownError :=
  { e with revisionId := "" }

def RuleSnapshot.sansRevision (r : RuleSnapshot) : RuleSnapshot :=
  { r with revisionId := "" }

/-- The score and the errors behind it. -/
structure ScoreView where
  score : Option Int
  errors : List BreakdownError
deriving DecidableEq, Repr

def ScoreCoreOutput.view (out : ScoreCoreOutput K) : ScoreView :=
  { score := out.scoreHundredths
    errors := out.breakdown.errors.map BreakdownError.sansRevision }

/-! ## The congruence -/

/-- Two inputs with the same errors and the same rules of these errors. -/
structure SameErrors (a b : ScoreCoreInput K) : Prop where
  stored : a.stored = b.stored
  bundleCases : a.bundleCases = b.bundleCases
  rubric : a.rubric = b.rubric
  exceptions : a.exceptions = b.exceptions
  keys_left : (a.rules.map RuleSnapshot.ruleKey).Nodup
  keys_right : (b.rules.map RuleSnapshot.ruleKey).Nodup
  errors : a.decisionInput.errors = b.decisionInput.errors
  rules : ∀ e ∈ a.decisionInput.errors,
    (ruleOf a e.ruleKey).sansRevision = (ruleOf b e.ruleKey).sansRevision

theorem ruleOf_of_error {input : ScoreCoreInput K}
    (hkeys : (input.rules.map RuleSnapshot.ruleKey).Nodup) {e : DiagnosedError}
    (he : e ∈ input.decisionInput.errors) :
    ruleOf input e.ruleKey ∈ input.used ∧ (ruleOf input e.ruleKey).ruleKey = e.ruleKey := by
  obtain ⟨r, hr, hk, _⟩ := exists_used_of_error he
  rw [← hk, ruleOf_of_used hkeys hr]
  exact ⟨hr, rfl⟩

theorem mem_exceptedKeys {input : ScoreCoreInput K}
    (hkeys : (input.rules.map RuleSnapshot.ruleKey).Nodup) {r : RuleSnapshot}
    (hr : r ∈ input.used) (x : ErrorException) :
    r.ruleKey ∈ input.exceptedKeys x ↔ input.exceptions.get? r.ruleId = some x := by
  rw [ScoreCoreInput.exceptedKeys, List.mem_map]
  constructor
  · rintro ⟨r', hr', hk⟩
    obtain ⟨hused, hx⟩ := List.mem_filter.1 hr'
    rw [← List.inj_on_of_nodup_map (used_keys_nodup hkeys) hused hr hk]
    exact of_decide_eq_true hx
  · intro hx
    exact ⟨r, List.mem_filter.2 ⟨hr, decide_eq_true hx⟩, rfl⟩

namespace SameErrors

variable {a b : ScoreCoreInput K}

variable {e : DiagnosedError}

theorem ruleId (h : SameErrors a b) (he : e ∈ a.decisionInput.errors) :
    (ruleOf a e.ruleKey).ruleId = (ruleOf b e.ruleKey).ruleId := by
  have hid := congrArg RuleSnapshot.ruleId (h.rules e he)
  exact hid

theorem toScoringRule (h : SameErrors a b) (he : e ∈ a.decisionInput.errors) :
    (ruleOf a e.ruleKey).toScoringRule = (ruleOf b e.ruleKey).toScoringRule := by
  have hrule := congrArg RuleSnapshot.toScoringRule (h.rules e he)
  exact hrule

theorem exceptedKeys (h : SameErrors a b) (he : e ∈ a.decisionInput.errors) (x : ErrorException) :
    e.ruleKey ∈ a.exceptedKeys x ↔ e.ruleKey ∈ b.exceptedKeys x := by
  obtain ⟨ha, hka⟩ := ruleOf_of_error h.keys_left he
  obtain ⟨hb, hkb⟩ := ruleOf_of_error h.keys_right (h.errors ▸ he)
  have hleft := mem_exceptedKeys h.keys_left ha x
  have hright := mem_exceptedKeys h.keys_right hb x
  rw [hka, h.ruleId he, h.exceptions] at hleft
  rw [hkb] at hright
  exact hleft.trans hright.symm

theorem refutedKeys (h : SameErrors a b) :
    a.decisionInput.refutedKeys = b.decisionInput.refutedKeys := by
  have hchallenge : a.decisionInput.challenge = b.decisionInput.challenge := by
    show a.stored.challenge = b.stored.challenge
    rw [h.stored]
  rw [DecisionInput.refutedKeys, DecisionInput.refutedKeys, DecisionInput.challengedKeys,
    DecisionInput.challengedKeys, hchallenge, h.errors]

variable [Number K]

theorem countedOf (h : SameErrors a b) (s s' : DeductionScore) (he : e ∈ a.decisionInput.errors) :
    a.countedOf (a.decisionInput.decisionOf s) (ruleOf a e.ruleKey) =
      b.countedOf (b.decisionInput.decisionOf s') (ruleOf b e.ruleKey) := by
  have hka := (ruleOf_of_error h.keys_left he).2
  have hkb := (ruleOf_of_error h.keys_right (h.errors ▸ he)).2
  have hexcluded : e.ruleKey ∈ a.excludedKeys ↔ e.ruleKey ∈ b.excludedKeys :=
    h.exceptedKeys he .exclude
  have hincluded : e.ruleKey ∈ a.includedKeys ↔ e.ruleKey ∈ b.includedKeys :=
    h.exceptedKeys he .include
  have hprice : (ruleOf a e.ruleKey).deductionHundredths =
      (ruleOf b e.ruleKey).deductionHundredths := by
    have hrule := congrArg RuleSnapshot.deductionHundredths (h.rules e he)
    exact hrule
  have hrefuted : e.ruleKey ∈ a.refutedKeys (a.decisionInput.decisionOf s) ↔
      e.ruleKey ∈ b.refutedKeys (b.decisionInput.decisionOf s') := by
    rw [ScoreCoreInput.refutedKeys, ScoreCoreInput.refutedKeys, decidedRefuted_decisionOf,
      decidedRefuted_decisionOf, h.refutedKeys, List.mem_filter, List.mem_filter,
      decide_eq_true_iff, decide_eq_true_iff, hexcluded, hincluded]
  rw [ScoreCoreInput.countedOf, ScoreCoreInput.countedOf, hka, hkb, hprice]
  simp only [hrefuted, hexcluded]

theorem errorsOf (h : SameErrors a b) (s s' : DeductionScore) :
    (Grading.errorsOf a (a.decisionInput.decisionOf s)).map BreakdownError.sansRevision =
      (Grading.errorsOf b (b.decisionInput.decisionOf s')).map BreakdownError.sansRevision := by
  rw [Grading.errorsOf, Grading.errorsOf, List.map_map, List.map_map]
  have herrors : (b.decisionInput.decisionOf s').errors = (a.decisionInput.decisionOf s).errors :=
    h.errors.symm
  rw [herrors]
  refine List.map_congr_left fun e he => ?_
  have hrule := h.rules e he
  simp only [Function.comp_apply, BreakdownError.sansRevision, h.countedOf s s' he]
  simp only [RuleSnapshot.sansRevision, RuleSnapshot.mk.injEq] at hrule
  obtain ⟨hid, _, hkey, hcriterion, _, hprice⟩ := hrule
  rw [hid, hkey, hcriterion, hprice]

theorem scoredKeysOf_sansRevision (errors : List BreakdownError) :
    scoredKeysOf errors = scoredKeysOf (errors.map BreakdownError.sansRevision) := by
  rw [scoredKeysOf, scoredKeysOf, List.filter_map, List.map_map]
  rfl

theorem view_eq (h : SameErrors a b) {out out' : ScoreCoreOutput K}
    (ha : a.computeScore = .ok out) (hb : b.computeScore = .ok out') : out.view = out'.view := by
  have hfloor : a.decisionInput.floor = b.decisionInput.floor := by
    refine floor_congr rfl ?_ h.bundleCases (by rw [h.errors])
    show a.stored.result = b.stored.result
    rw [h.stored]
  rcases computeScore_cases h.keys_left with ⟨f, o, hf, hout, _, hscore, hnil⟩ |
    ⟨s, score, hf, hscore, hout⟩
  · rcases computeScore_cases h.keys_right with ⟨f', o', _, hout', _, hscore', hnil'⟩ |
      ⟨s', score', hf', _⟩
    · rw [ha, Except.ok.injEq] at hout
      rw [hb, Except.ok.injEq] at hout'
      subst hout hout'
      rw [ScoreCoreOutput.view, ScoreCoreOutput.view, hscore, hscore', hnil, hnil']
    · rw [hfloor, hf'] at hf
      cases hf
  · rcases computeScore_cases h.keys_right with ⟨f', o', hf', _⟩ |
      ⟨s', score', _, hscore', hout'⟩
    · rw [hfloor, hf'] at hf
      cases hf
    · rw [ha, Except.ok.injEq] at hout
      rw [hb, Except.ok.injEq] at hout'
      have hkeys := congrArg scoredKeysOf (h.errorsOf s s')
      rw [← scoredKeysOf_sansRevision, ← scoredKeysOf_sansRevision] at hkeys
      have htable : computeDeductionScore a.rubric (a.used.map RuleSnapshot.toScoringRule)
            (scoredKeysOf (Grading.errorsOf a (a.decisionInput.decisionOf s))) =
          computeDeductionScore b.rubric (b.used.map RuleSnapshot.toScoringRule)
            (scoredKeysOf (Grading.errorsOf b (b.decisionInput.decisionOf s'))) := by
        rw [← hkeys, h.rubric]
        refine computeDeductionScore_congr fun k hk => ?_
        obtain ⟨e, he, rfl⟩ := exists_error_of_scoredKey h.keys_left rfl hk
        obtain ⟨hused, hkey⟩ := ruleOf_of_error h.keys_left he
        obtain ⟨hused', hkey'⟩ := ruleOf_of_error h.keys_right (h.errors ▸ he)
        have hleft := scoringTable_of_used h.keys_left hused
        have hright := scoringTable_of_used h.keys_right hused'
        rw [hkey] at hleft
        rw [hkey'] at hright
        rw [hleft, hright, h.toScoringRule he]
      rw [hscore, hscore'] at htable
      have hs : score = score' := Except.ok.inj htable
      subst hout hout' hs
      rw [ScoreCoreOutput.view, ScoreCoreOutput.view]
      simp only [ScoreView.mk.injEq, true_and]
      exact h.errorsOf s s'

end SameErrors

/-! ## Changes that keep the view -/

section Changes

variable {a b : ScoreCoreInput K}

theorem sameErrors_of_rules (hkeys : (a.rules.map RuleSnapshot.ruleKey).Nodup)
    (hstored : a.stored = b.stored) (hcases : a.bundleCases = b.bundleCases)
    (hrubric : a.rubric = b.rubric) (hrules : a.rules = b.rules)
    (hexceptions : a.exceptions = b.exceptions) : SameErrors a b := by
  have hused : a.used = b.used := by
    rw [ScoreCoreInput.used, ScoreCoreInput.used, ScoreCoreInput.matching,
      ScoreCoreInput.matching, hrules, hrubric]
    refine List.filter_congr fun r _ => ?_
    rw [ScoreCoreInput.considered, ScoreCoreInput.considered, ScoreCoreInput.ownModelRules,
      ScoreCoreInput.ownModelRules, hstored]
  refine ⟨hstored, hcases, hrubric, hexceptions, hkeys, hrules ▸ hkeys, ?_, fun e _ => ?_⟩
  · show (diagnose (a.used.map RuleSnapshot.toErrorRule) a.bundleCases a.stored.result).errors =
      (diagnose (b.used.map RuleSnapshot.toErrorRule) b.bundleCases b.stored.result).errors
    rw [hused, hcases, hstored]
  · rw [ruleOf, ruleOf, ScoreCoreInput.byKey, ScoreCoreInput.byKey, hused]

theorem deduction_of_error (hkeys : (a.rules.map RuleSnapshot.ruleKey).Nodup)
    {e : DiagnosedError} (he : e ∈ a.decisionInput.errors) :
    e.deductionHundredths = (ruleOf a e.ruleKey).deductionHundredths := by
  obtain ⟨r', hr', hk, _, hd⟩ := mem_diagnose_errors he
  obtain ⟨r, hr, rfl⟩ := List.mem_map.1 hr'
  rw [← hk, ← hd]
  show _ = (ruleOf a r.ruleKey).deductionHundredths
  rw [ruleOf_of_used hkeys hr]
  rfl

theorem errors_priced (hkeys : (a.rules.map RuleSnapshot.ruleKey).Nodup) :
    a.decisionInput.errors = (a.decisionInput.errors.map DiagnosedError.withoutPrice).map
      fun e => { e with deductionHundredths := (ruleOf a e.ruleKey).deductionHundredths } := by
  rw [List.map_map]
  refine (List.map_id _).symm.trans (List.map_congr_left fun e he => ?_)
  simp only [id_eq, Function.comp_apply, DiagnosedError.withoutPrice,
    ← deduction_of_error hkeys he]

/-- A change of every rule that keeps the fields which choose the rules and
find the errors. -/
structure ChangedBy (g : RuleSnapshot → RuleSnapshot) (a b : ScoreCoreInput K) : Prop where
  stored : a.stored = b.stored
  bundleCases : a.bundleCases = b.bundleCases
  rubric : a.rubric = b.rubric
  exceptions : a.exceptions = b.exceptions
  rules : b.rules = a.rules.map g
  ruleKey : ∀ r, (g r).ruleKey = r.ruleKey
  criterionKey : ∀ r, (g r).criterionKey = r.criterionKey
  predicate : ∀ r, (g r).predicate = r.predicate

namespace ChangedBy

variable {g : RuleSnapshot → RuleSnapshot}

theorem used (h : ChangedBy g a b) : b.used = a.used.map g := by
  rw [ScoreCoreInput.used, ScoreCoreInput.used, ScoreCoreInput.matching,
    ScoreCoreInput.matching, h.rules, List.filter_map, List.filter_map, ← h.rubric]
  congr 1
  have hmatching : ((fun r : RuleSnapshot =>
      decide (r.criterionKey ∈ a.rubric.map RubricCriterion.key)) ∘ g) =
        fun r => decide (r.criterionKey ∈ a.rubric.map RubricCriterion.key) := by
    funext r
    rw [Function.comp_apply, h.criterionKey]
  rw [hmatching]
  refine List.filter_congr fun r _ => ?_
  rw [Function.comp_apply, ScoreCoreInput.considered, ScoreCoreInput.considered,
    ScoreCoreInput.ownModelRules, ScoreCoreInput.ownModelRules, h.stored, h.ruleKey, h.predicate]

theorem keys (h : ChangedBy g a b) (hkeys : (a.rules.map RuleSnapshot.ruleKey).Nodup) :
    (b.rules.map RuleSnapshot.ruleKey).Nodup := by
  have hmap : (a.rules.map g).map RuleSnapshot.ruleKey = a.rules.map RuleSnapshot.ruleKey := by
    rw [List.map_map]
    exact List.map_congr_left fun r _ => h.ruleKey r
  rw [h.rules, hmap]
  exact hkeys

theorem ruleOf (h : ChangedBy g a b) (hkeys : (a.rules.map RuleSnapshot.ruleKey).Nodup)
    {e : DiagnosedError} (he : e ∈ a.decisionInput.errors) :
    Grading.ruleOf b e.ruleKey = g (Grading.ruleOf a e.ruleKey) := by
  obtain ⟨hu, hk⟩ := ruleOf_of_error hkeys he
  have hmem : g (Grading.ruleOf a e.ruleKey) ∈ b.used := by
    rw [h.used]
    exact List.mem_map_of_mem hu
  have hlookup := ruleOf_of_used (h.keys hkeys) hmem
  rwa [h.ruleKey, hk] at hlookup

theorem sameButPrices (h : ChangedBy g a b) : SameButPrices b.decisionInput a.decisionInput := by
  refine ⟨rfl, ?_, h.bundleCases.symm, ?_, ?_⟩
  · show b.stored.result = a.stored.result
    rw [h.stored]
  · show b.stored.challenge = a.stored.challenge
    rw [h.stored]
  · show (b.used.map RuleSnapshot.toErrorRule).map ErrorRule.withoutPrice =
      (a.used.map RuleSnapshot.toErrorRule).map ErrorRule.withoutPrice
    rw [h.used, List.map_map, List.map_map, List.map_map]
    refine List.map_congr_left fun r _ => ?_
    simp only [Function.comp_apply, RuleSnapshot.toErrorRule, ErrorRule.withoutPrice, h.ruleKey,
      h.criterionKey, h.predicate]

theorem sameErrors (h : ChangedBy g a b) (hkeys : (a.rules.map RuleSnapshot.ruleKey).Nodup)
    (herror : ∀ e ∈ a.decisionInput.errors,
      (Grading.ruleOf a e.ruleKey).sansRevision = (g (Grading.ruleOf a e.ruleKey)).sansRevision) :
    SameErrors a b := by
  refine ⟨h.stored, h.bundleCases, h.rubric, h.exceptions, hkeys, h.keys hkeys, ?_, ?_⟩
  · rw [errors_priced hkeys, errors_priced (h.keys hkeys),
      errors_of_withoutPrice h.sameButPrices]
    refine List.map_congr_left fun e he => ?_
    obtain ⟨e₀, he₀, rfl⟩ := List.mem_map.1 he
    have hprice : (Grading.ruleOf a e₀.ruleKey).deductionHundredths =
        (Grading.ruleOf b e₀.ruleKey).deductionHundredths := by
      rw [h.ruleOf hkeys he₀]
      have hrule := congrArg RuleSnapshot.deductionHundredths (herror e₀ he₀)
      exact hrule
    simp only [DiagnosedError.withoutPrice, hprice]
  · intro e he
    rw [h.ruleOf hkeys he]
    exact herror e he

variable [Number K]

theorem view_eq (h : ChangedBy g a b) (hkeys : (a.rules.map RuleSnapshot.ruleKey).Nodup)
    {out out' : ScoreCoreOutput K} (ha : a.computeScore = .ok out)
    (hb : b.computeScore = .ok out')
    (herror : ∀ r, (∃ e ∈ out.breakdown.errors, e.ruleId = r.ruleId) →
      r.sansRevision = (g r).sansRevision) : out.view = out'.view := by
  rcases computeScore_cases hkeys with ⟨f, o, hf, hout, _, hscore, hnil⟩ |
    ⟨s, score, _, _, hout⟩
  · rcases computeScore_cases (h.keys hkeys) with ⟨f', o', _, hout', _, hscore', hnil'⟩ |
      ⟨s', score', hf', _⟩
    · rw [ha, Except.ok.injEq] at hout
      rw [hb, Except.ok.injEq] at hout'
      subst hout hout'
      rw [ScoreCoreOutput.view, ScoreCoreOutput.view, hscore, hscore', hnil, hnil']
    · rw [← floor_of_withoutPrice h.sameButPrices, hf'] at hf
      cases hf
  · refine (h.sameErrors hkeys fun e he => herror _ ?_).view_eq ha hb
    rw [ha, Except.ok.injEq] at hout
    rw [hout]
    exact ⟨_, List.mem_map_of_mem he, rfl⟩

end ChangedBy

/-- Whether the verdict names a rule. -/
def StoredInvestigation.names (stored : StoredInvestigation K) (ruleKey : String) : Bool :=
  ((stored.result.verdict.map Verdict.errors).getD []).any fun v => v.ruleKey = ruleKey

theorem machineErrors_filter {p : ErrorRule → Bool} {rules : List ErrorRule}
    {bundle : List BundleCase} {inv : Investigation}
    (h : ∀ r ∈ rules, p r = false → isMachineChecked r.predicate = false) :
    machineErrors (rules.filter p) bundle inv = machineErrors rules bundle inv := by
  rw [machineErrors, machineErrors, List.filterMap_filter]
  refine List.filterMap_congr fun r hr => ?_
  split_ifs with hp
  · rfl
  · have hunchecked := h r hr (Bool.eq_false_iff.2 hp)
    rw [machineError]
    cases hpred : r.predicate with
    | none => rfl
    | some pr =>
      rw [hpred] at hunchecked
      simp [hunchecked]

theorem proposalLoop_congr {byKey byKey' : OrderedMap String ErrorRule} {toolCalls : List ToolCall}
    {es : List VerdictError} (h : ∀ v ∈ es, byKey.get? v.ruleKey = byKey'.get? v.ruleKey)
    (seen : List String) :
    proposalLoop byKey toolCalls es seen = proposalLoop byKey' toolCalls es seen := by
  induction es generalizing seen with
  | nil => rfl
  | cons v es ih =>
    have htail : ∀ seen, proposalLoop byKey toolCalls es seen =
        proposalLoop byKey' toolCalls es seen :=
      ih fun v' hv' => h v' (List.mem_cons_of_mem _ hv')
    rw [proposalLoop, proposalLoop, h v List.mem_cons_self]
    cases byKey'.get? v.ruleKey with
    | none => exact htail seen
    | some r => simp only [htail]

theorem diagnose_filter_ne {rules : List ErrorRule} {bundle : List BundleCase}
    {result : InvestigationResult K} {k : String}
    (hwords : ∀ r ∈ rules, r.ruleKey = k → isMachineChecked r.predicate = false)
    (hnamed : ∀ v ∈ (result.verdict.map Verdict.errors).getD [], v.ruleKey ≠ k) :
    (diagnose (rules.filter fun r => r.ruleKey ≠ k) bundle result).errors =
      (diagnose rules bundle result).errors := by
  by_cases hkind : result.kind = .verdict
  · have hmachine : machineErrors (rules.filter fun r => r.ruleKey ≠ k) bundle
        result.investigation = machineErrors rules bundle result.investigation := by
      refine machineErrors_filter fun r hr hp => hwords r hr ?_
      simpa using hp
    rw [diagnose_errors hkind, diagnose_errors hkind, hmachine]
    congr 2
    refine proposalLoop_congr (fun v hv => ?_) _
    have hlookup := OrderedMap.get?_ofList_filter_ne (hnamed v hv)
      (rules.map fun r => (r.ruleKey, r))
    rw [List.filter_map] at hlookup
    exact hlookup
  · rw [diagnose_of_not_verdict hkind, diagnose_of_not_verdict hkind]

theorem sameErrors_of_new_rule {k : String}
    (hkeys : (b.rules.map RuleSnapshot.ruleKey).Nodup)
    (hstored : a.stored = b.stored) (hcases : a.bundleCases = b.bundleCases)
    (hrubric : a.rubric = b.rubric) (hrules : a.rules = b.rules.filter fun r => r.ruleKey ≠ k)
    (hexceptions : a.exceptions = b.exceptions)
    (hwords : ∀ r ∈ b.rules, r.ruleKey = k → isMachineChecked r.predicate = false)
    (hharmless : ∀ r ∈ b.used, r.ruleKey = k → b.stored.names k = false) :
    SameErrors a b := by
  have hused : a.used = b.used.filter fun r => r.ruleKey ≠ k := by
    rw [ScoreCoreInput.used, ScoreCoreInput.used, ScoreCoreInput.matching,
      ScoreCoreInput.matching, hrules, hrubric]
    simp only [List.filter_filter]
    refine List.filter_congr fun r _ => ?_
    rw [ScoreCoreInput.considered, ScoreCoreInput.considered, ScoreCoreInput.ownModelRules,
      ScoreCoreInput.ownModelRules, hstored]
    ac_rfl
  have hsub : ∀ r ∈ a.used, r ∈ b.used := by
    intro r hr
    rw [hused] at hr
    exact (List.mem_filter.1 hr).1
  have hkeys' : (a.rules.map RuleSnapshot.ruleKey).Nodup := by
    rw [hrules]
    exact hkeys.sublist (List.filter_sublist.map _)
  refine ⟨hstored, hcases, hrubric, hexceptions, hkeys', hkeys, ?_, ?_⟩
  · show (diagnose (a.used.map RuleSnapshot.toErrorRule) a.bundleCases a.stored.result).errors =
      (diagnose (b.used.map RuleSnapshot.toErrorRule) b.bundleCases b.stored.result).errors
    by_cases hmem : ∃ r ∈ b.used, r.ruleKey = k
    · obtain ⟨r, hr, hk⟩ := hmem
      have hnames := hharmless r hr hk
      have hmap : a.used.map RuleSnapshot.toErrorRule =
          (b.used.map RuleSnapshot.toErrorRule).filter fun r => r.ruleKey ≠ k := by
        rw [hused, List.filter_map]
        rfl
      rw [hmap, hcases, hstored, diagnose_filter_ne]
      · intro r' hr' hk'
        obtain ⟨r₀, hr₀, rfl⟩ := List.mem_map.1 hr'
        exact hwords r₀ ((used_sublist b).subset hr₀) hk'
      · intro v hv
        rw [StoredInvestigation.names, List.any_eq_false] at hnames
        simpa using hnames v hv
    · have hall : b.used.filter (fun r => r.ruleKey ≠ k) = b.used := by
        refine List.filter_eq_self.2 fun r hr => ?_
        simpa using fun hk => hmem ⟨r, hr, hk⟩
      rw [hused, hall, hcases, hstored]
  · intro e he
    obtain ⟨hu, hk⟩ := ruleOf_of_error hkeys' he
    have hlookup := ruleOf_of_used hkeys (hsub _ hu)
    rw [hk] at hlookup
    rw [hlookup]

end Changes

end Cine.Grading
