import Cine.Grading.Decision.Safety

/-!
# The score of a paper

`grading/scoring/score-core.ts`.  The score is a function of the stored
investigation, the prices, the rubric and the exceptions of the teacher.

* `computeScore` chooses the rules that may be used, decides on them, and
  applies the exceptions afterwards: an excluded error stays in the record
  and leaves the score.
* `repriceBreakdown` puts new prices on a breakdown that is already there
  and reads nothing else.
* `computeScore_isOk` says that a recomputation never fails on a table with
  distinct keys: the rules outside the rubric are dropped before `decide`
  could throw on them.
-/

namespace Cine.Grading

open Cine.Lib

structure StoredInvestigation (K : Type) where
  result : InvestigationResult K
  rulesSeen : List RuleSeen
  ruleTable : List RuleSeen
  modelCeiling : K
  challenge : Option StoredChallenge

/-- A rule of the teacher in use, with its current revision and price. -/
structure RuleSnapshot where
  ruleId : String
  revisionId : String
  ruleKey : String
  criterionKey : String
  predicate : Option RulePredicate
  deductionHundredths : Option Int
deriving DecidableEq, Repr, Inhabited

/-- The last exception of a teacher for one error of a paper. -/
inductive ErrorException
  | exclude
  | include
deriving DecidableEq, Repr

structure ScoreCoreInput (K : Type) where
  stored : StoredInvestigation K
  bundleCases : List BundleCase
  rubric : List RubricCriterion
  rules : List RuleSnapshot
  waivedCriteria : List String
  exceptions : OrderedMap String ErrorException
  theta : K
  rulerTrust : Option RulerTrust
  autoBlockedRuleKeys : Option (List String)
  autoNoErrorEnabled : Option Bool

/-- How an error enters the score. -/
inductive Counted
  | counted
  | excluded
  | unpriced
  | refuted
deriving DecidableEq, Repr

structure BreakdownError where
  ruleId : String
  revisionId : String
  ruleKey : String
  criterionKey : String
  source : VerdictSource
  toolCallIds : List String
  deductionHundredths : Option Int
  counted : Counted
deriving DecidableEq, Repr

structure ScoreBreakdown (K : Type) where
  errors : List BreakdownError
  perCriterion : List CriterionScore
  caseFlags : List CaseFlag
  errorFlags : List ErrorFlag
  confidence : Option K
  /-- Rule id, rule key and criterion key of the rules outside the rubric. -/
  mismatchedRules : List (String × String × String)
  /-- Rule id and rule key of the model's rules outside the table of the paper. -/
  notConsidered : List (String × String)
  ungradable : Option Ungradable

structure ScoreCoreOutput (K : Type) where
  outcome : Outcome
  ungradable : Option Ungradable
  scoreHundredths : Option Int
  breakdown : ScoreBreakdown K

def RuleSnapshot.toErrorRule (r : RuleSnapshot) : ErrorRule :=
  { ruleKey := r.ruleKey
    criterionKey := r.criterionKey
    deductionHundredths := r.deductionHundredths
    predicate := r.predicate }

/-- The part of a rule that the score reads. -/
def RuleSnapshot.toScoringRule (r : RuleSnapshot) : ScoringRule :=
  { ruleKey := r.ruleKey
    criterionKey := r.criterionKey
    deductionHundredths := r.deductionHundredths }

/-- The part of an error that the score reads. -/
def BreakdownError.toScoringRule (e : BreakdownError) : ScoringRule :=
  { ruleKey := e.ruleKey
    criterionKey := e.criterionKey
    deductionHundredths := e.deductionHundredths }

/-- Whether the error enters the score, priced or not. -/
def BreakdownError.isScored (e : BreakdownError) : Bool :=
  e.counted ≠ .excluded ∧ e.counted ≠ .refuted

/-! ## The computation from the stored investigation -/

namespace ScoreCoreInput

variable {K : Type}

section Rules

variable (input : ScoreCoreInput K)

/-- The rules that point outside the rubric. -/
def mismatched : List RuleSnapshot :=
  input.rules.filter fun r => r.criterionKey ∉ input.rubric.map RubricCriterion.key

/-- The rules on a criterion of the rubric. -/
def matching : List RuleSnapshot :=
  input.rules.filter fun r => r.criterionKey ∈ input.rubric.map RubricCriterion.key

/-- The keys of the model's rules in the table of the paper. -/
def ownModelRules : List String :=
  (input.stored.ruleTable.filter (fun r => r.checkedBy = .model)).map RuleSeen.ruleKey

/-- A rule is considered when the machine checks it or when the table of the
paper had it as a rule of the model. -/
def considered (r : RuleSnapshot) : Bool :=
  isMachineChecked r.predicate || decide (r.ruleKey ∈ input.ownModelRules)

def notConsidered : List RuleSnapshot := input.matching.filter fun r => !input.considered r

def used : List RuleSnapshot := input.matching.filter input.considered

def byKey : OrderedMap String RuleSnapshot :=
  .ofList (input.used.map fun r => (r.ruleKey, r))

/-- What `decide` is asked. -/
def decisionInput : DecisionInput K :=
  { pipeline := .investigator
    result := input.stored.result
    bundle := input.bundleCases
    rubric := input.rubric
    rules := input.used.map RuleSnapshot.toErrorRule
    rulesSeen := input.stored.rulesSeen
    waivedCriteria := input.waivedCriteria
    modelCeiling := input.stored.modelCeiling
    theta := input.theta
    challenge := input.stored.challenge
    rulerTrust := input.rulerTrust
    autoBlockedRuleKeys := input.autoBlockedRuleKeys
    autoNoErrorEnabled := input.autoNoErrorEnabled }

/-- The keys of the used rules with the given exception. -/
def exceptedKeys (x : ErrorException) : List String :=
  (input.used.filter (fun r => input.exceptions.get? r.ruleId = some x)).map RuleSnapshot.ruleKey

def excludedKeys : List String := input.exceptedKeys .exclude

def includedKeys : List String := input.exceptedKeys .include

end Rules

section Exceptions

variable (input : ScoreCoreInput K) (decision : Decision K)

/-- The keys that `decide` reports as refuted. -/
def decidedRefuted : List String :=
  (decision.errorFlags.filter (fun f => f.code = .refuted)).map ErrorFlag.ruleKey

/-- An exception of the teacher wins over the challenge, so only the refuted
errors without an exception stay refuted. -/
def refutedKeys : List String :=
  (decidedRefuted decision).filter fun key =>
    key ∉ input.excludedKeys ∧ key ∉ input.includedKeys

/-- A refuted error that the teacher included and that has no price. -/
def revivedUnpriced : List ErrorFlag :=
  ((decidedRefuted decision).filter (fun key => key ∈ input.includedKeys ∧
      (input.byKey.get? key).any (·.deductionHundredths.isNone))).map (⟨·, .unpriced⟩)

/-- The flags of the errors after the exceptions. -/
def errorFlags : List ErrorFlag :=
  decision.errorFlags.filter (fun f => f.ruleKey ∉ input.excludedKeys ∧
      ¬ (f.code = .refuted ∧ f.ruleKey ∈ input.includedKeys)) ++
    input.revivedUnpriced decision

/-- The breakdown of an outcome, from its errors and its criteria. -/
def breakdownOf (errors : List BreakdownError) (perCriterion : List CriterionScore) :
    ScoreBreakdown K :=
  { errors := errors
    perCriterion := perCriterion
    caseFlags := decision.caseFlags
    errorFlags := input.errorFlags decision
    confidence := decision.confidence
    mismatchedRules := input.mismatched.map fun r => (r.ruleId, r.ruleKey, r.criterionKey)
    notConsidered := input.notConsidered.map fun r => (r.ruleId, r.ruleKey)
    ungradable := if decision.outcome = .ungradable then decision.ungradable else none }

/-- How the error of the rule `r` enters the score. -/
def countedOf (r : RuleSnapshot) : Counted :=
  if r.ruleKey ∈ input.refutedKeys decision then .refuted
  else if r.ruleKey ∈ input.excludedKeys then .excluded
  else if r.deductionHundredths = none then .unpriced
  else .counted

/-- One error of the breakdown.  The source reads the rule of the error
without a check. -/
def breakdownError (e : DiagnosedError) : Except String BreakdownError :=
  match input.byKey.get? e.ruleKey with
  | none => .error "Cannot read properties of undefined (reading 'ruleKey')"
  | some r =>
    .ok
      { ruleId := r.ruleId
        revisionId := r.revisionId
        ruleKey := r.ruleKey
        criterionKey := r.criterionKey
        source := e.source
        toolCallIds := e.toolCallIds
        deductionHundredths := r.deductionHundredths
        counted := input.countedOf decision r }

end Exceptions

/-- The outcome, the score and the breakdown of a stored investigation. -/
def computeScore [Number K] (input : ScoreCoreInput K) : Except String (ScoreCoreOutput K) := do
  let decision ← input.decisionInput.decide
  if decision.outcome = .ungradable then
    return {
      outcome := .ungradable
      ungradable := decision.ungradable
      scoreHundredths := none
      breakdown := input.breakdownOf decision [] [] }
  let errors ← decision.errors.mapM (input.breakdownError decision)
  let score ← computeDeductionScore input.rubric (input.used.map RuleSnapshot.toScoringRule)
    ((errors.filter BreakdownError.isScored).map BreakdownError.ruleKey)
  return {
    outcome := decision.outcome
    ungradable := none
    scoreHundredths := some score.scoreHundredths
    breakdown := input.breakdownOf decision errors score.perCriterion }

end ScoreCoreInput

/-! ## New prices on a breakdown -/

/-- The price of a rule, `null` where the map has none. -/
def priceOf (prices : OrderedMap String (Option Int)) (ruleId : String) : Option Int :=
  (prices.get? ruleId).join

/-- One error under new prices: an excluded or refuted error stays as it is. -/
def repriceError (prices : OrderedMap String (Option Int)) (e : BreakdownError) :
    BreakdownError :=
  if e.isScored then
    let price := priceOf prices e.ruleId
    { e with
      deductionHundredths := price
      counted := if price = none then .unpriced else .counted }
  else e

structure Repriced (K : Type) where
  scoreHundredths : Int
  breakdown : ScoreBreakdown K
  /-- Rule id and rule key of the errors that lost their price. -/
  newlyUnpriced : List (String × String)

/-- The breakdown of the same errors under new prices. -/
def repriceBreakdown {K : Type} (before : ScoreBreakdown K) (rubric : List RubricCriterion)
    (prices : OrderedMap String (Option Int)) : Except String (Repriced K) := do
  let errors := before.errors.map (repriceError prices)
  let score ← computeDeductionScore rubric (errors.map BreakdownError.toScoringRule)
    ((errors.filter BreakdownError.isScored).map BreakdownError.ruleKey)
  return {
    scoreHundredths := score.scoreHundredths
    breakdown := { before with
      errors := errors
      perCriterion := score.perCriterion
      errorFlags :=
        (errors.filter (fun e => e.counted = .unpriced)).map (fun e => ⟨e.ruleKey, .unpriced⟩) ++
          before.errorFlags.filter fun f => f.code = .refuted ∨ f.code = .unverified }
    newlyUnpriced :=
      ((errors.zip before.errors).filter (fun p =>
        p.1.counted = .unpriced ∧ p.2.counted ≠ .unpriced)).map fun p =>
          (p.1.ruleId, p.1.ruleKey) }

/-! ## A recomputation never fails -/

section Total

variable {K : Type} {input : ScoreCoreInput K}

theorem mapM_eq_ok {α β ε : Type} {f : α → Except ε β} {g : α → β} {l : List α}
    (h : ∀ a ∈ l, f a = .ok (g a)) : l.mapM f = .ok (l.map g) := by
  induction l with
  | nil => rfl
  | cons a l ih =>
    rw [List.mapM_cons, h a List.mem_cons_self, ih fun b hb => h b (List.mem_cons_of_mem _ hb)]
    rfl

theorem used_sublist (input : ScoreCoreInput K) : input.used.Sublist input.rules :=
  List.filter_sublist.trans List.filter_sublist

theorem used_keys_nodup (hkeys : (input.rules.map RuleSnapshot.ruleKey).Nodup) :
    (input.used.map RuleSnapshot.ruleKey).Nodup :=
  hkeys.sublist ((used_sublist input).map _)

variable {r : RuleSnapshot}

theorem criterion_mem_of_used (hr : r ∈ input.used) :
    r.criterionKey ∈ input.rubric.map RubricCriterion.key := by
  have hm := (List.mem_filter.1 hr).1
  simpa using (List.mem_filter.1 hm).2

theorem byKey_get? (hkeys : (input.rules.map RuleSnapshot.ruleKey).Nodup) (hr : r ∈ input.used) :
    input.byKey.get? r.ruleKey = some r := by
  refine OrderedMap.get?_ofList_of_nodup ?_ (List.mem_map.2 ⟨r, hr, rfl⟩)
  simpa [List.map_map, Function.comp_def] using used_keys_nodup hkeys

theorem decisionInput_keys_nodup (hkeys : (input.rules.map RuleSnapshot.ruleKey).Nodup) :
    (input.decisionInput.rules.map ErrorRule.ruleKey).Nodup := by
  simpa [ScoreCoreInput.decisionInput, List.map_map, Function.comp_def,
    RuleSnapshot.toErrorRule] using used_keys_nodup hkeys

theorem exists_used_of_error {e : DiagnosedError} (he : e ∈ input.decisionInput.errors) :
    ∃ r ∈ input.used, r.ruleKey = e.ruleKey ∧ r.criterionKey = e.criterionKey := by
  obtain ⟨r', hr', hk, hc, _⟩ := mem_diagnose_errors he
  obtain ⟨r, hr, rfl⟩ := List.mem_map.1 hr'
  exact ⟨r, hr, hk, hc⟩

/-- The used rule of a key. -/
def ruleOf (input : ScoreCoreInput K) (key : String) : RuleSnapshot :=
  (input.byKey.get? key).getD default

theorem ruleOf_of_used (hkeys : (input.rules.map RuleSnapshot.ruleKey).Nodup) (hr : r ∈ input.used) :
    ruleOf input r.ruleKey = r := by
  rw [ruleOf, byKey_get? hkeys hr, Option.getD_some]

def errorsOf (input : ScoreCoreInput K) (decision : Decision K) : List BreakdownError :=
  decision.errors.map fun e =>
    let r := ruleOf input e.ruleKey
    { ruleId := r.ruleId
      revisionId := r.revisionId
      ruleKey := r.ruleKey
      criterionKey := r.criterionKey
      source := e.source
      toolCallIds := e.toolCallIds
      deductionHundredths := r.deductionHundredths
      counted := input.countedOf decision r }

/-- The keys of a list of errors that enter the score. -/
def scoredKeysOf (errors : List BreakdownError) : List String :=
  (errors.filter BreakdownError.isScored).map BreakdownError.ruleKey

theorem repriceBreakdown_of_score (before : ScoreBreakdown K) {rubric : List RubricCriterion}
    {prices : OrderedMap String (Option Int)} {score : DeductionScore}
    (h : computeDeductionScore rubric
      ((before.errors.map (repriceError prices)).map BreakdownError.toScoringRule)
      (scoredKeysOf (before.errors.map (repriceError prices))) = .ok score) :
    ∃ repriced, repriceBreakdown before rubric prices = .ok repriced ∧
      repriced.scoreHundredths = score.scoreHundredths ∧
      repriced.breakdown.perCriterion = score.perCriterion ∧
      repriced.breakdown.errors = before.errors.map (repriceError prices) := by
  rw [repriceBreakdown]
  simp only [bind, Except.bind, pure, Except.pure]
  rw [← scoredKeysOf, h]
  exact ⟨_, rfl, rfl, rfl, rfl⟩

theorem errorsOf_keys (hkeys : (input.rules.map RuleSnapshot.ruleKey).Nodup)
    (decision : Decision K) (herrors : decision.errors = input.decisionInput.errors) :
    (errorsOf input decision).map BreakdownError.ruleKey =
      input.decisionInput.errors.map DiagnosedError.ruleKey := by
  rw [errorsOf, List.map_map, herrors]
  refine List.map_congr_left fun e he => ?_
  obtain ⟨r, hr, hk, _⟩ := exists_used_of_error he
  rw [Function.comp_apply, ← hk, ruleOf_of_used hkeys hr]

theorem scoringTable_of_used (hkeys : (input.rules.map RuleSnapshot.ruleKey).Nodup)
    (hr : r ∈ input.used) :
    (scoringTable (input.used.map RuleSnapshot.toScoringRule)).get? r.ruleKey =
      some r.toScoringRule := by
  rw [scoringTable]
  refine OrderedMap.get?_ofList_of_nodup ?_ ?_
  · simpa [List.map_map, Function.comp_def, RuleSnapshot.toScoringRule] using
      used_keys_nodup hkeys
  · exact List.mem_map.2 ⟨_, List.mem_map_of_mem hr, rfl⟩

theorem exists_error_of_scoredKey (hkeys : (input.rules.map RuleSnapshot.ruleKey).Nodup)
    {decision : Decision K} (herrors : decision.errors = input.decisionInput.errors)
    {key : String} (hk : key ∈ scoredKeysOf (errorsOf input decision)) :
    ∃ e ∈ input.decisionInput.errors, e.ruleKey = key := by
  have hmem : key ∈ (errorsOf input decision).map BreakdownError.ruleKey :=
    (List.filter_sublist.map _).subset hk
  rw [errorsOf_keys hkeys decision herrors] at hmem
  exact List.mem_map.1 hmem

theorem exists_deductionScore (hkeys : (input.rules.map RuleSnapshot.ruleKey).Nodup)
    (decision : Decision K) (herrors : decision.errors = input.decisionInput.errors) :
    ∃ score, computeDeductionScore input.rubric (input.used.map RuleSnapshot.toScoringRule)
      (scoredKeysOf (errorsOf input decision)) = .ok score := by
  rw [computeDeductionScore_isOk]
  intro key hk
  obtain ⟨e, he, rfl⟩ := exists_error_of_scoredKey hkeys herrors hk
  obtain ⟨r, hr, hkey, _⟩ := exists_used_of_error he
  refine ⟨r.toScoringRule, ?_, criterion_mem_of_used hr⟩
  rw [← hkey]
  exact scoringTable_of_used hkeys hr

variable [Number K]

theorem exists_decide (hkeys : (input.rules.map RuleSnapshot.ruleKey).Nodup) :
    ∃ d, input.decisionInput.decide = .ok d := by
  rw [decide_isOk (decisionInput_keys_nodup hkeys)]
  refine Or.inr fun e he _ => ?_
  obtain ⟨r, hr, _, hc⟩ := exists_used_of_error he
  rw [← hc]
  exact criterion_mem_of_used hr

theorem computeScore_of_floor {f : Floor} (hf : input.decisionInput.floor = some f) :
    input.computeScore = .ok
      { outcome := .ungradable
        ungradable := some (input.decisionInput.ungradableAt f)
        scoreHundredths := none
        breakdown := input.breakdownOf (input.decisionInput.flooredAt f) [] [] } := by
  rw [ScoreCoreInput.computeScore, DecisionInput.decide, hf]
  rfl

theorem computeScore_of_score (hkeys : (input.rules.map RuleSnapshot.ruleKey).Nodup)
    {s : DeductionScore} (hf : input.decisionInput.floor = none)
    (hs : input.decisionInput.score = .ok s) :
    let decision := input.decisionInput.decisionOf s
    let errors := errorsOf input decision
    ∃ score, computeDeductionScore input.rubric (input.used.map RuleSnapshot.toScoringRule)
        (scoredKeysOf errors) = .ok score ∧
      input.computeScore = .ok
        { outcome := decision.outcome
          ungradable := none
          scoreHundredths := some score.scoreHundredths
          breakdown := input.breakdownOf decision errors score.perCriterion } := by
  intro decision errors
  obtain ⟨score, hscore⟩ := exists_deductionScore hkeys decision rfl
  refine ⟨score, hscore, ?_⟩
  have hd : input.decisionInput.decide = .ok decision := by
    rw [DecisionInput.decide, hf, hs]
    rfl
  have hne : decision.outcome ≠ .ungradable := by
    simp only [decision, DecisionInput.decisionOf]
    split_ifs <;> simp
  have herrors : decision.errors.mapM (input.breakdownError decision) = .ok errors := by
    refine mapM_eq_ok fun e he => ?_
    obtain ⟨r, hr, hk, _⟩ := exists_used_of_error he
    rw [ScoreCoreInput.breakdownError, ← hk, byKey_get? hkeys hr, ruleOf_of_used hkeys hr]
  rw [ScoreCoreInput.computeScore, hd]
  simp only [bind, Except.bind, pure, Except.pure]
  rw [if_neg hne, herrors]
  simp only
  rw [← scoredKeysOf, hscore]

theorem computeScore_cases (hkeys : (input.rules.map RuleSnapshot.ruleKey).Nodup) :
    (∃ f out, input.decisionInput.floor = some f ∧ input.computeScore = .ok out ∧
        out.outcome = .ungradable ∧ out.scoreHundredths = none ∧ out.breakdown.errors = []) ∨
      ∃ s score, input.decisionInput.floor = none ∧
        let decision := input.decisionInput.decisionOf s
        let errors := errorsOf input decision
        computeDeductionScore input.rubric (input.used.map RuleSnapshot.toScoringRule)
            (scoredKeysOf errors) = .ok score ∧
          input.computeScore = .ok
            { outcome := decision.outcome
              ungradable := none
              scoreHundredths := some score.scoreHundredths
              breakdown := input.breakdownOf decision errors score.perCriterion } := by
  obtain ⟨d, hd⟩ := exists_decide hkeys
  rcases decide_cases hd with ⟨f, hf, rfl⟩ | ⟨s, hf, hs, rfl⟩
  · exact Or.inl ⟨f, _, hf, computeScore_of_floor hf, rfl, rfl, rfl⟩
  · obtain ⟨score, hscore, hcompute⟩ := computeScore_of_score hkeys hf hs
    exact Or.inr ⟨s, score, hf, hscore, hcompute⟩

theorem computeScore_isOk (hkeys : (input.rules.map RuleSnapshot.ruleKey).Nodup) :
    ∃ out, input.computeScore = .ok out := by
  rcases computeScore_cases hkeys with ⟨_, out, _, h, _⟩ | ⟨_, _, _, _, h⟩
  · exact ⟨out, h⟩
  · exact ⟨_, h⟩

end Total

end Cine.Grading
