import Cine.Grading.Scoring.RuleOrder

/-!
# Rules that a paper was not examined against

A rule that points outside the rubric, and a rule of the model that the
table of the paper did not have, are set aside before `decide` sees the
table.  Putting one in leaves the rules in use as they were
(`computeScore_insert`).  Reordering the table reorders the lists of the
outcome (`computeScore_perm`).
-/

namespace Cine.Grading

open Cine.Lib

variable {K : Type}

/-- `new` is `old` with `x` put in somewhere. -/
def Inserted {α : Type} (x : α) (old new : List α) : Prop :=
  ∃ front back, old = front ++ back ∧ new = front ++ x :: back

namespace ScoreCoreInput

variable (input : ScoreCoreInput K)

/-- The input with another table of rules. -/
def withRules (rules : List RuleSnapshot) : ScoreCoreInput K :=
  { input with rules }

/-- The paper was not examined against the rule. -/
def Unexamined (r : RuleSnapshot) : Prop :=
  r.criterionKey ∉ input.rubric.map RubricCriterion.key ∨
    (isMachineChecked r.predicate = false ∧ r.ruleKey ∉ input.ownModelRules)

end ScoreCoreInput

/-- The outcome with other lists of rules set aside. -/
def ScoreCoreOutput.settingAside (out : ScoreCoreOutput K)
    (mismatchedRules : List (String × String × String)) (notConsidered : List (String × String)) :
    ScoreCoreOutput K :=
  { out with breakdown := { out.breakdown with mismatchedRules, notConsidered } }

/-! ## One more rule -/

section Insert

variable {input : ScoreCoreInput K}

theorem filter_insert {α : Type} (p : α → Bool) (front back : List α) (a : α) :
    (front ++ a :: back).filter p =
      if p a then front.filter p ++ a :: back.filter p else (front ++ back).filter p := by
  rw [List.filter_append, List.filter_cons, List.filter_append]
  split_ifs <;> rfl

theorem computeScore_settingAside [Number K] {rules : List RuleSnapshot}
    (hused : (input.withRules rules).used = input.used) :
    (input.withRules rules).computeScore = input.computeScore.map fun out =>
      out.settingAside
        ((input.withRules rules).mismatched.map fun r => (r.ruleId, r.ruleKey, r.criterionKey))
        ((input.withRules rules).notConsidered.map fun r => (r.ruleId, r.ruleKey)) := by
  have hdecision : (input.withRules rules).decisionInput = input.decisionInput := by
    show { input.decisionInput with
      rules := (input.withRules rules).used.map RuleSnapshot.toErrorRule } = _
    rw [hused]
    rfl
  have hexcepted : (input.withRules rules).exceptedKeys = input.exceptedKeys := by
    funext x
    unfold ScoreCoreInput.exceptedKeys
    rw [hused]
    rfl
  have hbyKey : (input.withRules rules).byKey = input.byKey := by
    unfold ScoreCoreInput.byKey
    rw [hused]
  have hrefuted : ∀ d : Decision K,
      (input.withRules rules).refutedKeys d = input.refutedKeys d := by
    intro d
    unfold ScoreCoreInput.refutedKeys ScoreCoreInput.excludedKeys ScoreCoreInput.includedKeys
    rw [hexcepted]
  have hcounted : ∀ (d : Decision K) (r : RuleSnapshot),
      (input.withRules rules).countedOf d r = input.countedOf d r := by
    intro d r
    unfold ScoreCoreInput.countedOf ScoreCoreInput.excludedKeys
    rw [hrefuted, hexcepted]
  have herror : ∀ d : Decision K,
      (input.withRules rules).breakdownError d = input.breakdownError d := by
    intro d
    funext e
    unfold ScoreCoreInput.breakdownError
    rw [hbyKey]
    simp only [hcounted]
  have hflags : ∀ d : Decision K, (input.withRules rules).errorFlags d = input.errorFlags d := by
    intro d
    unfold ScoreCoreInput.errorFlags ScoreCoreInput.revivedUnpriced ScoreCoreInput.excludedKeys
      ScoreCoreInput.includedKeys
    rw [hexcepted, hbyKey]
  have hbreakdown : ∀ (d : Decision K) (errors : List BreakdownError)
      (perCriterion : List CriterionScore),
      (input.withRules rules).breakdownOf d errors perCriterion =
        { input.breakdownOf d errors perCriterion with
          mismatchedRules := (input.withRules rules).mismatched.map fun r =>
            (r.ruleId, r.ruleKey, r.criterionKey)
          notConsidered := (input.withRules rules).notConsidered.map fun r =>
            (r.ruleId, r.ruleKey) } := by
    intro d errors perCriterion
    unfold ScoreCoreInput.breakdownOf
    rw [hflags]
  unfold ScoreCoreInput.computeScore
  rw [hdecision]
  cases input.decisionInput.decide with
  | error e => rfl
  | ok d =>
    simp only [bind, Except.bind, pure, Except.pure]
    by_cases hungradable : d.outcome = .ungradable
    · rw [if_pos hungradable, if_pos hungradable, hbreakdown]
      rfl
    · rw [if_neg hungradable, if_neg hungradable, herror]
      cases d.errors.mapM (input.breakdownError d) with
      | error e => rfl
      | ok errors =>
        have hrubric : (input.withRules rules).rubric = input.rubric := rfl
        simp only
        rw [hused, hrubric]
        cases computeDeductionScore input.rubric (input.used.map RuleSnapshot.toScoringRule)
            ((errors.filter BreakdownError.isScored).map BreakdownError.ruleKey) with
        | error e => rfl
        | ok score =>
          simp only [Except.map, hbreakdown]
          rfl

theorem computeScore_insert [Number K] {front back : List RuleSnapshot} {r : RuleSnapshot}
    (hrules : input.rules = front ++ back) (hr : input.Unexamined r) :
    ∃ mismatchedRules notConsidered,
      (input.withRules (front ++ r :: back)).computeScore =
          input.computeScore.map (·.settingAside mismatchedRules notConsidered) ∧
        ((Inserted (r.ruleId, r.ruleKey, r.criterionKey)
              (input.mismatched.map fun r => (r.ruleId, r.ruleKey, r.criterionKey))
              mismatchedRules ∧
            notConsidered = input.notConsidered.map fun r => (r.ruleId, r.ruleKey)) ∨
          (mismatchedRules = (input.mismatched.map fun r =>
              (r.ruleId, r.ruleKey, r.criterionKey)) ∧
            Inserted (r.ruleId, r.ruleKey)
              (input.notConsidered.map fun r => (r.ruleId, r.ruleKey)) notConsidered)) := by
  set keys := input.rubric.map RubricCriterion.key with hkeys
  have hmatching : (input.withRules (front ++ r :: back)).matching =
      (front ++ r :: back).filter fun r => r.criterionKey ∈ keys := rfl
  have hmatching' : input.matching = (front ++ back).filter fun r => r.criterionKey ∈ keys := by
    rw [← hrules]
    rfl
  have hmismatched : (input.withRules (front ++ r :: back)).mismatched =
      (front ++ r :: back).filter fun r => r.criterionKey ∉ keys := rfl
  have hmismatched' : input.mismatched =
      (front ++ back).filter fun r => r.criterionKey ∉ keys := by
    rw [← hrules]
    rfl
  by_cases hcriterion : r.criterionKey ∈ keys
  · -- The rule is on the rubric, so it is one that the table of the paper did not have.
    have hunknown : input.considered r = false := by
      rcases hr with hout | ⟨hmachine, hown⟩
      · exact absurd hcriterion hout
      · rw [ScoreCoreInput.considered, hmachine, decide_eq_false hown]
        rfl
    rw [filter_insert, if_pos (decide_eq_true hcriterion)] at hmatching
    rw [filter_insert, if_neg (by simp [hcriterion])] at hmismatched
    have hused : (input.withRules (front ++ r :: back)).used = input.used := by
      unfold ScoreCoreInput.used
      show List.filter input.considered _ = _
      rw [hmatching, filter_insert, if_neg (by rw [hunknown]; exact Bool.false_ne_true),
        hmatching']
      simp only [List.filter_append]
    refine ⟨_, _, computeScore_settingAside hused, Or.inr ⟨?_, ?_⟩⟩
    · rw [hmismatched, hmismatched']
    · unfold ScoreCoreInput.notConsidered
      show Inserted _ _ (List.map _ (List.filter (fun r => !input.considered r) _))
      rw [hmatching, hmatching', filter_insert, if_pos (by rw [hunknown]; rfl),
        List.filter_append, List.filter_append, List.map_append, List.map_append, List.map_cons]
      exact ⟨_, _, rfl, rfl⟩
  · rw [filter_insert, if_neg (by simp [hcriterion])] at hmatching
    rw [filter_insert, if_pos (by simp [hcriterion])] at hmismatched
    have hsame : (input.withRules (front ++ r :: back)).matching = input.matching := by
      rw [hmatching, hmatching']
    have hused : (input.withRules (front ++ r :: back)).used = input.used := by
      unfold ScoreCoreInput.used
      rw [hsame]
      rfl
    refine ⟨_, _, computeScore_settingAside hused, Or.inl ⟨?_, ?_⟩⟩
    · rw [hmismatched, hmismatched', List.filter_append, List.map_append, List.map_append,
        List.map_cons]
      exact ⟨_, _, rfl, rfl⟩
    · unfold ScoreCoreInput.notConsidered
      rw [hsame]
      rfl

end Insert

/-! ## Another order -/

/-- Two outcomes that differ at most in the order of their lists, and of the
gaps that a flag names. -/
structure ScoreCoreOutput.SameUpToOrder (out out' : ScoreCoreOutput K) : Prop where
  outcome : out.outcome = out'.outcome
  ungradable : out.ungradable = out'.ungradable
  score : out.scoreHundredths = out'.scoreHundredths
  errors : out.breakdown.errors.Perm out'.breakdown.errors
  perCriterion : out.breakdown.perCriterion = out'.breakdown.perCriterion
  caseFlags : SameFlags out.breakdown.caseFlags out'.breakdown.caseFlags
  errorFlags : out.breakdown.errorFlags.Perm out'.breakdown.errorFlags
  confidence : out.breakdown.confidence = out'.breakdown.confidence
  mismatchedRules : out.breakdown.mismatchedRules.Perm out'.breakdown.mismatchedRules
  notConsidered : out.breakdown.notConsidered.Perm out'.breakdown.notConsidered
  reason : out.breakdown.ungradable = out'.breakdown.ungradable

section Order

variable {input : ScoreCoreInput K} {rules' : List RuleSnapshot}

theorem used_perm (h : input.rules.Perm rules') :
    input.used.Perm (input.withRules rules').used :=
  (h.filter _).filter _

theorem exceptedKeys_perm (h : input.rules.Perm rules') (x : ErrorException) :
    (input.exceptedKeys x).Perm ((input.withRules rules').exceptedKeys x) :=
  ((used_perm h).filter _).map _

theorem byKey_perm (hkeys : (input.rules.map RuleSnapshot.ruleKey).Nodup)
    (h : input.rules.Perm rules') (k : String) :
    input.byKey.get? k = (input.withRules rules').byKey.get? k := by
  refine OrderedMap.get?_ofList_perm ?_ ((used_perm h).map _) k
  simpa [List.map_map, Function.comp_def] using used_keys_nodup hkeys

theorem ruleOf_perm (hkeys : (input.rules.map RuleSnapshot.ruleKey).Nodup)
    (h : input.rules.Perm rules') (k : String) :
    ruleOf input k = ruleOf (input.withRules rules') k := by
  rw [ruleOf, ruleOf, byKey_perm hkeys h]

theorem setAside_perm (h : input.rules.Perm rules') :
    input.mismatched.Perm (input.withRules rules').mismatched ∧
      input.notConsidered.Perm (input.withRules rules').notConsidered :=
  ⟨h.filter _, (h.filter _).filter _⟩

variable {d d' : Decision K}

theorem refutedKeys_perm (h : input.rules.Perm rules') (hflags : d.errorFlags.Perm d'.errorFlags) :
    (input.refutedKeys d).Perm ((input.withRules rules').refutedKeys d') := by
  have hrefuted : (ScoreCoreInput.decidedRefuted d).Perm (ScoreCoreInput.decidedRefuted d') :=
    (hflags.filter _).map _
  refine (hrefuted.filter _).trans (.of_eq (List.filter_congr fun key _ => ?_))
  have hexcluded : key ∈ input.excludedKeys ↔ key ∈ (input.withRules rules').excludedKeys :=
    (exceptedKeys_perm h .exclude).mem_iff
  have hincluded : key ∈ input.includedKeys ↔ key ∈ (input.withRules rules').includedKeys :=
    (exceptedKeys_perm h .include).mem_iff
  rw [decide_eq_decide, hexcluded, hincluded]

theorem errorFlags_perm (hkeys : (input.rules.map RuleSnapshot.ruleKey).Nodup)
    (h : input.rules.Perm rules') (hflags : d.errorFlags.Perm d'.errorFlags) :
    (input.errorFlags d).Perm ((input.withRules rules').errorFlags d') := by
  have hexcluded : ∀ key, key ∈ input.excludedKeys ↔
      key ∈ (input.withRules rules').excludedKeys :=
    fun key => (exceptedKeys_perm h .exclude).mem_iff
  have hincluded : ∀ key, key ∈ input.includedKeys ↔
      key ∈ (input.withRules rules').includedKeys :=
    fun key => (exceptedKeys_perm h .include).mem_iff
  have hrefuted : (ScoreCoreInput.decidedRefuted d).Perm (ScoreCoreInput.decidedRefuted d') :=
    (hflags.filter _).map _
  unfold ScoreCoreInput.errorFlags ScoreCoreInput.revivedUnpriced
  simp only [hexcluded, hincluded, byKey_perm hkeys h]
  exact (hflags.filter _).append ((hrefuted.filter _).map _)

theorem countedOf_perm (h : input.rules.Perm rules') (hflags : d.errorFlags.Perm d'.errorFlags)
    (r : RuleSnapshot) : input.countedOf d r = (input.withRules rules').countedOf d' r := by
  have hrefuted : r.ruleKey ∈ input.refutedKeys d ↔
      r.ruleKey ∈ (input.withRules rules').refutedKeys d' := (refutedKeys_perm h hflags).mem_iff
  have hexcluded : r.ruleKey ∈ input.excludedKeys ↔
      r.ruleKey ∈ (input.withRules rules').excludedKeys := (exceptedKeys_perm h .exclude).mem_iff
  unfold ScoreCoreInput.countedOf
  simp only [hrefuted, hexcluded]

theorem errorsOf_perm (hkeys : (input.rules.map RuleSnapshot.ruleKey).Nodup)
    (h : input.rules.Perm rules') (herrors : d.errors.Perm d'.errors)
    (hflags : d.errorFlags.Perm d'.errorFlags) :
    (errorsOf input d).Perm (errorsOf (input.withRules rules') d') := by
  unfold errorsOf
  simp only [ruleOf_perm hkeys h, countedOf_perm h hflags]
  exact herrors.map _

theorem pricesExact_used
    (hprices : (input.rules.map fun r => max 0 (r.deductionHundredths.getD 0)).sum ≤ 2 ^ 53) :
    DecisionInput.PricesExact input.decisionInput.rules := by
  have hsub := (used_sublist input).map fun r : RuleSnapshot =>
    max 0 (r.deductionHundredths.getD 0)
  have hle := (hsub.sum_le_sum fun d hd => by
    obtain ⟨r, _, rfl⟩ := List.mem_map.1 hd
    exact le_max_left 0 _).trans hprices
  show (((input.used.map RuleSnapshot.toErrorRule).map _).sum : Int) ≤ _
  rw [List.map_map]
  exact hle

theorem computeScore_perm [Number K] (hexact : ExactIntegers K)
    (hkeys : (input.rules.map RuleSnapshot.ruleKey).Nodup) (h : input.rules.Perm rules')
    (hprices : (input.rules.map fun r => max 0 (r.deductionHundredths.getD 0)).sum ≤ 2 ^ 53) :
    ∃ out out', input.computeScore = .ok out ∧
      (input.withRules rules').computeScore = .ok out' ∧ out.SameUpToOrder out' := by
  have hkeys' : ((input.withRules rules').rules.map RuleSnapshot.ruleKey).Nodup :=
    (h.map RuleSnapshot.ruleKey).nodup_iff.1 hkeys
  have hnd := decisionInput_keys_nodup hkeys
  have hperm : input.decisionInput.rules.Perm
      ((input.withRules rules').used.map RuleSnapshot.toErrorRule) := (used_perm h).map _
  have hdecision : (input.withRules rules').decisionInput = input.decisionInput.withRules
      ((input.withRules rules').used.map RuleSnapshot.toErrorRule) := rfl
  have hfloor := DecisionInput.floor_perm hnd hperm
  have haside := setAside_perm h
  obtain ⟨d, hd⟩ := exists_decide (K := K) hkeys
  obtain ⟨d', hd'⟩ := exists_decide (K := K) hkeys'
  rcases decide_cases hd with ⟨f, hf, -⟩ | ⟨s, hf, hs, -⟩
  · have hf' : (input.withRules rules').decisionInput.floor = some f := by
      rw [hdecision, ← hfloor, hf]
    refine ⟨_, _, computeScore_of_floor hf, computeScore_of_floor hf', ?_⟩
    exact ⟨rfl, rfl, rfl, .refl _, rfl, .of_perm (.refl _),
      errorFlags_perm hkeys h (d := input.decisionInput.flooredAt f) (.refl _), rfl,
      haside.1.map _, haside.2.map _, rfl⟩
  · rcases decide_cases hd' with ⟨f, hf', -⟩ | ⟨s', hf', hs', -⟩
    · rw [hdecision, ← hfloor, hf] at hf'
      cases hf'
    obtain ⟨score, hscore, hout⟩ := computeScore_of_score hkeys hf hs
    obtain ⟨score', hscore', hout'⟩ := computeScore_of_score hkeys' hf' hs'
    rw [hdecision] at hs'
    obtain ⟨htotal, -, hunpriced⟩ := DecisionInput.score_perm hnd hperm hs hs'
    have hsame := DecisionInput.decisionOf_perm hexact hnd hperm
      (pricesExact_used hprices) htotal hunpriced
    rw [hdecision] at hscore' hout'
    have herrors := errorsOf_perm hkeys h hsame.errors hsame.errorFlags
    have htable : ((input.used.map RuleSnapshot.toScoringRule).map ScoringRule.ruleKey).Nodup := by
      rw [List.map_map]
      exact used_keys_nodup hkeys
    obtain ⟨hpoints, hlines, -⟩ := computeDeductionScore_perm ((herrors.filter _).map _)
      (fun k _ => scoringTable_perm htable ((used_perm h).map _) k) hscore hscore'
    refine ⟨_, _, hout, hout', ?_⟩
    exact ⟨hsame.outcome, rfl, congrArg some hpoints, herrors, hlines, hsame.caseFlags,
      errorFlags_perm hkeys h hsame.errorFlags, hsame.confidence, haside.1.map _,
      haside.2.map _, by
        show (if _ then _ else _) = if _ then _ else _
        rw [hsame.outcome]
        rfl⟩

end Order

/-! ## The score of the examined rules -/

/-- A rule that the paper was not examined against is set aside and changes
nothing else, and the order of the rules shows in the order of the lists
only. -/
theorem score_of_examined_rules [Number K] (input : ScoreCoreInput K) :
    (∀ front r back, input.rules = front ++ back → input.Unexamined r →
      ∃ mismatchedRules notConsidered,
        (input.withRules (front ++ r :: back)).computeScore =
            input.computeScore.map (·.settingAside mismatchedRules notConsidered) ∧
          ((Inserted (r.ruleId, r.ruleKey, r.criterionKey)
                (input.mismatched.map fun r => (r.ruleId, r.ruleKey, r.criterionKey))
                mismatchedRules ∧
              notConsidered = input.notConsidered.map fun r => (r.ruleId, r.ruleKey)) ∨
            (mismatchedRules = (input.mismatched.map fun r =>
                (r.ruleId, r.ruleKey, r.criterionKey)) ∧
              Inserted (r.ruleId, r.ruleKey)
                (input.notConsidered.map fun r => (r.ruleId, r.ruleKey)) notConsidered))) ∧
      (ExactIntegers K → (input.rules.map RuleSnapshot.ruleKey).Nodup →
        (input.rules.map fun r => max 0 (r.deductionHundredths.getD 0)).sum ≤ 2 ^ 53 →
          ∀ rules', input.rules.Perm rules' →
            ∃ out out', input.computeScore = .ok out ∧
              (input.withRules rules').computeScore = .ok out' ∧ out.SameUpToOrder out') :=
  ⟨fun _ _ _ hrules hr => computeScore_insert hrules hr,
    fun hexact hkeys hprices _ hperm => computeScore_perm hexact hkeys hperm hprices⟩

/-- A rule that came after the investigation. -/
def lateRule : RuleSnapshot := ⟨"r4", "v1", "wrong-comment", "style", none, some 15⟩

/-- The late rule keeps the 110 points of the sample, and so does the
reversed table. -/
theorem storedSample_examined :
    (∃ out, (storedSample.withRules (storedSample.rules ++ [lateRule])).computeScore = .ok out ∧
        out.scoreHundredths = some 110) ∧
      ∃ out, (storedSample.withRules storedSample.rules.reverse).computeScore = .ok out ∧
        out.scoreHundredths = some 110 := by
  obtain ⟨hinsert, horder⟩ := score_of_examined_rules storedSample
  obtain ⟨out, out', hout, hout', hsame⟩ := horder Number.exactIntegers_rat (by decide)
    (by decide) _ (List.reverse_perm storedSample.rules).symm
  have hrun : storedSample.computeScore.toOption.map ScoreCoreOutput.scoreHundredths =
      some (some 110) := by
    decide +kernel
  rw [hout] at hrun
  have hpoints : out.scoreHundredths = some 110 := Option.some.inj hrun
  obtain ⟨mismatchedRules, notConsidered, hlate, -⟩ :=
    hinsert storedSample.rules lateRule [] (List.append_nil _).symm (Or.inr (by decide))
  rw [hout] at hlate
  exact ⟨⟨_, hlate, hpoints⟩, out', hout', hsame.score ▸ hpoints⟩

/-- Two rules of one key with different prices. -/
def repeatedKey : ScoreCoreInput ℚ :=
  storedSample.withRules
    [⟨"r3", "v1", "comments", "style", none, some 20⟩,
      ⟨"r5", "v1", "comments", "style", none, some 30⟩]

/-- Two rules whose patterns nothing measures yet. -/
def unmeasuredRules : ScoreCoreInput ℚ :=
  storedSample.withRules
    [⟨"r2", "v1", "naming", "style", some .complexityExceedsRequired, some 20⟩,
      ⟨"r3", "v1", "comments", "style", some .complexityExceedsRequired, some 20⟩]

/-- The flag that names the rule on naming first. -/
def namingFirst : CaseFlag :=
  untouchedFlag "style"
    ["naming: " ++ needs .complexityExceedsRequired,
      "comments: " ++ needs .complexityExceedsRequired]

theorem exists_ok_of_map {α β : Type} {e : Except String α} {f : α → β} {b : β}
    (h : e.toOption.map f = some b) : ∃ a, e = .ok a ∧ f a = b := by
  cases e with
  | error e => cases h
  | ok a => exact ⟨a, rfl, Option.some.inj h⟩

/-- With two rules of one key the last one sets the price, and a flag names
the gaps of a criterion in the order of the rules. -/
theorem order_of_rules_shows :
    (¬ ∀ (input : ScoreCoreInput ℚ) (rules' : List RuleSnapshot), input.rules.Perm rules' →
        ∀ out out', input.computeScore = .ok out → (input.withRules rules').computeScore = .ok out' →
          out.scoreHundredths = out'.scoreHundredths) ∧
      ¬ ∀ (input : ScoreCoreInput ℚ) (rules' : List RuleSnapshot),
        (input.rules.map RuleSnapshot.ruleKey).Nodup → input.rules.Perm rules' →
          ∀ out out', input.computeScore = .ok out →
            (input.withRules rules').computeScore = .ok out' →
              out.breakdown.caseFlags.Perm out'.breakdown.caseFlags := by
  constructor
  · intro h
    obtain ⟨out, hout, hleft⟩ := exists_ok_of_map
      (by decide : repeatedKey.computeScore.toOption.map
        ScoreCoreOutput.scoreHundredths = some (some 120))
    obtain ⟨out', hout', hright⟩ := exists_ok_of_map
      (by decide : (repeatedKey.withRules repeatedKey.rules.reverse).computeScore.toOption.map
        ScoreCoreOutput.scoreHundredths = some (some 130))
    have heq := h repeatedKey _ (List.reverse_perm _).symm out out' hout hout'
    rw [hleft, hright] at heq
    revert heq
    decide
  · intro h
    obtain ⟨out, hout, hleft⟩ := exists_ok_of_map
      (by decide +kernel : unmeasuredRules.computeScore.toOption.map
        (fun out => decide (namingFirst ∈ out.breakdown.caseFlags)) = some true)
    obtain ⟨out', hout', hright⟩ := exists_ok_of_map
      (by decide :
        (unmeasuredRules.withRules unmeasuredRules.rules.reverse).computeScore.toOption.map
          (fun out => decide (namingFirst ∈ out.breakdown.caseFlags)) = some false)
    have hperm := h unmeasuredRules _ (by decide) (List.reverse_perm _).symm out out' hout hout'
    exact of_decide_eq_false hright (hperm.mem_iff.1 (of_decide_eq_true hleft))

end Cine.Grading
