import Cine.Grading.Decision.Decide

/-!
# What a decision without a teacher is safe for

`SafeToDecide` says, without a word about flags, what has to be true of a
paper before it may be graded without a teacher.  Every field is one
condition on the four sources of the decision: the bundle, the tool calls,
the error table and the gates.

* Each group of flags of `decide` is empty exactly when its conditions
  hold, and a flag that is there names a condition that fails
  (`CaseFlagCode.Violated`, `ErrorFlag.Violated`).
* `decide_cases` splits a decision into the three outcomes.
* The results at the end put this together: when there is a decision, when
  it is `auto`, and what a decision that is not `auto` carries.

A table that repeats a rule key is outside these results.  The measurement
of a rule is looked up by its key, so the first rule of a key answers for
all of them.
-/

namespace Cine.Grading

open Cine.Lib

/-! ## The conditions -/

/-- A lens refuted the error: it is not the machine's, and some lens
concluded `refuted` on its key. -/
def Refuted {K : Type} (input : DecisionInput K) (e : DiagnosedError) : Prop :=
  e.source ≠ .deterministic ∧
    ∃ ch, input.challenge = some ch ∧ .refuted ∈ statusesOf e.ruleKey ch.perError

/-- No lens could answer on the error: some lens was asked, and none
confirmed or refuted it. -/
def Unverified {K : Type} (input : DecisionInput K) (e : DiagnosedError) : Prop :=
  e.source ≠ .deterministic ∧ ∃ ch, input.challenge = some ch ∧
    statusesOf e.ruleKey ch.perError ≠ [] ∧
      ∀ s ∈ statusesOf e.ruleKey ch.perError, s = .unverified

/-- The agent read a file of the submission. -/
def SubmissionRead {K : Type} (input : DecisionInput K) : Prop :=
  ∃ t ∈ input.toolCalls, t.tool = .readFile ∧ t.status = .ok ∧
    ∃ path, t.stringArg "path" = some path ∧ path.startsWith "bai-nop/" = true

/-- The rule was really examined: its predicate was measured, or the model
was offered the rule and read the submission. -/
def Examined {K : Type} (input : DecisionInput K) (r : ErrorRule) : Prop :=
  match r.predicate with
  | some p =>
    (evaluatePredicate p input.bundle input.toolCalls input.structured).state ≠ .unmeasured
  | none => input.seen.get? r.ruleKey = some .model ∧ SubmissionRead input

/-- Some case of some successful run passed. -/
def SomethingPassed {K : Type} (input : DecisionInput K) : Prop :=
  ∃ t ∈ input.toolCalls, ∃ compile results,
    t.runTestsResult input.structured = some (compile, results) ∧
      ∃ r ∈ results, r.status = .pass

/-- What has to be true of a paper that is graded without a teacher. -/
structure SafeToDecide {K : Type} [Number K] (input : DecisionInput K) : Prop where
  investigator : input.pipeline = .investigator
  verdict : input.result.kind = .verdict
  bundle_ne : input.bundle ≠ []
  covered : ∀ c ∈ input.bundle, ∃ t ∈ input.toolCalls, Measures input.structured t c
  not_exhausted : input.result.investigation.stopReason ∈ budgetStops → input.errors ≠ []
  has_rules : ∀ c ∈ input.rubric, 0 < c.maxHundredths →
    (∃ r ∈ input.rules, r.criterionKey = c.key) ∨ c.key ∈ input.waivedCriteria
  examined : ∀ c ∈ input.rubric, 0 < c.maxHundredths →
    ∀ r ∈ input.rules, r.criterionKey = c.key → Examined input r
  passed : SomethingPassed input
  no_flag : input.result.flags = []
  not_suspected : ∀ n ∈ input.caseNotes, n.suspected = false
  concluded : ∀ n ∈ input.caseNotes, n.concluded = true
  ruler : input.rulerTrust ≠ some .unverified
  priced : ∀ e ∈ input.errors, e.deductionHundredths ≠ none
  not_refuted : ∀ e ∈ input.errors, ¬ Refuted input e
  verified : ∀ e ∈ input.errors, ¬ Unverified input e
  no_error_gate : input.errors = [] → input.autoNoErrorEnabled ≠ some false
  rule_gate : ∀ e ∈ input.errors, e.ruleKey ∉ input.autoBlockedRuleKeys.getD []
  confident : input.theta - autoThetaEpsilon ≤ input.confidence

/-- The condition that a flag of the case names fails. -/
def CaseFlagCode.Violated {K : Type} [Number K] (input : DecisionInput K) : CaseFlagCode → Prop
  | .criterionWithoutRules => ∃ c ∈ input.rubric, 0 < c.maxHundredths ∧
      (∀ r ∈ input.rules, r.criterionKey ≠ c.key) ∧ c.key ∉ input.waivedCriteria
  | .criterionUntouched => ∃ c ∈ input.rubric, 0 < c.maxHundredths ∧
      ∃ r ∈ input.rules, r.criterionKey = c.key ∧ ¬ Examined input r
  | .nothingPassed => ¬ SomethingPassed input
  | .investigationFlag => input.result.flags ≠ []
  | .notCodePipeline => input.pipeline ≠ .investigator
  | .challengeSuspected => ∃ n ∈ input.caseNotes, n.suspected = true
  | .challengeIncomplete => ∃ n ∈ input.caseNotes, n.concluded = false
  | .rulerUnverified => input.rulerTrust = some .unverified
  | .noErrorAutoDisabled => input.errors = [] ∧ input.autoNoErrorEnabled = some false
  | .typeAutoDisabled => ∃ e ∈ input.errors, e.ruleKey ∈ input.autoBlockedRuleKeys.getD []
  | .lowConfidence => input.confidence < input.theta - autoThetaEpsilon

/-- The condition that a flag of an error names fails for that error. -/
def ErrorFlag.Violated {K : Type} (input : DecisionInput K) (f : ErrorFlag) : Prop :=
  ∃ e ∈ input.errors, e.ruleKey = f.ruleKey ∧
    match f.code with
    | .unpriced => e.deductionHundredths = none
    | .refuted => Refuted input e
    | .unverified => Unverified input e

/-- The condition of a floor fails. -/
def Floor.Violated {K : Type} (input : DecisionInput K) : Floor → Prop
  | .notAVerdict => input.result.kind ≠ .verdict
  | .emptyBundle => input.bundle = []
  | .uncovered => ∃ c ∈ input.bundle, ∀ t ∈ input.toolCalls, ¬ Measures input.structured t c
  | .exhausted => input.result.investigation.stopReason ∈ budgetStops ∧ input.errors = []

section

variable {K : Type} {input : DecisionInput K}

/-! ## The floors -/

theorem floor_cases (input : DecisionInput K) :
    (∃ f, input.floor = some f ∧ f.Violated input ∧
        (f = .emptyBundle ∨ f = .uncovered → input.pipeline = .investigator)) ∨
      (input.floor = none ∧ input.result.kind = .verdict ∧
        (input.pipeline = .investigator → input.bundle ≠ [] ∧
          ∀ c ∈ input.bundle, ∃ t ∈ input.toolCalls, Measures input.structured t c) ∧
        (input.result.investigation.stopReason ∈ budgetStops → input.errors ≠ [])) := by
  rw [DecisionInput.floor]
  split_ifs with h₁ h₂ h₃ h₄
  · exact Or.inl ⟨_, rfl, by simp [Floor.Violated, h₁], by simp⟩
  · exact Or.inl ⟨_, rfl, h₂.2, fun _ => h₂.1⟩
  · refine Or.inl ⟨_, rfl, ?_, fun _ => h₃.1⟩
    have hne := h₃.2
    rw [DecisionInput.missing, Ne, uncoveredCases_eq_nil] at hne
    simpa only [Floor.Violated, not_forall, not_exists, not_and, exists_prop] using hne
  · exact Or.inl ⟨_, rfl, h₄, by simp⟩
  · refine Or.inr ⟨rfl, ?_, fun hp => ⟨fun hb => h₂ ⟨hp, hb⟩, ?_⟩, fun hs he => h₄ ⟨hs, he⟩⟩
    · cases hk : input.result.kind with
      | verdict => rfl
      | ungradable => exact absurd hk h₁
    · rw [← uncoveredCases_eq_nil]
      by_contra hne
      exact h₃ ⟨hp, hne⟩

/-! ## The challenge -/

variable {key : String} {f : CaseFlag}

theorem mergedStatusOf_refuted {perError : List ChallengeConclusion} :
    mergedStatusOf key perError = some .refuted ↔ .refuted ∈ statusesOf key perError := by
  rw [mergedStatusOf]
  split_ifs with h₁ h₂ h₃
  · simp [h₁]
  · simp [h₂]
  · simp [h₂]
  · simp [h₂]

theorem mergedStatusOf_unverified {perError : List ChallengeConclusion} :
    mergedStatusOf key perError = some .unverified ↔
      statusesOf key perError ≠ [] ∧ ∀ s ∈ statusesOf key perError, s = .unverified := by
  rw [mergedStatusOf]
  split_ifs with h₁ h₂ h₃
  · simp [h₁]
  · simp only [Option.some.injEq, reduceCtorEq, false_iff, not_and, not_forall]
    exact fun _ => ⟨_, h₂, by simp⟩
  · simp only [Option.some.injEq, reduceCtorEq, false_iff, not_and, not_forall]
    exact fun _ => ⟨_, h₃, by simp⟩
  · refine ⟨fun _ => ⟨h₁, fun s hs => ?_⟩, fun _ => rfl⟩
    cases s with
    | confirmed => exact absurd hs h₃
    | refuted => exact absurd hs h₂
    | unverified => rfl

theorem mem_challengedKeys {status : ChallengeStatus} :
    key ∈ input.challengedKeys status ↔ ∃ e ∈ input.errors, e.ruleKey = key ∧
      e.source ≠ .deterministic ∧ ∃ ch, input.challenge = some ch ∧
        mergedStatusOf e.ruleKey ch.perError = some status := by
  rw [DecisionInput.challengedKeys]
  cases input.challenge with
  | none => simp
  | some ch =>
    simp only [List.mem_eraseDups, List.mem_map, List.mem_filter, decide_eq_true_eq,
      Option.some.injEq, exists_eq_left']
    constructor
    · rintro ⟨e, ⟨he, hs, hm⟩, hk⟩
      exact ⟨e, he, hk, hs, hm⟩
    · rintro ⟨e, he, hk, hs, hm⟩
      exact ⟨e, ⟨he, hs, hm⟩, hk⟩

theorem mem_refutedKeys :
    key ∈ input.refutedKeys ↔ ∃ e ∈ input.errors, e.ruleKey = key ∧ Refuted input e := by
  simp only [DecisionInput.refutedKeys, mem_challengedKeys, mergedStatusOf_refuted, Refuted]

theorem mem_unverifiedKeys :
    key ∈ input.unverifiedKeys ↔ ∃ e ∈ input.errors, e.ruleKey = key ∧ Unverified input e := by
  simp only [DecisionInput.unverifiedKeys, mem_challengedKeys, mergedStatusOf_unverified,
    Unverified]

theorem refutedKeys_eq_nil :
    input.refutedKeys = [] ↔ ∀ e ∈ input.errors, ¬ Refuted input e := by
  simp only [List.eq_nil_iff_forall_not_mem, mem_refutedKeys, not_exists, not_and]
  exact ⟨fun h e he => h _ e he rfl, fun h _ e he _ => h e he⟩

theorem unverifiedKeys_eq_nil :
    input.unverifiedKeys = [] ↔ ∀ e ∈ input.errors, ¬ Unverified input e := by
  simp only [List.eq_nil_iff_forall_not_mem, mem_unverifiedKeys, not_exists, not_and]
  exact ⟨fun h e he => h _ e he rfl, fun h _ e he _ => h e he⟩

/-! ## The flags of the criteria -/

theorem readSubmission_iff : input.readSubmission = true ↔ SubmissionRead input := by
  rw [DecisionInput.readSubmission, List.any_eq_true]
  refine exists_congr fun t => and_congr_right fun _ => ?_
  rw [decide_eq_true_iff]
  refine and_congr_right fun _ => and_congr_right fun _ => ?_
  cases t.stringArg "path" with
  | none => exact ⟨fun h => (Bool.false_ne_true h).elim, fun ⟨_, h, _⟩ => by cases h⟩
  | some path => exact ⟨fun h => ⟨path, rfl, h⟩, fun ⟨_, h, hp⟩ => by cases h; exact hp⟩

theorem find_measurement (hkeys : (input.rules.map ErrorRule.ruleKey).Nodup)
    (hv : input.result.kind = .verdict) {r : ErrorRule} (hr : r ∈ input.rules)
    {p : RulePredicate} (hp : r.predicate = some p) :
    input.diagnosis.measurements.find? (fun m => m.ruleKey = r.ruleKey) =
      some ⟨r.ruleKey, r.criterionKey,
        evaluatePredicate p input.bundle input.toolCalls input.structured⟩ := by
  rw [DecisionInput.diagnosis, diagnose_measurements hv]
  have key_of_mem : ∀ {rules : List ErrorRule} {m : Measurement},
      m ∈ rules.filterMap (measureRule input.bundle input.result.investigation) →
        m.ruleKey ∈ rules.map ErrorRule.ruleKey := by
    intro rules m hm
    obtain ⟨r', hr', h'⟩ := List.mem_filterMap.1 hm
    rw [measureRule, Option.map_eq_some_iff] at h'
    obtain ⟨_, _, rfl⟩ := h'
    exact List.mem_map_of_mem hr'
  generalize input.rules = rules at hkeys hr
  induction rules with
  | nil => simp at hr
  | cons r' rules ih =>
    rw [List.map_cons, List.nodup_cons] at hkeys
    rw [List.filterMap_cons]
    rcases List.mem_cons.1 hr with rfl | hr
    · simp [measureRule, hp, DecisionInput.toolCalls, DecisionInput.structured]
    · have hne : r'.ruleKey ≠ r.ruleKey := fun h =>
        hkeys.1 (h ▸ List.mem_map_of_mem hr)
      cases hm : measureRule input.bundle input.result.investigation r' with
      | none => exact ih hkeys.2 hr
      | some m =>
        have hk : m.ruleKey = r'.ruleKey := by
          rw [measureRule, Option.map_eq_some_iff] at hm
          obtain ⟨_, _, rfl⟩ := hm
          rfl
        simp only
        rw [List.find?_cons_of_neg (by simpa [hk] using hne)]
        exact ih hkeys.2 hr

theorem ruleGap_eq_none (hkeys : (input.rules.map ErrorRule.ruleKey).Nodup)
    (hv : input.result.kind = .verdict) {r : ErrorRule} (hr : r ∈ input.rules) :
    input.ruleGap r = none ↔ Examined input r := by
  rw [DecisionInput.ruleGap, Examined]
  cases hp : r.predicate with
  | some p =>
    simp only [find_measurement hkeys hv hr hp]
    split_ifs with h
    · simp [h]
    · simp [h]
  | none =>
    simp only
    cases hs : input.seen.get? r.ruleKey with
    | none => simp
    | some checkedBy =>
      cases checkedBy with
      | machine => simp
      | model =>
        simp only [true_and, ← readSubmission_iff]
        split_ifs with h
        · simp [h]
        · simp [h]

theorem criterionFlag_cases (hkeys : (input.rules.map ErrorRule.ruleKey).Nodup)
    (hv : input.result.kind = .verdict) (c : RubricCriterion) :
    (input.criterionFlag c = none ∧ (0 < c.maxHundredths →
        ((∃ r ∈ input.rules, r.criterionKey = c.key) ∨ c.key ∈ input.waivedCriteria) ∧
        ∀ r ∈ input.rules, r.criterionKey = c.key → Examined input r)) ∨
      (0 < c.maxHundredths ∧ ∃ f, input.criterionFlag c = some f ∧
        ((f.code = .criterionWithoutRules ∧ (∀ r ∈ input.rules, r.criterionKey ≠ c.key) ∧
            c.key ∉ input.waivedCriteria) ∨
          (f.code = .criterionUntouched ∧
            ∃ r ∈ input.rules, r.criterionKey = c.key ∧ ¬ Examined input r))) := by
  have own_eq_nil : input.ownRules c = [] ↔ ∀ r ∈ input.rules, r.criterionKey ≠ c.key := by
    simp [DecisionInput.ownRules, List.filter_eq_nil_iff]
  have gaps_eq_nil : (input.ownRules c).filterMap input.ruleGap = [] ↔
      ∀ r ∈ input.rules, r.criterionKey = c.key → Examined input r := by
    rw [List.filterMap_eq_nil_iff]
    simp only [DecisionInput.ownRules, List.mem_filter, decide_eq_true_eq, and_imp]
    exact forall₂_congr fun r hr => imp_congr_right fun _ => ruleGap_eq_none hkeys hv hr
  rw [DecisionInput.criterionFlag]
  dsimp only
  split_ifs with hmax hown hwaived hgaps
  · exact Or.inl ⟨rfl, fun h => absurd hmax (by omega)⟩
  · exact Or.inl ⟨rfl, fun _ =>
      ⟨Or.inr hwaived, fun r hr hc => absurd hc (own_eq_nil.1 hown r hr)⟩⟩
  · exact Or.inr ⟨by omega, _, rfl, Or.inl ⟨rfl, own_eq_nil.1 hown, hwaived⟩⟩
  · refine Or.inl ⟨rfl, fun _ => ⟨Or.inl ?_, gaps_eq_nil.1 hgaps⟩⟩
    simpa [own_eq_nil] using hown
  · refine Or.inr ⟨by omega, _, rfl, Or.inr ⟨rfl, ?_⟩⟩
    simpa [gaps_eq_nil] using hgaps

theorem criterionFlags_eq_nil (hkeys : (input.rules.map ErrorRule.ruleKey).Nodup)
    (hv : input.result.kind = .verdict) :
    input.criterionFlags = [] ↔ ∀ c ∈ input.rubric, 0 < c.maxHundredths →
      ((∃ r ∈ input.rules, r.criterionKey = c.key) ∨ c.key ∈ input.waivedCriteria) ∧
        ∀ r ∈ input.rules, r.criterionKey = c.key → Examined input r := by
  rw [DecisionInput.criterionFlags, List.filterMap_eq_nil_iff]
  refine forall₂_congr fun c _ => ?_
  rcases criterionFlag_cases hkeys hv c with ⟨hn, hc⟩ | ⟨hmax, f, hf, hc⟩
  · exact ⟨fun _ => hc, fun _ => hn⟩
  · rw [hf]
    refine ⟨fun h => by simp at h, fun h => ?_⟩
    obtain ⟨hrules, hexam⟩ := h hmax
    rcases hc with ⟨_, hno, hw⟩ | ⟨_, r, hr, hrc, hne⟩
    · rcases hrules with ⟨r, hr, hrc⟩ | hw'
      · exact absurd hrc (hno r hr)
      · exact absurd hw' hw
    · exact absurd (hexam r hr hrc) hne

/-! ## The flags of the whole case -/

theorem anyPass_iff : input.anyPass = true ↔ SomethingPassed input := by
  simp only [DecisionInput.anyPass, DecisionInput.runs, SomethingPassed, List.any_eq_true,
    List.mem_filterMap, decide_eq_true_eq, Prod.exists]
  constructor
  · rintro ⟨compile, results, ⟨t, ht, hr⟩, r, hmem, hp⟩
    exact ⟨t, ht, compile, results, hr, r, hmem, hp⟩
  · rintro ⟨t, ht, compile, results, hr, r, hmem, hp⟩
    exact ⟨compile, results, ⟨t, ht, hr⟩, r, hmem, hp⟩

theorem ran_of_covered (hne : input.bundle ≠ [])
    (hc : ∀ c ∈ input.bundle, ∃ t ∈ input.toolCalls, Measures input.structured t c) :
    input.ran = true := by
  obtain ⟨c, hmem⟩ := List.exists_mem_of_ne_nil _ hne
  obtain ⟨t, ht, compile, results, hr, hm⟩ := hc c hmem
  rw [DecisionInput.ran, List.any_eq_true]
  refine ⟨(compile, results), List.mem_filterMap.2 ⟨t, ht, hr⟩, ?_⟩
  by_cases hf : compileFailed compile = true
  · simp [hf]
  · rw [if_neg hf] at hm
    obtain ⟨r, hres, _⟩ := hm
    have hne : results ≠ [] := List.ne_nil_of_mem hres
    simp [hne]

theorem nothingPassedFlags_eq_nil (hne : input.bundle ≠ [])
    (hc : ∀ c ∈ input.bundle, ∃ t ∈ input.toolCalls, Measures input.structured t c) :
    input.nothingPassedFlags = [] ↔ SomethingPassed input := by
  rw [← anyPass_iff, DecisionInput.nothingPassedFlags, DecisionInput.nothingPassed,
    ran_of_covered hne hc]
  cases input.anyPass <;> simp

theorem noteFlags_eq_nil {code : CaseFlagCode} {p : CaseLensNote → Bool} :
    input.noteFlags code p = [] ↔ ∀ n ∈ input.caseNotes, p n = false := by
  rw [DecisionInput.noteFlags]
  split_ifs with h
  · simpa [List.filter_eq_nil_iff] using h
  · simpa [List.filter_eq_nil_iff] using h

theorem mem_noteFlags {code : CaseFlagCode} {p : CaseLensNote → Bool}
    (hf : f ∈ input.noteFlags code p) : f.code = code ∧ ∃ n ∈ input.caseNotes, p n = true := by
  constructor
  · rw [DecisionInput.noteFlags] at hf
    split_ifs at hf with h
    · simp at hf
    · rw [List.mem_singleton.1 hf]
  · by_contra hno
    have hnil : input.noteFlags code p = [] := noteFlags_eq_nil.2 fun n hn =>
      Bool.eq_false_iff.2 fun hp => hno ⟨n, hn, hp⟩
    rw [hnil] at hf
    simp at hf

theorem ruleGateFlags_eq_nil :
    input.ruleGateFlags = [] ↔
      ∀ e ∈ input.errors, e.ruleKey ∉ input.autoBlockedRuleKeys.getD [] := by
  simp [DecisionInput.ruleGateFlags, List.filter_eq_nil_iff]

theorem mem_ruleGateFlags (hf : f ∈ input.ruleGateFlags) :
    f.code = .typeAutoDisabled ∧
      ∃ e ∈ input.errors, e.ruleKey ∈ input.autoBlockedRuleKeys.getD [] := by
  simp only [DecisionInput.ruleGateFlags, List.mem_map, List.mem_filter, List.mem_eraseDups,
    decide_eq_true_eq] at hf
  obtain ⟨key, ⟨⟨e, he, rfl⟩, hk⟩, rfl⟩ := hf
  exact ⟨rfl, e, he, hk⟩

theorem ownCaseFlags_eq_nil :
    input.ownCaseFlags = [] ↔ input.criterionFlags = [] ∧ input.nothingPassedFlags = [] ∧
      input.result.flags = [] ∧ input.pipeline = .investigator ∧
      (∀ n ∈ input.caseNotes, n.suspected = false) ∧
      (∀ n ∈ input.caseNotes, n.concluded = true) ∧ input.rulerTrust ≠ some .unverified ∧
      (input.errors = [] → input.autoNoErrorEnabled ≠ some false) ∧
      ∀ e ∈ input.errors, e.ruleKey ∉ input.autoBlockedRuleKeys.getD [] := by
  have hsus : input.suspectedFlags = [] ↔ ∀ n ∈ input.caseNotes, n.suspected = false :=
    noteFlags_eq_nil
  have hinc : input.incompleteFlags = [] ↔ ∀ n ∈ input.caseNotes, n.concluded = true := by
    rw [DecisionInput.incompleteFlags, noteFlags_eq_nil]
    simp
  have hinv : input.investigationFlags = [] ↔ input.result.flags = [] := by
    simp [DecisionInput.investigationFlags]
  have hpipe : input.pipelineFlags = [] ↔ input.pipeline = .investigator := by
    simp [DecisionInput.pipelineFlags]
  have hruler : input.rulerFlags = [] ↔ input.rulerTrust ≠ some .unverified := by
    simp [DecisionInput.rulerFlags]
  have hgate : input.noErrorGateFlags = [] ↔
      (input.errors = [] → input.autoNoErrorEnabled ≠ some false) := by
    simp [DecisionInput.noErrorGateFlags]
  rw [DecisionInput.ownCaseFlags]
  simp only [List.append_eq_nil_iff, hsus, hinc, hinv, hpipe, hruler, hgate,
    ruleGateFlags_eq_nil, and_assoc]

variable [Number K]

theorem violated_of_mem_ownCaseFlags (hkeys : (input.rules.map ErrorRule.ruleKey).Nodup)
    (hv : input.result.kind = .verdict) (hf : f ∈ input.ownCaseFlags) : f.code.Violated input := by
  simp only [DecisionInput.ownCaseFlags, List.mem_append] at hf
  rcases hf with (((((((hf | hf) | hf) | hf) | hf) | hf) | hf) | hf) | hf
  · obtain ⟨c, hc, hfc⟩ := List.mem_filterMap.1 hf
    rcases criterionFlag_cases hkeys hv c with ⟨hn, _⟩ | ⟨hmax, g, hg, hcases⟩
    · rw [hn] at hfc
      cases hfc
    · obtain rfl : g = f := Option.some.inj (hg.symm.trans hfc)
      rcases hcases with ⟨hcode, hno, hw⟩ | ⟨hcode, hr⟩
      · rw [hcode]
        exact ⟨c, hc, hmax, hno, hw⟩
      · rw [hcode]
        exact ⟨c, hc, hmax, hr⟩
  · rw [DecisionInput.nothingPassedFlags] at hf
    split_ifs at hf with h
    · rw [List.mem_singleton.1 hf]
      simp only [CaseFlagCode.Violated, ← anyPass_iff]
      rw [DecisionInput.nothingPassed, Bool.and_eq_true, Bool.not_eq_true'] at h
      simp [h.2]
    · simp at hf
  · obtain ⟨g, hg, rfl⟩ := List.mem_map.1 hf
    exact List.ne_nil_of_mem hg
  · rw [DecisionInput.pipelineFlags] at hf
    split_ifs at hf with h
    · rw [List.mem_singleton.1 hf]
      exact h
    · simp at hf
  · obtain ⟨hcode, hn⟩ := mem_noteFlags hf
    rw [hcode]
    exact hn
  · obtain ⟨hcode, n, hn, hp⟩ := mem_noteFlags hf
    rw [hcode]
    exact ⟨n, hn, by simpa using hp⟩
  · rw [DecisionInput.rulerFlags] at hf
    split_ifs at hf with h
    · rw [List.mem_singleton.1 hf]
      exact h
    · simp at hf
  · rw [DecisionInput.noErrorGateFlags] at hf
    split_ifs at hf with h
    · rw [List.mem_singleton.1 hf]
      exact h
    · simp at hf
  · obtain ⟨hcode, he⟩ := mem_ruleGateFlags hf
    rw [hcode]
    exact he

end

/-! ## The score and the flags of the errors -/

section

variable {K : Type} {input : DecisionInput K}

theorem scoringTable_get?_error (hkeys : (input.rules.map ErrorRule.ruleKey).Nodup)
    {e : DiagnosedError} (he : e ∈ input.errors) :
    (scoringTable (input.rules.map ErrorRule.toScoringRule)).get? e.ruleKey =
      some ⟨e.ruleKey, e.criterionKey, e.deductionHundredths⟩ := by
  obtain ⟨r, hr, hk, hc, hd⟩ := mem_diagnose_errors he
  rw [scoringTable, ← hk]
  refine OrderedMap.get?_ofList_of_nodup ?_ ?_
  · simpa [List.map_map, Function.comp_def, ErrorRule.toScoringRule] using hkeys
  · simp only [List.map_map, List.mem_map, Function.comp_apply]
    exact ⟨r, hr, by simp [ErrorRule.toScoringRule, hc, hd]⟩

theorem mem_scoredKeys (hkeys : (input.rules.map ErrorRule.ruleKey).Nodup) {key : String} :
    key ∈ input.scoredKeys ↔
      ∃ e ∈ input.errors, e.ruleKey = key ∧ ¬ Refuted input e := by
  have hnd : (input.errors.map DiagnosedError.ruleKey).Nodup := diagnose_errors_nodup hkeys
  simp only [DecisionInput.scoredKeys, List.mem_map, List.mem_filter, decide_eq_true_eq,
    mem_refutedKeys, not_exists, not_and]
  constructor
  · rintro ⟨e, ⟨he, hno⟩, hk⟩
    exact ⟨e, he, hk, hno e he rfl⟩
  · rintro ⟨e, he, hk, hno⟩
    refine ⟨e, ⟨he, fun e' he' hk' => ?_⟩, hk⟩
    rwa [List.inj_on_of_nodup_map hnd he' he hk']

theorem score_isOk (hkeys : (input.rules.map ErrorRule.ruleKey).Nodup) :
    (∃ s, input.score = .ok s) ↔ ∀ e ∈ input.errors, ¬ Refuted input e →
      e.criterionKey ∈ input.rubric.map RubricCriterion.key := by
  rw [DecisionInput.score, computeDeductionScore_isOk]
  constructor
  · intro h e he hno
    obtain ⟨rule, hr, hc⟩ := h e.ruleKey ((mem_scoredKeys hkeys).2 ⟨e, he, rfl, hno⟩)
    rw [scoringTable_get?_error hkeys he, Option.some.injEq] at hr
    rw [← hr] at hc
    exact hc
  · intro h key hk
    obtain ⟨e, he, rfl, hno⟩ := (mem_scoredKeys hkeys).1 hk
    exact ⟨_, scoringTable_get?_error hkeys he, h e he hno⟩

variable {s : DeductionScore}

theorem mem_unpriced (hkeys : (input.rules.map ErrorRule.ruleKey).Nodup) (hs : input.score = .ok s)
    {key : String} :
    key ∈ s.unpricedRuleKeys ↔ ∃ e ∈ input.errors, e.ruleKey = key ∧ ¬ Refuted input e ∧
      e.deductionHundredths = none := by
  rw [computeDeductionScore_unpriced hs, List.mem_filter, List.mem_eraseDups, mem_scoredKeys hkeys]
  constructor
  · rintro ⟨⟨e, he, rfl, hno⟩, hu⟩
    rw [Unpriced, scoringTable_get?_error hkeys he] at hu
    exact ⟨e, he, rfl, hno, by simpa using hu⟩
  · rintro ⟨e, he, rfl, hno, hd⟩
    refine ⟨⟨e, he, rfl, hno⟩, ?_⟩
    simp [Unpriced, scoringTable_get?_error hkeys he, hd]

theorem violated_of_mem_errorFlagsOf (hkeys : (input.rules.map ErrorRule.ruleKey).Nodup)
    (hs : input.score = .ok s) {f : ErrorFlag} (hf : f ∈ input.errorFlagsOf s) :
    f.Violated input := by
  simp only [DecisionInput.errorFlagsOf, List.mem_append, List.mem_map] at hf
  rcases hf with (⟨key, hk, rfl⟩ | ⟨key, hk, rfl⟩) | ⟨key, hk, rfl⟩
  · obtain ⟨e, he, hke, _, hd⟩ := (mem_unpriced hkeys hs).1 hk
    exact ⟨e, he, hke, hd⟩
  · exact mem_refutedKeys.1 hk
  · exact mem_unverifiedKeys.1 hk

theorem errorFlagsOf_eq_nil (hkeys : (input.rules.map ErrorRule.ruleKey).Nodup)
    (hs : input.score = .ok s) :
    input.errorFlagsOf s = [] ↔ (∀ e ∈ input.errors, e.deductionHundredths ≠ none) ∧
      (∀ e ∈ input.errors, ¬ Refuted input e) ∧ ∀ e ∈ input.errors, ¬ Unverified input e := by
  simp only [DecisionInput.errorFlagsOf, List.append_eq_nil_iff, List.map_eq_nil_iff,
    refutedKeys_eq_nil, unverifiedKeys_eq_nil, and_assoc]
  refine ⟨fun ⟨hu, hr, hv⟩ => ⟨fun e he hd => ?_, hr, hv⟩, fun ⟨hp, hr, hv⟩ => ⟨?_, hr, hv⟩⟩
  · have hm := (mem_unpriced hkeys hs).2 ⟨e, he, rfl, hr e he, hd⟩
    rw [hu] at hm
    simp at hm
  · refine List.eq_nil_iff_forall_not_mem.2 fun key hk => ?_
    obtain ⟨e, he, _, _, hd⟩ := (mem_unpriced hkeys hs).1 hk
    exact hp e he hd

/-! ## The three outcomes -/

variable [Number K]

theorem decide_cases {d : Decision K} (hd : input.decide = .ok d) :
    (∃ f, input.floor = some f ∧ d = input.flooredAt f) ∨
      ∃ s, input.floor = none ∧ input.score = .ok s ∧ d = input.decisionOf s := by
  rw [DecisionInput.decide] at hd
  cases hf : input.floor with
  | some f =>
    rw [hf] at hd
    exact Or.inl ⟨f, rfl, (Except.ok.inj hd).symm⟩
  | none =>
    rw [hf] at hd
    cases hs : input.score with
    | error e =>
      rw [hs] at hd
      cases hd
    | ok s =>
      rw [hs] at hd
      exact Or.inr ⟨s, rfl, rfl, (Except.ok.inj hd).symm⟩

theorem decisionOf_outcome_auto :
    (input.decisionOf s).outcome = .auto ↔
      (input.decisionOf s).caseFlags = [] ∧ (input.decisionOf s).errorFlags = [] := by
  simp only [DecisionInput.decisionOf]
  split_ifs with h
  · exact ⟨fun _ => h, fun _ => rfl⟩
  · exact ⟨fun ha => (nomatch ha), fun hn => absurd hn h⟩

theorem decisionOf_flags_eq_nil :
    ((input.decisionOf s).caseFlags = [] ∧ (input.decisionOf s).errorFlags = []) ↔
      input.ownCaseFlags = [] ∧ input.errorFlagsOf s = [] ∧
        input.theta - autoThetaEpsilon ≤ input.confidence := by
  simp only [DecisionInput.decisionOf, DecisionInput.lowConfidenceFlags, List.append_eq_nil_iff]
  constructor
  · rintro ⟨⟨hown, hlow⟩, he⟩
    refine ⟨hown, he, ?_⟩
    by_contra hlt
    rw [if_pos ⟨hown, he, not_le.1 hlt⟩] at hlow
    simp at hlow
  · rintro ⟨hown, he, hle⟩
    refine ⟨⟨hown, ?_⟩, he⟩
    rw [if_neg fun h => absurd hle (not_le.2 h.2.2)]

theorem decisionOf_auto_iff (hkeys : (input.rules.map ErrorRule.ruleKey).Nodup)
    (hf : input.floor = none) (hs : input.score = .ok s) :
    (input.decisionOf s).outcome = .auto ↔ SafeToDecide input := by
  rcases floor_cases input with ⟨f, hf', _⟩ | ⟨_, hv, hbundle, hbudget⟩
  · rw [hf] at hf'
    cases hf'
  rw [decisionOf_outcome_auto, decisionOf_flags_eq_nil, ownCaseFlags_eq_nil,
    criterionFlags_eq_nil hkeys hv, errorFlagsOf_eq_nil hkeys hs]
  constructor
  · rintro ⟨⟨hcrit, hpass, hflags, hpipe, hsus, hconc, hruler, hnoerr, hgate⟩,
      ⟨hpriced, href, hver⟩, hconf⟩
    obtain ⟨hne, hcov⟩ := hbundle hpipe
    exact
      { investigator := hpipe
        verdict := hv
        bundle_ne := hne
        covered := hcov
        not_exhausted := hbudget
        has_rules := fun c hc hmax => (hcrit c hc hmax).1
        examined := fun c hc hmax => (hcrit c hc hmax).2
        passed := (nothingPassedFlags_eq_nil hne hcov).1 hpass
        no_flag := hflags
        not_suspected := hsus
        concluded := hconc
        ruler := hruler
        priced := hpriced
        not_refuted := href
        verified := hver
        no_error_gate := hnoerr
        rule_gate := hgate
        confident := hconf }
  · intro h
    exact ⟨⟨fun c hc hmax => ⟨h.has_rules c hc hmax, h.examined c hc hmax⟩,
      (nothingPassedFlags_eq_nil h.bundle_ne h.covered).2 h.passed, h.no_flag, h.investigator,
      h.not_suspected, h.concluded, h.ruler, h.no_error_gate, h.rule_gate⟩,
      ⟨h.priced, h.not_refuted, h.verified⟩, h.confident⟩

theorem decisionOf_flags_violated (hkeys : (input.rules.map ErrorRule.ruleKey).Nodup)
    (hv : input.result.kind = .verdict) (hs : input.score = .ok s) :
    (∀ f ∈ (input.decisionOf s).caseFlags, f.code.Violated input) ∧
      ∀ f ∈ (input.decisionOf s).errorFlags, f.Violated input := by
  refine ⟨fun f hf => ?_, fun f hf => violated_of_mem_errorFlagsOf hkeys hs hf⟩
  rcases List.mem_append.1 hf with hf | hf
  · exact violated_of_mem_ownCaseFlags hkeys hv hf
  · rw [DecisionInput.lowConfidenceFlags] at hf
    split_ifs at hf with h
    · rw [List.mem_singleton.1 hf]
      exact h.2.2
    · simp at hf

theorem not_safe_of_floor {f : Floor} (hf : input.floor = some f) : ¬ SafeToDecide input := by
  intro h
  rcases floor_cases input with ⟨g, hg, hviol, _⟩ | ⟨hn, _⟩
  · cases g with
    | notAVerdict => exact hviol h.verdict
    | emptyBundle => exact h.bundle_ne hviol
    | uncovered =>
      obtain ⟨c, hc, hno⟩ := hviol
      obtain ⟨t, ht, hm⟩ := h.covered c hc
      exact hno t ht hm
    | exhausted => exact h.not_exhausted hviol.1 hviol.2
  · rw [hn] at hf
    cases hf

theorem decide_isOk (hkeys : (input.rules.map ErrorRule.ruleKey).Nodup) :
    (∃ d, input.decide = .ok d) ↔ (∃ f, input.floor = some f) ∨
      ∀ e ∈ input.errors, ¬ Refuted input e →
        e.criterionKey ∈ input.rubric.map RubricCriterion.key := by
  rw [← score_isOk hkeys, DecisionInput.decide]
  cases input.floor with
  | some f => exact ⟨fun _ => Or.inl ⟨f, rfl⟩, fun _ => ⟨_, rfl⟩⟩
  | none =>
    cases input.score with
    | error e => simp [Except.map]
    | ok s => simp [Except.map]

/-- A decision exists exactly below a floor or where the errors that are
not refuted point at criteria of the rubric.  It is `auto` exactly for a
paper that is safe to decide.  Every other decision says why: a flagged one
carries flags, each of which names a condition that fails, and an
ungradable one carries the reason of a floor that the paper is below. -/
theorem decide_auto_iff_safe (input : DecisionInput K)
    (hkeys : (input.rules.map ErrorRule.ruleKey).Nodup) :
    ((∃ d, input.decide = .ok d) ↔ (∃ f, input.floor = some f) ∨
      ∀ e ∈ input.errors, ¬ Refuted input e →
        e.criterionKey ∈ input.rubric.map RubricCriterion.key) ∧
    ∀ d, input.decide = .ok d →
      (d.outcome = .auto ↔ SafeToDecide input) ∧
      (d.outcome ≠ .auto →
        (d.outcome = .flagged ∧ (d.caseFlags ≠ [] ∨ d.errorFlags ≠ []) ∧
            (∀ f ∈ d.caseFlags, f.code.Violated input) ∧
            ∀ f ∈ d.errorFlags, f.Violated input) ∨
          (d.outcome = .ungradable ∧ d.caseFlags = [] ∧ d.errorFlags = [] ∧
            ∃ f : Floor, f.Violated input ∧ d.ungradable = some (input.ungradableAt f))) := by
  refine ⟨decide_isOk hkeys, fun d hd => ?_⟩
  rcases decide_cases hd with ⟨f, hf, rfl⟩ | ⟨s, hf, hs, rfl⟩
  · refine ⟨⟨fun h => (nomatch h), fun h => absurd h (not_safe_of_floor hf)⟩, fun _ => ?_⟩
    rcases floor_cases input with ⟨g, hg, hviol, _⟩ | ⟨hn, _⟩
    · obtain rfl : g = f := Option.some.inj (hg.symm.trans hf)
      exact Or.inr ⟨rfl, rfl, rfl, g, hviol, rfl⟩
    · rw [hn] at hf
      cases hf
  · refine ⟨decisionOf_auto_iff hkeys hf hs, fun hne => Or.inl ?_⟩
    have hv : input.result.kind = .verdict := by
      rcases floor_cases input with ⟨f, hf', _⟩ | ⟨_, hv, _⟩
      · rw [hf] at hf'
        cases hf'
      · exact hv
    obtain ⟨hcase, herr⟩ := decisionOf_flags_violated hkeys hv hs
    rw [Ne, decisionOf_outcome_auto, not_and_or] at hne
    refine ⟨?_, hne, hcase, herr⟩
    have hnot := not_and_or.2 hne
    simp only [DecisionInput.decisionOf] at hnot ⊢
    rw [if_neg hnot]

/-- A decision without a teacher was measured: every case of the bundle has
a result, every rule with a predicate on a criterion that counts was found
present or absent, and a rule found present is an error of the score. -/
theorem measured_of_auto (input : DecisionInput K)
    (hkeys : (input.rules.map ErrorRule.ruleKey).Nodup) (d : Decision K)
    (hd : input.decide = .ok d) (hauto : d.outcome = .auto) :
    (∀ c ∈ input.bundle, ∃ t ∈ input.toolCalls, Measures input.structured t c) ∧
    ∀ r ∈ input.rules, ∀ p, r.predicate = some p →
      ∀ c ∈ input.rubric, c.key = r.criterionKey → 0 < c.maxHundredths →
        let state :=
          (evaluatePredicate p input.bundle input.toolCalls input.structured).state
        (state = .present ∨ state = .absent) ∧
          (state = .present → r.ruleKey ∈ input.scoredKeys ∧
            (∃ e ∈ d.errors, e.ruleKey = r.ruleKey ∧ e.source = .deterministic) ∧
            ∃ s, input.score = .ok s ∧ d.scoreHundredths = some s.scoreHundredths) := by
  rcases decide_cases hd with ⟨f, _, rfl⟩ | ⟨s, hf, hs, rfl⟩
  · cases hauto
  have safe := (decisionOf_auto_iff hkeys hf hs).1 hauto
  refine ⟨safe.covered, fun r hr p hp c hc hck hmax => ?_⟩
  intro state
  have hmeasured : state ≠ .unmeasured := by
    have h := safe.examined c hc hmax r hr hck.symm
    rw [Examined, hp] at h
    exact h
  constructor
  · cases hstate : state with
    | present => exact Or.inl rfl
    | absent => exact Or.inr rfl
    | unmeasured => exact absurd hstate hmeasured
  · intro hpresent
    have hsome : (machineError input.bundle input.result.investigation r).isSome :=
      machineError_of_present hp hpresent
    obtain ⟨e, he⟩ := Option.isSome_iff_exists.1 hsome
    obtain ⟨hk, _, _, hsource⟩ := machineError_eq_some he
    have hmem : e ∈ input.errors := by
      rw [DecisionInput.errors, DecisionInput.diagnosis, diagnose_errors safe.verdict]
      exact List.mem_append_left _ (mem_machineErrors.2 ⟨r, hr, he⟩)
    exact ⟨(mem_scoredKeys hkeys).2 ⟨e, hmem, hk, fun href => href.1 hsource⟩,
      ⟨e, hmem, hk, hsource⟩, s, hs, rfl⟩

end

/-! ## Concrete papers -/

/-- A paper that passed the only case of its bundle, with one priced rule
and an agent that read the submission. -/
def cleanPaper : DecisionInput ℚ :=
  { pipeline := .investigator
    result :=
      { kind := .verdict
        verdict := some ⟨[], []⟩
        ungradable := none
        flags := []
        injectionSources := none
        confidenceCap := 1
        investigation :=
          { toolCalls :=
              [⟨"tc-1", .runTests, [], .ok, some "tc-1"⟩,
                ⟨"tc-2", .readFile, [("path", .str "bai-nop/main.cpp")], .ok, none⟩]
            structuredResults := [("tc-1", .runTests none [⟨"c1", some "basic", .pass⟩])]
            stopReason := .verdict
            modelsUsed := ["m"] } }
    bundle := [⟨"c1", "basic"⟩]
    rubric := [⟨"correctness", 100⟩]
    rules := [⟨"wrong-output", "correctness", some 40, none⟩]
    rulesSeen := [⟨"wrong-output", .model⟩]
    waivedCriteria := []
    modelCeiling := 0.6
    theta := 0.7
    challenge := none
    rulerTrust := none
    autoBlockedRuleKeys := none
    autoNoErrorEnabled := none }

/-- The clean paper with an error of a rule that points outside the rubric. -/
def orphanErrorPaper : DecisionInput ℚ :=
  { cleanPaper with
    result := { cleanPaper.result with verdict := some ⟨[⟨"style", ["tc-1"]⟩], []⟩ }
    rules := cleanPaper.rules ++ [⟨"style", "presentation", some 10, none⟩] }

/-- The clean paper with two rules of one key.  The machine measures the
first one and cannot measure the second one. -/
def repeatedKeyPaper : DecisionInput ℚ :=
  { cleanPaper with
    rules :=
      [⟨"tests", "correctness", some 40, some (.testGroupFailed "basic")⟩,
        ⟨"tests", "correctness", some 40, some (.callsFunction "sort")⟩] }

/-- The clean paper of an investigation that never started. -/
def unstartedPaper : DecisionInput ℚ :=
  { cleanPaper with
    result := { cleanPaper.result with
      kind := .ungradable
      ungradable := some ⟨.submission, "bài rỗng"⟩ } }

theorem cleanPaper_passed : SomethingPassed cleanPaper :=
  ⟨_, List.mem_cons_self, none, [⟨"c1", some "basic", .pass⟩], by decide,
    _, List.mem_cons_self, rfl⟩

theorem cleanPaper_read : SubmissionRead cleanPaper :=
  ⟨_, List.mem_cons_of_mem _ List.mem_cons_self, rfl, rfl, "bai-nop/main.cpp",
    by decide +kernel, by decide +kernel⟩

theorem safe_orphanErrorPaper : SafeToDecide orphanErrorPaper where
  investigator := rfl
  verdict := rfl
  bundle_ne := by decide
  covered := by
    rw [← uncoveredCases_eq_nil]
    decide
  not_exhausted := by decide
  has_rules := by decide
  examined := by
    intro c hc _ r hr hrc
    have hr : r ∈ cleanPaper.rules ++ [⟨"style", "presentation", some 10, none⟩] := hr
    rw [List.mem_append, List.mem_singleton] at hr
    rcases hr with hr | rfl
    · rw [List.mem_singleton.1 hr]
      exact ⟨by decide, cleanPaper_read⟩
    · rw [List.mem_singleton.1 hc] at hrc
      exact absurd hrc (by decide)
  passed := cleanPaper_passed
  no_flag := rfl
  not_suspected := by decide
  concluded := by decide
  ruler := by decide
  priced := by decide
  not_refuted := fun _ _ h => by
    obtain ⟨_, _, hch, _⟩ := h
    cases hch
  verified := fun _ _ h => by
    obtain ⟨_, _, hch, _⟩ := h
    cases hch
  no_error_gate := by decide
  rule_gate := by decide
  confident := by decide +kernel

theorem exists_decision (input : DecisionInput ℚ) {o : Outcome}
    (h : input.decide.toOption.map Decision.outcome = some o) :
    ∃ d, input.decide = .ok d ∧ d.outcome = o := by
  cases hd : input.decide with
  | error e =>
    rw [hd] at h
    cases h
  | ok d =>
    rw [hd] at h
    exact ⟨d, rfl, Option.some.inj h⟩

theorem repeatedKeyPaper_auto : ∃ d, repeatedKeyPaper.decide = .ok d ∧ d.outcome = .auto :=
  exists_decision repeatedKeyPaper (by decide +kernel)

theorem repeatedKeyPaper_unmeasured :
    (evaluatePredicate (.callsFunction "sort") repeatedKeyPaper.bundle
      repeatedKeyPaper.toolCalls repeatedKeyPaper.structured).state = .unmeasured := rfl

/-- A safe paper may have no decision, a paper that is not safe may be
decided where a key is repeated, and a paper below a floor has no flag. -/
theorem auto_iff_safe_fails :
    (SafeToDecide orphanErrorPaper ∧ ∀ d, orphanErrorPaper.decide ≠ .ok d) ∧
    (∃ d, repeatedKeyPaper.decide = .ok d ∧ d.outcome = .auto ∧
      ¬ SafeToDecide repeatedKeyPaper) ∧
    ∃ d, unstartedPaper.decide = .ok d ∧ d.outcome = .ungradable ∧ d.caseFlags = [] ∧
      d.errorFlags = [] := by
  refine ⟨⟨safe_orphanErrorPaper, fun d hd => ?_⟩, ?_, _, rfl, rfl, rfl, rfl⟩
  · have hnone : orphanErrorPaper.decide.toOption.map Decision.outcome = none := by
      decide
    rw [hd] at hnone
    cases hnone
  · obtain ⟨d, hd, hauto⟩ := repeatedKeyPaper_auto
    refine ⟨d, hd, hauto, fun safe => ?_⟩
    exact safe.examined ⟨"correctness", 100⟩ List.mem_cons_self (by decide)
      ⟨"tests", "correctness", some 40, some (.callsFunction "sort")⟩ (by decide) rfl
      repeatedKeyPaper_unmeasured

/-- The clean paper is decided without a teacher, so it is safe. -/
theorem safe_cleanPaper :
    ∃ d, cleanPaper.decide = .ok d ∧ d.outcome = .auto ∧ SafeToDecide cleanPaper := by
  obtain ⟨d, hd, hauto⟩ := exists_decision cleanPaper (o := .auto) (by decide +kernel)
  exact ⟨d, hd, hauto, (((decide_auto_iff_safe cleanPaper (by decide)).2 d hd).1).1 hauto⟩

/-- Where a key is repeated, a rule that was never measured can be decided on. -/
theorem unmeasured_of_auto_repeatedKeyPaper :
    ∃ d, repeatedKeyPaper.decide = .ok d ∧ d.outcome = .auto ∧
      ∃ r ∈ repeatedKeyPaper.rules, ∃ p, r.predicate = some p ∧
        (∃ c ∈ repeatedKeyPaper.rubric, c.key = r.criterionKey ∧ 0 < c.maxHundredths) ∧
        (evaluatePredicate p repeatedKeyPaper.bundle repeatedKeyPaper.toolCalls
          repeatedKeyPaper.structured).state = .unmeasured := by
  obtain ⟨d, hd, hauto⟩ := repeatedKeyPaper_auto
  exact ⟨d, hd, hauto, ⟨"tests", "correctness", some 40, some (.callsFunction "sort")⟩,
    by decide, _, rfl, ⟨_, List.mem_cons_self, rfl, by decide⟩,
    repeatedKeyPaper_unmeasured⟩

/-- A paper with one failing case whose rule the machine checks, and one
passing case. -/
def failingPaper : DecisionInput ℚ :=
  { cleanPaper with
    result := { cleanPaper.result with
      investigation := { cleanPaper.result.investigation with
        structuredResults :=
          [("tc-1", .runTests none [⟨"c1", some "basic", .pass⟩, ⟨"c2", some "edge", .fail⟩])] } }
    bundle := [⟨"c1", "basic"⟩, ⟨"c2", "edge"⟩]
    rules := [⟨"edge-cases", "correctness", some 40, some (.testGroupFailed "edge")⟩] }

/-- The failing paper is decided, its case counts, and its rule is scored. -/
theorem measured_failingPaper :
    (∃ t ∈ failingPaper.toolCalls, Measures failingPaper.structured t ⟨"c2", "edge"⟩) ∧
      "edge-cases" ∈ failingPaper.scoredKeys := by
  obtain ⟨d, hd, hauto⟩ :=
    exists_decision failingPaper (o := .auto) (by decide +kernel)
  obtain ⟨hcov, hrules⟩ := measured_of_auto failingPaper (by decide) d hd hauto
  refine ⟨hcov _ (by decide), ?_⟩
  exact ((hrules _ List.mem_cons_self _ rfl _ List.mem_cons_self rfl (by decide)).2
    (by decide)).1

end Cine.Grading
