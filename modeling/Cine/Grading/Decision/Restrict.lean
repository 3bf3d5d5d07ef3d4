import Cine.Grading.Scoring.RuleOrder

/-!
# Gates and challenges only restrict

Two inputs of a decision are compared that differ in the gates, or in what the
lenses concluded.

* `Tightened`: more blocked keys, automatic approval switched off, an
  unverified ruler, more notes of the lenses.  The flags only grow, and
  nothing else of the decision reads a gate.
* `MoreConclusions`: more conclusions on the errors.  A refutation takes an
  error out of the score, so that the charges shrink
  (`computeDeductionScore_mono`); the machine's errors stay
  (`machineCharge_eq`).  A confirmation can clear an error that the
  lenses had left unverified, and with it the last flag of a paper.
-/

namespace Cine.Grading

open Cine.Lib

/-! ## Fewer keys, fewer charges -/

section Charges

variable {criteria : List RubricCriterion} {rules : List ScoringRule}

/-- No rule has a price below zero. -/
def NoNegativePrice (rules : List ScoringRule) : Prop :=
  ∀ r ∈ rules, ∀ d, r.deductionHundredths = some d → 0 ≤ d

theorem chargeOf_nonneg (h : NoNegativePrice rules) (criterionKey key : String) :
    0 ≤ chargeOf (scoringTable rules) criterionKey key := by
  unfold chargeOf
  cases hr : (scoringTable rules).get? key with
  | none => exact le_rfl
  | some rule =>
    dsimp only
    split_ifs
    · obtain ⟨r, hmem, heq⟩ := List.mem_map.1 (OrderedMap.mem_of_get?_ofList hr)
      obtain rfl : r = rule := (Prod.mk.inj heq).2
      cases hd : r.deductionHundredths with
      | none => exact le_rfl
      | some d => exact h r hmem d hd
    · exact le_rfl

/-- What a set of keys takes from a criterion. -/
def chargesOf (rules : List ScoringRule) (keys : List String) (criterionKey : String) : Int :=
  (keys.eraseDups.map (chargeOf (scoringTable rules) criterionKey)).sum

variable {keys : List String}

theorem chargesOf_mono (h : NoNegativePrice rules) {keys' : List String}
    (hsub : ∀ k ∈ keys', k ∈ keys) (criterionKey : String) :
    chargesOf rules keys' criterionKey ≤ chargesOf rules keys criterionKey := by
  have hsub' : keys'.eraseDups ⊆ keys.eraseDups := fun k hk =>
    List.mem_eraseDups.2 (hsub k (List.mem_eraseDups.1 hk))
  obtain ⟨l, hperm, hsublist⟩ := List.subperm_of_subset (nodup_eraseDups keys') hsub'
  unfold chargesOf
  rw [← (hperm.map _).sum_eq]
  refine (hsublist.map _).sum_le_sum fun d hd => ?_
  obtain ⟨k, _, rfl⟩ := List.mem_map.1 hd
  exact chargeOf_nonneg h criterionKey k

theorem get?_zeroes (criteria : List RubricCriterion) (k : String) :
    ((OrderedMap.ofList (criteria.map fun c => (c.key, (0 : Int)))).get? k).getD 0 = 0 := by
  cases hk : (OrderedMap.ofList (criteria.map fun c => (c.key, (0 : Int)))).get? k with
  | none => rfl
  | some d =>
    obtain ⟨c, _, heq⟩ := List.mem_map.1 (OrderedMap.mem_of_get?_ofList hk)
    exact (Prod.mk.inj heq).2.symm

theorem scoreHundredths_eq {s : DeductionScore}
    (hs : computeDeductionScore criteria rules keys = .ok s) :
    s.scoreHundredths = max 0 ((criteria.map RubricCriterion.maxHundredths).sum -
      (criteria.map fun c => min (chargesOf rules keys c.key) c.maxHundredths).sum) := by
  rw [computeDeductionScore] at hs
  cases hc : chargeAll criteria (scoringTable rules) keys.eraseDups
      ⟨.ofList (criteria.map fun c => (c.key, 0)), []⟩ with
  | error e =>
    rw [hc] at hs
    cases hs
  | ok c =>
    rw [hc] at hs
    cases hs
    have hlines : (criteria.map (criterionScore c.deducted)).map CriterionScore.deductedHundredths =
        criteria.map fun c => min (chargesOf rules keys c.key) c.maxHundredths := by
      rw [List.map_map]
      refine List.map_congr_left fun criterion _ => ?_
      show min ((c.deducted.get? criterion.key).getD 0) criterion.maxHundredths = _
      rw [chargeAll_deducted hc, get?_zeroes, zero_add]
      rfl
    show max 0 (_ - ((criteria.map (criterionScore c.deducted)).map _).sum) = _
    rw [hlines]

theorem computeDeductionScore_mono (h : NoNegativePrice rules) {keys' : List String}
    (hsub : ∀ k ∈ keys', k ∈ keys) {s s' : DeductionScore}
    (hs : computeDeductionScore criteria rules keys = .ok s)
    (hs' : computeDeductionScore criteria rules keys' = .ok s') :
    s.scoreHundredths ≤ s'.scoreHundredths := by
  rw [scoreHundredths_eq hs, scoreHundredths_eq hs']
  refine max_le_max le_rfl (sub_le_sub_left ?_ _)
  refine List.sum_le_sum fun c _ => ?_
  exact min_le_min (chargesOf_mono h hsub c.key) le_rfl

end Charges

/-! ## Inputs that differ in gates and conclusions -/

variable {K : Type}

namespace DecisionInput

/-- The conclusions of the lenses on the errors. -/
def conclusions (input : DecisionInput K) : List ChallengeConclusion :=
  (input.challenge.map StoredChallenge.perError).getD []

/-- The keys of the errors that the machine measured. -/
def machineKeys (input : DecisionInput K) : List String :=
  (input.errors.filter fun e => e.source = .deterministic).map DiagnosedError.ruleKey

/-- What the machine's errors take from a criterion, among the keys that the
score is computed from. -/
def machineCharge (input : DecisionInput K) (criterionKey : String) : Int :=
  chargesOf (input.rules.map ErrorRule.toScoringRule)
    (input.scoredKeys.filter (· ∈ input.machineKeys)) criterionKey

end DecisionInput

/-- Two inputs that agree on everything but the challenge and the gates. -/
structure SameCase (a b : DecisionInput K) : Prop where
  eq : b = { a with
    challenge := b.challenge
    rulerTrust := b.rulerTrust
    autoBlockedRuleKeys := b.autoBlockedRuleKeys
    autoNoErrorEnabled := b.autoNoErrorEnabled }

/-- The second input has more gates closed, and notes of the lenses added. -/
structure Tightened (a b : DecisionInput K) : Prop extends SameCase a b where
  conclusions : b.conclusions = a.conclusions
  notes : ∀ n ∈ a.caseNotes, n ∈ b.caseNotes
  ruler : b.rulerTrust = a.rulerTrust ∨ b.rulerTrust = some .unverified
  blocked : ∀ k ∈ a.autoBlockedRuleKeys.getD [], k ∈ b.autoBlockedRuleKeys.getD []
  noError : b.autoNoErrorEnabled = a.autoNoErrorEnabled ∨ b.autoNoErrorEnabled = some false

/-- The lenses concluded more in the second input: every status they gave to a
key is still there, among others and in any order. -/
structure MoreConclusions (a b : DecisionInput K) : Prop extends SameCase a b where
  notes : b.caseNotes = a.caseNotes
  ruler : b.rulerTrust = a.rulerTrust
  blocked : b.autoBlockedRuleKeys = a.autoBlockedRuleKeys
  noError : b.autoNoErrorEnabled = a.autoNoErrorEnabled
  statuses : ∀ key, ∀ status ∈ statusesOf key a.conclusions, status ∈ statusesOf key b.conclusions

theorem mem_statusesOf_insert (l₁ l₂ : List ChallengeConclusion) (c : ChallengeConclusion)
    {key : String} {status : ChallengeStatus} (h : status ∈ statusesOf key (l₁ ++ l₂)) :
    status ∈ statusesOf key (l₁ ++ c :: l₂) := by
  unfold statusesOf at h ⊢
  rw [List.flatMap_append, List.mem_append] at h ⊢
  rw [List.flatMap_cons, List.mem_append]
  exact h.imp_right Or.inr

/-! ## What does not read a gate or a conclusion -/

section Same

variable {a b : DecisionInput K}

namespace SameCase

theorem errors (h : SameCase a b) : b.errors = a.errors := by
  rw [h.eq]
  rfl

theorem floor (h : SameCase a b) : b.floor = a.floor := by
  rw [h.eq]
  rfl

theorem flooredAt (h : SameCase a b) : b.flooredAt = a.flooredAt := by
  rw [h.eq]
  rfl

theorem rules (h : SameCase a b) : b.rules = a.rules := by
  rw [h.eq]

theorem criterionFlags (h : SameCase a b) : b.criterionFlags = a.criterionFlags := by
  rw [h.eq]
  rfl

theorem nothingPassedFlags (h : SameCase a b) :
    b.nothingPassedFlags = a.nothingPassedFlags := by
  rw [h.eq]
  rfl

theorem result (h : SameCase a b) : b.result = a.result := by
  rw [h.eq]

theorem pipeline (h : SameCase a b) : b.pipeline = a.pipeline := by
  rw [h.eq]

theorem machineKeys (h : SameCase a b) : b.machineKeys = a.machineKeys := by
  unfold DecisionInput.machineKeys
  rw [h.errors]

theorem score (h : SameCase a b) :
    b.score = computeDeductionScore a.rubric (a.rules.map ErrorRule.toScoringRule)
      b.scoredKeys := by
  unfold DecisionInput.score
  rw [h.eq]

theorem confidence [Number K] (h : SameCase a b)
    (hkeys : b.unverifiedKeys = [] ↔ a.unverifiedKeys = []) : b.confidence = a.confidence := by
  unfold DecisionInput.confidence
  dsimp only
  simp only [ne_eq, hkeys]
  rw [h.eq]
  rfl

end SameCase

theorem challengedKeys_eq (input : DecisionInput K) (status : ChallengeStatus) :
    input.challengedKeys status = ((input.errors.filter (fun e => e.source ≠ .deterministic ∧
      mergedStatusOf e.ruleKey input.conclusions = some status)).map
        DiagnosedError.ruleKey).eraseDups := by
  unfold DecisionInput.challengedKeys DecisionInput.conclusions
  cases input.challenge with
  | some challenge => rfl
  | none =>
    have hnone : ∀ key, mergedStatusOf key [] = none := fun _ => rfl
    simp [hnone]

variable {input : DecisionInput K} {key : String}

theorem mem_challengedKeys_iff {status : ChallengeStatus} :
    key ∈ input.challengedKeys status ↔ ∃ e ∈ input.errors, e.ruleKey = key ∧
      e.source ≠ .deterministic ∧ mergedStatusOf e.ruleKey input.conclusions = some status := by
  rw [challengedKeys_eq, List.mem_eraseDups, List.mem_map]
  simp only [List.mem_filter, decide_eq_true_eq]
  constructor
  · rintro ⟨e, ⟨he, hs, hm⟩, hk⟩
    exact ⟨e, he, hk, hs, hm⟩
  · rintro ⟨e, he, hk, hs, hm⟩
    exact ⟨e, ⟨he, hs, hm⟩, hk⟩

theorem unverified_iff {e : DiagnosedError} :
    Unverified input e ↔ e.source ≠ .deterministic ∧
      mergedStatusOf e.ruleKey input.conclusions = some .unverified := by
  unfold Unverified DecisionInput.conclusions
  rw [mergedStatusOf_unverified]
  cases input.challenge with
  | some challenge => simp
  | none => simp [statusesOf]

/-! ## Gates -/

namespace Tightened

theorem challengedKeys (h : Tightened a b) (status : ChallengeStatus) :
    b.challengedKeys status = a.challengedKeys status := by
  rw [challengedKeys_eq, challengedKeys_eq, h.conclusions, h.errors]

theorem scoredKeys (h : Tightened a b) : b.scoredKeys = a.scoredKeys := by
  unfold DecisionInput.scoredKeys DecisionInput.refutedKeys
  rw [h.challengedKeys, h.errors]

theorem confidence [Number K] (h : Tightened a b) : b.confidence = a.confidence := by
  refine h.toSameCase.confidence ?_
  unfold DecisionInput.unverifiedKeys
  rw [h.challengedKeys]

theorem ownCaseFlags (h : Tightened a b) (hb : b.ownCaseFlags = []) : a.ownCaseFlags = [] := by
  rw [ownCaseFlags_eq_nil] at hb ⊢
  obtain ⟨hcrit, hpass, hflags, hpipe, hsus, hcon, hruler, hno, hblocked⟩ := hb
  rw [h.criterionFlags] at hcrit
  rw [h.nothingPassedFlags] at hpass
  rw [h.result] at hflags
  rw [h.pipeline] at hpipe
  rw [h.errors] at hno hblocked
  refine ⟨hcrit, hpass, hflags, hpipe, fun n hn => hsus n (h.notes n hn),
    fun n hn => hcon n (h.notes n hn), ?_, ?_, fun e he hk => hblocked e he (h.blocked _ hk)⟩
  · rcases h.ruler with heq | hun
    · rw [← heq]
      exact hruler
    · exact absurd hun hruler
  · intro hnil
    rcases h.noError with heq | hoff
    · rw [← heq]
      exact hno hnil
    · exact absurd hoff (hno hnil)

theorem errorFlagsOf (h : Tightened a b) (s : DeductionScore) :
    b.errorFlagsOf s = a.errorFlagsOf s := by
  unfold DecisionInput.errorFlagsOf DecisionInput.refutedKeys DecisionInput.unverifiedKeys
  rw [h.challengedKeys, h.challengedKeys]

end Tightened

/-- What a decision says of the work itself. -/
def Decision.graded (d : Decision K) : Option Int × List DiagnosedError × Option K :=
  (d.scoreHundredths, d.errors, d.confidence)

section Gates

variable [Number K]

theorem Tightened.decide_graded (h : Tightened a b) :
    b.decide.map Decision.graded = a.decide.map Decision.graded := by
  unfold DecisionInput.decide
  rw [h.floor, h.flooredAt]
  cases a.floor with
  | some f => rfl
  | none =>
    dsimp only
    rw [h.score, h.scoredKeys]
    show (Except.map b.decisionOf a.score).map _ = _
    cases a.score with
    | error e => rfl
    | ok s =>
      show Except.ok (some s.scoreHundredths, b.errors, some b.confidence) = _
      rw [h.errors, h.confidence]
      rfl

theorem Tightened.outcome (h : Tightened a b) {d d' : Decision K} (hd : a.decide = .ok d)
    (hd' : b.decide = .ok d') (hauto : d'.outcome = .auto) : d.outcome = .auto := by
  rcases decide_cases hd' with ⟨f, _, rfl⟩ | ⟨s', hf', hs', rfl⟩
  · cases hauto
  · rcases decide_cases hd with ⟨f, hf, _⟩ | ⟨s, _, hs, rfl⟩
    · rw [h.floor, hf] at hf'
      cases hf'
    · have hsame : b.score = a.score := by
        rw [h.score, h.scoredKeys]
        rfl
      rw [hsame, hs] at hs'
      cases hs'
      rw [decisionOf_outcome_auto, decisionOf_flags_eq_nil] at hauto ⊢
      obtain ⟨hown, herr, hconf⟩ := hauto
      have htheta : b.theta = a.theta := by rw [h.eq]
      rw [h.errorFlagsOf] at herr
      rw [h.confidence, htheta] at hconf
      exact ⟨h.ownCaseFlags hown, herr, hconf⟩

end Gates

/-! ## Conclusions -/

theorem not_machineKey_of_challenged {e : DiagnosedError} (he : e ∈ input.errors)
    (hs : e.source ≠ .deterministic) : e.ruleKey ∉ input.machineKeys := by
  intro hk
  unfold DecisionInput.machineKeys at hk
  obtain ⟨m, hm, hkey⟩ := List.mem_map.1 hk
  obtain ⟨hmem, hsource⟩ := List.mem_filter.1 hm
  have hsource := of_decide_eq_true hsource
  unfold DecisionInput.errors DecisionInput.diagnosis at he hmem
  by_cases hkind : input.result.kind = .verdict
  · rw [diagnose_errors hkind, List.mem_append] at he hmem
    have hmach : m ∈ machineErrors input.rules input.bundle input.result.investigation := by
      refine hmem.resolve_right fun hprop => ?_
      obtain ⟨_, v, _, r, _, _, rfl⟩ := mem_proposalLoop hprop
      unfold proposedError at hsource
      dsimp only at hsource
      split_ifs at hsource
    rcases he with he | he
    · obtain ⟨r, _, hr⟩ := mem_machineErrors.1 he
      exact hs (machineError_eq_some hr).2.2.2
    · exact (mem_proposalLoop he).1 (hkey ▸ List.mem_map_of_mem hmach)
  · rw [diagnose_of_not_verdict hkind] at he
    cases he

theorem machineKey_not_refuted (hk : key ∈ input.machineKeys) : key ∉ input.refutedKeys := by
  intro hr
  obtain ⟨e, he, rfl, hs, _⟩ := mem_challengedKeys_iff.1 hr
  exact not_machineKey_of_challenged he hs hk

theorem machineKey_scored (hk : key ∈ input.machineKeys) : key ∈ input.scoredKeys := by
  have hnot := machineKey_not_refuted hk
  unfold DecisionInput.machineKeys at hk
  obtain ⟨e, he, rfl⟩ := List.mem_map.1 hk
  refine List.mem_map.2 ⟨e, List.mem_filter.2 ⟨(List.mem_filter.1 he).1, ?_⟩, rfl⟩
  exact decide_eq_true hnot

theorem scoredKeys_machine (input : DecisionInput K) :
    input.scoredKeys.filter (· ∈ input.machineKeys) =
      (input.errors.map DiagnosedError.ruleKey).filter (· ∈ input.machineKeys) := by
  unfold DecisionInput.scoredKeys
  rw [List.filter_map, List.filter_map, List.filter_filter]
  refine congrArg _ (List.filter_congr fun e _ => ?_)
  rw [Bool.eq_iff_iff]
  simp only [Function.comp_apply, Bool.and_eq_true, decide_eq_true_eq]
  exact and_iff_left_of_imp machineKey_not_refuted

theorem SameCase.machineCharge (h : SameCase a b) (criterionKey : String) :
    b.machineCharge criterionKey = a.machineCharge criterionKey := by
  unfold DecisionInput.machineCharge
  rw [scoredKeys_machine, scoredKeys_machine, h.errors, h.machineKeys, h.rules]

namespace MoreConclusions

theorem refutedKeys (h : MoreConclusions a b) {key : String} (hk : key ∈ a.refutedKeys) :
    key ∈ b.refutedKeys := by
  obtain ⟨e, he, hkey, hs, hm⟩ := mem_challengedKeys_iff.1 hk
  refine mem_challengedKeys_iff.2 ⟨e, h.errors ▸ he, hkey, hs, ?_⟩
  rw [mergedStatusOf_refuted] at hm ⊢
  exact h.statuses _ _ hm

theorem scoredKeys (h : MoreConclusions a b) {key : String} (hk : key ∈ b.scoredKeys) :
    key ∈ a.scoredKeys := by
  obtain ⟨e, he, rfl⟩ := List.mem_map.1 hk
  obtain ⟨hmem, hnot⟩ := List.mem_filter.1 he
  refine List.mem_map.2 ⟨e, List.mem_filter.2 ⟨h.errors ▸ hmem, ?_⟩, rfl⟩
  exact decide_eq_true fun hr => of_decide_eq_true hnot (h.refutedKeys hr)

theorem ownCaseFlags (h : MoreConclusions a b) (hb : b.ownCaseFlags = []) :
    a.ownCaseFlags = [] := by
  rw [ownCaseFlags_eq_nil] at hb ⊢
  rw [h.criterionFlags, h.nothingPassedFlags, h.result, h.pipeline, h.notes, h.ruler, h.errors,
    h.noError, h.blocked] at hb
  exact hb

theorem confirmed (h : MoreConclusions a b) (href : b.refutedKeys = [])
    (hun : b.unverifiedKeys = []) {e : DiagnosedError} (he : e ∈ a.errors)
    (hu : Unverified a e) : .confirmed ∈ statusesOf e.ruleKey b.conclusions := by
  obtain ⟨hs, hm⟩ := unverified_iff.1 hu
  obtain ⟨hne, _⟩ := mergedStatusOf_unverified.1 hm
  obtain ⟨status, hstatus⟩ := List.exists_mem_of_ne_nil _ hne
  have hb := h.statuses _ _ hstatus
  by_contra hno
  have hnotref : .refuted ∉ statusesOf e.ruleKey b.conclusions := by
    intro hr
    have hmem : e.ruleKey ∈ b.refutedKeys :=
      mem_challengedKeys_iff.2 ⟨e, h.errors ▸ he, rfl, hs, mergedStatusOf_refuted.2 hr⟩
    rw [href] at hmem
    cases hmem
  have hmem : e.ruleKey ∈ b.unverifiedKeys := by
    refine mem_challengedKeys_iff.2 ⟨e, h.errors ▸ he, rfl, hs, ?_⟩
    refine mergedStatusOf_unverified.2 ⟨List.ne_nil_of_mem hb, fun s hmem => ?_⟩
    cases s with
    | confirmed => exact absurd hmem hno
    | refuted => exact absurd hmem hnotref
    | unverified => rfl
  rw [hun] at hmem
  cases hmem

theorem score (h : MoreConclusions a b)
    (hprice : NoNegativePrice (a.rules.map ErrorRule.toScoringRule)) {s : DeductionScore}
    (hs : a.score = .ok s) :
    ∃ s', b.score = .ok s' ∧ s.scoreHundredths ≤ s'.scoreHundredths := by
  unfold DecisionInput.score at hs
  have hchargeable := computeDeductionScore_isOk.1 ⟨s, hs⟩
  have hok : ∃ s', b.score = .ok s' := by
    rw [h.toSameCase.score]
    exact computeDeductionScore_isOk.2 fun k hk => hchargeable k (h.scoredKeys hk)
  obtain ⟨s', hs'⟩ := hok
  refine ⟨s', hs', ?_⟩
  rw [h.toSameCase.score] at hs'
  exact computeDeductionScore_mono hprice (fun k hk => h.scoredKeys hk) hs hs'

variable [Number K]

theorem outcome (h : MoreConclusions a b) {s s' : DeductionScore}
    (hs : a.score = .ok s) (hs' : b.score = .ok s')
    (hflagged : (a.decisionOf s).outcome ≠ .auto) (hauto : (b.decisionOf s').outcome = .auto) :
    (∃ e ∈ a.errors, Unverified a e) ∧
      ∀ e ∈ a.errors, Unverified a e → .confirmed ∈ statusesOf e.ruleKey b.conclusions := by
  rw [decisionOf_outcome_auto, decisionOf_flags_eq_nil] at hauto
  obtain ⟨hown, herr, hconf⟩ := hauto
  unfold DecisionInput.errorFlagsOf at herr
  simp only [List.append_eq_nil_iff, List.map_eq_nil_iff] at herr
  obtain ⟨⟨hunpriced, href⟩, hun⟩ := herr
  refine ⟨?_, fun e he hu => h.confirmed href hun he hu⟩
  by_contra hnone
  have hun' : a.unverifiedKeys = [] := by
    refine List.eq_nil_iff_forall_not_mem.2 fun key hk => hnone ?_
    obtain ⟨e, he, _, hsource, hm⟩ := mem_challengedKeys_iff.1 hk
    exact ⟨e, he, unverified_iff.2 ⟨hsource, hm⟩⟩
  have href' : a.refutedKeys = [] := by
    refine List.eq_nil_iff_forall_not_mem.2 fun key hk => ?_
    have hb := h.refutedKeys hk
    rw [href] at hb
    cases hb
  -- nothing is refuted on either side, so both score the same keys
  have hkeys : b.scoredKeys = a.scoredKeys := by
    unfold DecisionInput.scoredKeys
    rw [href, href', h.errors]
  have hsame : b.score = a.score := by
    rw [h.toSameCase.score, hkeys]
    rfl
  rw [hsame, hs] at hs'
  cases hs'
  refine hflagged (decisionOf_outcome_auto.2 (decisionOf_flags_eq_nil.2 ?_))
  have hsameConf : b.confidence = a.confidence := h.confidence (by rw [hun, hun'])
  have htheta : b.theta = a.theta := by rw [h.eq]
  refine ⟨h.ownCaseFlags hown, ?_, htheta ▸ hsameConf ▸ hconf⟩
  unfold DecisionInput.errorFlagsOf
  rw [hunpriced, href', hun']
  rfl

end MoreConclusions

end Same

/-! ## The result -/

variable [Number K]

theorem refuted_prevails {input : DecisionInput K} {e : DiagnosedError} (he : e ∈ input.errors)
    (hs : e.source ≠ .deterministic)
    (hr : .refuted ∈ statusesOf e.ruleKey input.conclusions) {d : Decision K}
    (hd : input.decide = .ok d) : e.ruleKey ∉ input.scoredKeys ∧ d.outcome ≠ .auto := by
  have hmem : e.ruleKey ∈ input.refutedKeys :=
    mem_challengedKeys_iff.2 ⟨e, he, rfl, hs, mergedStatusOf_refuted.2 hr⟩
  constructor
  · intro hk
    obtain ⟨e', he', hkey⟩ := List.mem_map.1 hk
    exact of_decide_eq_true (List.mem_filter.1 he').2 (hkey ▸ hmem)
  · intro hauto
    rcases decide_cases hd with ⟨f, _, rfl⟩ | ⟨s, _, _, rfl⟩
    · cases hauto
    · obtain ⟨_, herr⟩ := decisionOf_outcome_auto.1 hauto
      have hflag : (⟨e.ruleKey, .refuted⟩ : ErrorFlag) ∈ (input.decisionOf s).errorFlags := by
        show _ ∈ input.errorFlagsOf s
        unfold DecisionInput.errorFlagsOf
        rw [List.mem_append, List.mem_append]
        exact Or.inl (Or.inr (List.mem_map_of_mem hmem))
      rw [herr] at hflag
      cases hflag

/-- **Gates and challenges.**  Closing gates never lets a paper through and
leaves score, errors and confidence alone.  Conclusions of the lenses never
lower the score, never touch what the machine's errors take, and let a flagged
paper through only by confirming every error that was left unverified; one
refutation prevails over every other status. -/
theorem gates_and_conclusions_restrict (a b : DecisionInput K) :
    (Tightened a b →
      b.decide.map Decision.graded = a.decide.map Decision.graded ∧
        ∀ d d', a.decide = .ok d → b.decide = .ok d' → d'.outcome = .auto →
          d.outcome = .auto) ∧
    (MoreConclusions a b → NoNegativePrice (a.rules.map ErrorRule.toScoringRule) →
      ∀ d, a.decide = .ok d → ∃ d', b.decide = .ok d' ∧
        (d.outcome ≠ .auto → d'.outcome = .auto → (∃ e ∈ a.errors, Unverified a e) ∧
          ∀ e ∈ a.errors, Unverified a e → .confirmed ∈ statusesOf e.ruleKey b.conclusions) ∧
        (∀ s, d.scoreHundredths = some s → ∃ s', d'.scoreHundredths = some s' ∧ s ≤ s') ∧
        (∀ key ∈ a.machineKeys, key ∈ b.scoredKeys) ∧
        (∀ k, b.machineCharge k = a.machineCharge k) ∧
        ∀ e ∈ b.errors, e.source ≠ .deterministic →
          .refuted ∈ statusesOf e.ruleKey b.conclusions →
            e.ruleKey ∉ b.scoredKeys ∧ d'.outcome ≠ .auto) := by
  refine ⟨fun h => ⟨h.decide_graded, fun d d' hd hd' => h.outcome hd hd'⟩, ?_⟩
  intro h hprice d hd
  have hmachine : ∀ key ∈ a.machineKeys, key ∈ b.scoredKeys := fun key hk =>
    machineKey_scored (h.machineKeys ▸ hk)
  rcases decide_cases hd with ⟨f, hf, rfl⟩ | ⟨s, hf, hs, rfl⟩
  · have hd' : b.decide = .ok (a.flooredAt f) := by
      unfold DecisionInput.decide
      rw [h.floor, hf, h.flooredAt]
    refine ⟨_, hd', fun _ hauto => ?_, fun s hs => ?_, hmachine, h.machineCharge,
      fun e he hsource hr => refuted_prevails he hsource hr hd'⟩
    · cases hauto
    · cases hs
  · obtain ⟨s', hs', hle⟩ := h.score hprice hs
    have hd' : b.decide = .ok (b.decisionOf s') := by
      unfold DecisionInput.decide
      rw [h.floor, hf, hs']
      rfl
    refine ⟨_, hd', fun hflagged hauto => h.outcome hs hs' hflagged hauto, fun t ht => ?_,
      hmachine, h.machineCharge, fun e he hsource hr => refuted_prevails he hsource hr hd'⟩
    obtain rfl : s.scoreHundredths = t := Option.some.inj ht
    exact ⟨_, rfl, hle⟩

/-- The clean paper with one error that the model backed by a run, and what the
lenses concluded on it. -/
def challengedPaper (perError : List ChallengeConclusion) : DecisionInput ℚ :=
  { cleanPaper with
    result := { cleanPaper.result with verdict := some ⟨[⟨"wrong-output", ["tc-1"]⟩], []⟩ }
    challenge := some ⟨perError, []⟩ }

/-- The paper of an error on which one lens ran out of time. -/
def unverifiedPaper : DecisionInput ℚ :=
  challengedPaper [⟨"correctness", [⟨"wrong-output", .unverified⟩]⟩]

/-- The same paper after a second lens confirmed the error. -/
def confirmedPaper : DecisionInput ℚ :=
  challengedPaper [⟨"correctness", [⟨"wrong-output", .unverified⟩]⟩,
    ⟨"severity", [⟨"wrong-output", .confirmed⟩]⟩]

theorem moreConclusions_confirmedPaper : MoreConclusions unverifiedPaper confirmedPaper where
  eq := rfl
  notes := rfl
  ruler := rfl
  blocked := rfl
  noError := rfl
  statuses := fun _ _ h => mem_statusesOf_insert [⟨"correctness",
    [⟨"wrong-output", .unverified⟩]⟩] [] ⟨"severity", [⟨"wrong-output", .confirmed⟩]⟩ h

theorem tightened_unverifiedPaper :
    Tightened unverifiedPaper { unverifiedPaper with autoBlockedRuleKeys := some ["wrong-output"] }
    where
  eq := rfl
  conclusions := rfl
  notes := fun _ h => h
  ruler := Or.inl rfl
  blocked := fun _ h => (List.not_mem_nil h).elim
  noError := Or.inl rfl

/-- Blocking the rule of the unverified paper changes nothing in its grade, and
the second lens confirms the error that was left unverified. -/
theorem restrict_unverifiedPaper :
    ({ unverifiedPaper with
          autoBlockedRuleKeys := some ["wrong-output"] } : DecisionInput ℚ).decide.map
        Decision.graded = unverifiedPaper.decide.map Decision.graded ∧
      ∃ e ∈ unverifiedPaper.errors, Unverified unverifiedPaper e ∧
        .confirmed ∈ statusesOf e.ruleKey confirmedPaper.conclusions := by
  refine ⟨((gates_and_conclusions_restrict _ _).1 tightened_unverifiedPaper).1, ?_⟩
  obtain ⟨d, hd, hflagged⟩ := exists_decision unverifiedPaper (o := .flagged) (by decide +kernel)
  obtain ⟨d₂, hd₂, hauto⟩ := exists_decision confirmedPaper (o := .auto) (by decide +kernel)
  have hprice : NoNegativePrice (unverifiedPaper.rules.map ErrorRule.toScoringRule) := by
    intro r hr x hx
    obtain rfl : r = ⟨"wrong-output", "correctness", some 40⟩ := List.mem_singleton.1 hr
    cases hx
    decide
  obtain ⟨d', hd', hconf, _⟩ := (gates_and_conclusions_restrict unverifiedPaper confirmedPaper).2
    moreConclusions_confirmedPaper hprice d hd
  rw [hd₂] at hd'
  cases hd'
  obtain ⟨⟨e, he, hu⟩, hall⟩ := hconf (by rw [hflagged]; decide) hauto
  exact ⟨e, he, hu, hall e he hu⟩

/-- A conclusion can let a flagged paper through. -/
theorem conclusion_lets_through :
    MoreConclusions unverifiedPaper confirmedPaper ∧
      (∃ d, unverifiedPaper.decide = .ok d ∧ d.outcome = .flagged) ∧
      ∃ d, confirmedPaper.decide = .ok d ∧ d.outcome = .auto :=
  ⟨moreConclusions_confirmedPaper, exists_decision unverifiedPaper (by decide +kernel),
    exists_decision confirmedPaper (by decide +kernel)⟩

end Cine.Grading
