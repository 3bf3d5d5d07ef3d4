import Cine.Grading.Scoring.ScoreView
import Mathlib.Algebra.BigOperators.Group.List.Lemmas
import Mathlib.Algebra.Order.BigOperators.Group.List

/-!
# The order of the rules

A decision reads the error table through lookups by key, through loops over
the rules, and through sums.  Where the keys are distinct a reordered table
gives the same lookups, reordered lists and the same sums.

* `diagnose_errors_perm`: the errors are reordered.  Only the machine's
  errors follow the table; the proposals keep the order of the verdict.
* `computeDeductionScore_perm`: a criterion is charged the same sum.
* `caseConfidence_perm`: the machine's errors come first and add up whole
  numbers, so that not even the rounding depends on their order.
* `decisionOf_perm`: the decision is the same up to the order of its lists
  and of the gaps that a flag names.
-/

namespace Cine.Grading

open Cine.Lib

/-! ## The diagnosis -/

section Diagnosis

variable {K : Type} {rules rules' : List ErrorRule} {bundle : List BundleCase}
  {inv : Investigation} {result : InvestigationResult K}

theorem machineErrors_perm (h : rules.Perm rules') :
    (machineErrors rules bundle inv).Perm (machineErrors rules' bundle inv) :=
  h.filterMap _

theorem rulesByKey_perm (hnd : (rules.map ErrorRule.ruleKey).Nodup) (h : rules.Perm rules')
    (k : String) : (rulesByKey rules).get? k = (rulesByKey rules').get? k := by
  refine OrderedMap.get?_ofList_perm ?_ (h.map _) k
  simpa [List.map_map, Function.comp_def] using hnd

theorem proposalLoop_seen {byKey : OrderedMap String ErrorRule} {toolCalls : List ToolCall}
    (es : List VerdictError) {seen seen' : List String} (h : ∀ k, k ∈ seen ↔ k ∈ seen') :
    proposalLoop byKey toolCalls es seen = proposalLoop byKey toolCalls es seen' := by
  induction es generalizing seen seen' with
  | nil => rfl
  | cons v es ih =>
    have hinsert : ∀ k, k ∈ insertLast seen v.ruleKey ↔ k ∈ insertLast seen' v.ruleKey := by
      intro k
      rw [mem_insertLast, mem_insertLast, h]
    rw [proposalLoop, proposalLoop, ih h, ih hinsert]
    simp only [h]

/-- The errors of the second loop. -/
def proposedErrors (rules : List ErrorRule) (bundle : List BundleCase)
    (result : InvestigationResult K) : List DiagnosedError :=
  (proposalLoop (rulesByKey rules) result.investigation.toolCalls
    ((result.verdict.map Verdict.errors).getD [])
    ((machineErrors rules bundle result.investigation).map DiagnosedError.ruleKey)).1

theorem proposedErrors_perm (hnd : (rules.map ErrorRule.ruleKey).Nodup) (h : rules.Perm rules') :
    proposedErrors rules bundle result = proposedErrors rules' bundle result := by
  unfold proposedErrors
  rw [proposalLoop_congr (fun v _ => rulesByKey_perm hnd h v.ruleKey)]
  refine congrArg Prod.fst (proposalLoop_seen _ fun k => ?_)
  exact ((machineErrors_perm h).map DiagnosedError.ruleKey).mem_iff

theorem diagnose_errors_perm (hnd : (rules.map ErrorRule.ruleKey).Nodup)
    (h : rules.Perm rules') :
    (diagnose rules bundle result).errors.Perm (diagnose rules' bundle result).errors := by
  by_cases hkind : result.kind = .verdict
  · rw [diagnose_errors hkind, diagnose_errors hkind]
    show (_ ++ proposedErrors rules bundle result).Perm
      (_ ++ proposedErrors rules' bundle result)
    rw [proposedErrors_perm hnd h]
    exact (machineErrors_perm h).append_right _
  · rw [diagnose_of_not_verdict hkind, diagnose_of_not_verdict hkind]

theorem find?_perm {α : Type} (key : α → String) {l l' : List α} (hnd : (l.map key).Nodup)
    (h : l.Perm l') (k : String) :
    l.find? (fun a => key a = k) = l'.find? (fun a => key a = k) := by
  have hnd' : (l'.map key).Nodup := (h.map key).nodup_iff.1 hnd
  cases hk : l'.find? (fun a => key a = k) with
  | none =>
    rw [List.find?_eq_none] at hk ⊢
    exact fun a ha => hk a (h.mem_iff.1 ha)
  | some b =>
    have hfound := List.find?_some hk
    have hb : key b = k := of_decide_eq_true hfound
    have hmem : b ∈ l := h.mem_iff.2 (List.mem_of_find?_eq_some hk)
    have hsome : (l.find? fun a => key a = k).isSome := by
      rw [List.find?_isSome]
      exact ⟨b, hmem, decide_eq_true hb⟩
    obtain ⟨a, ha⟩ := Option.isSome_iff_exists.1 hsome
    have hfirst := List.find?_some ha
    have hka : key a = k := of_decide_eq_true hfirst
    rw [ha, List.inj_on_of_nodup_map hnd (List.mem_of_find?_eq_some ha) hmem (hka.trans hb.symm)]

theorem measurement_perm (hnd : (rules.map ErrorRule.ruleKey).Nodup) (h : rules.Perm rules')
    (k : String) :
    (diagnose rules bundle result).measurements.find? (fun m => m.ruleKey = k) =
      (diagnose rules' bundle result).measurements.find? (fun m => m.ruleKey = k) := by
  by_cases hkind : result.kind = .verdict
  · rw [diagnose_measurements hkind, diagnose_measurements hkind]
    refine find?_perm Measurement.ruleKey ?_ (h.filterMap _) k
    rw [List.map_filterMap]
    refine List.Nodup.sublist ?_ hnd
    clear hnd h hkind
    induction rules with
    | nil => exact List.Sublist.slnil
    | cons r rules ih =>
      rw [List.filterMap_cons, List.map_cons]
      cases hp : r.predicate with
      | none => simpa [measureRule, hp] using ih.cons r.ruleKey
      | some p => simpa [measureRule, hp] using ih
  · rw [diagnose_of_not_verdict hkind, diagnose_of_not_verdict hkind]

end Diagnosis

/-! ## The score -/

section Score

variable {criteria : List RubricCriterion} {byRule byRule' : OrderedMap String ScoringRule}

/-- What the key `key` takes from the criterion `criterionKey`. -/
def chargeOf (byRule : OrderedMap String ScoringRule) (criterionKey key : String) : Int :=
  match byRule.get? key with
  | none => 0
  | some rule => if rule.criterionKey = criterionKey then rule.deductionHundredths.getD 0 else 0

theorem chargeOne_deducted {c c' : Charges} {key : String}
    (h : chargeOne criteria byRule c key = .ok c') (k : String) :
    (c'.deducted.get? k).getD 0 = (c.deducted.get? k).getD 0 + chargeOf byRule k key := by
  unfold chargeOne at h
  unfold chargeOf
  cases hr : byRule.get? key with
  | none =>
    rw [hr] at h
    cases h
  | some rule =>
    rw [hr] at h
    dsimp only at h ⊢
    split_ifs at h with hc
    cases hd : rule.deductionHundredths with
    | none =>
      rw [hd] at h
      cases h
      split_ifs <;> simp
    | some d =>
      rw [hd] at h
      cases h
      rw [OrderedMap.get?_set]
      by_cases hk : k = rule.criterionKey
      · subst hk
        rw [if_pos rfl, if_pos rfl]
        rfl
      · rw [if_neg hk, if_neg (Ne.symm hk), add_zero]

theorem chargeAll_deducted {keys : List String} {c c' : Charges}
    (h : chargeAll criteria byRule keys c = .ok c') (k : String) :
    (c'.deducted.get? k).getD 0 =
      (c.deducted.get? k).getD 0 + (keys.map (chargeOf byRule k)).sum := by
  induction keys generalizing c with
  | nil =>
    cases h
    simp
  | cons key keys ih =>
    rw [chargeAll] at h
    cases hone : chargeOne criteria byRule c key with
    | error e =>
      rw [hone] at h
      cases h
    | ok c₁ =>
      rw [hone] at h
      rw [ih h, chargeOne_deducted hone, List.map_cons, List.sum_cons, add_assoc]

theorem scoringTable_perm {rules rules' : List ScoringRule}
    (hnd : (rules.map ScoringRule.ruleKey).Nodup) (h : rules.Perm rules') (k : String) :
    (scoringTable rules).get? k = (scoringTable rules').get? k := by
  refine OrderedMap.get?_ofList_perm ?_ (h.map _) k
  simpa [List.map_map, Function.comp_def] using hnd

theorem computeDeductionScore_perm {rules rules' : List ScoringRule} {keys keys' : List String}
    (hkeys : keys.Perm keys')
    (htable : ∀ k ∈ keys, (scoringTable rules).get? k = (scoringTable rules').get? k)
    {s s' : DeductionScore} (hs : computeDeductionScore criteria rules keys = .ok s)
    (hs' : computeDeductionScore criteria rules' keys' = .ok s') :
    s.scoreHundredths = s'.scoreHundredths ∧ s.perCriterion = s'.perCriterion ∧
      s.unpricedRuleKeys.Perm s'.unpricedRuleKeys := by
  rw [computeDeductionScore_congr htable] at hs
  have hunpriced := computeDeductionScore_unpriced hs
  have hunpriced' := computeDeductionScore_unpriced hs'
  rw [computeDeductionScore] at hs hs'
  cases hc : chargeAll criteria (scoringTable rules') keys.eraseDups
      ⟨.ofList (criteria.map fun c => (c.key, 0)), []⟩ with
  | error e =>
    rw [hc] at hs
    cases hs
  | ok c =>
    cases hc' : chargeAll criteria (scoringTable rules') keys'.eraseDups
        ⟨.ofList (criteria.map fun c => (c.key, 0)), []⟩ with
    | error e =>
      rw [hc'] at hs'
      cases hs'
    | ok c' =>
      rw [hc] at hs
      rw [hc'] at hs'
      cases hs
      cases hs'
      have hlines : criteria.map (criterionScore c.deducted) =
          criteria.map (criterionScore c'.deducted) := by
        refine List.map_congr_left fun criterion _ => ?_
        have hsum := ((eraseDups_perm hkeys).map
          (chargeOf (scoringTable rules') criterion.key)).sum_eq
        rw [criterionScore, criterionScore, chargeAll_deducted hc, chargeAll_deducted hc', hsum]
      refine ⟨?_, hlines, ?_⟩
      · show max 0 (_ - ((criteria.map (criterionScore c.deducted)).map _).sum) = _
        rw [hlines]
        rfl
      · rw [hunpriced, hunpriced']
        exact (eraseDups_perm hkeys).filter _

end Score

/-! ## The confidence -/

section Confidence

variable {K : Type} [Number K]

theorem foldl_machine (hexact : ExactIntegers K) (modelCeiling : K) {l : List DiagnosedError}
    (hmachine : ∀ e ∈ l, e.source = .deterministic) (hpriced : ∀ e ∈ l, e.isPriced = true)
    (start : Int) (hstart : 0 ≤ start)
    (hbound : start + (l.map fun e => e.deductionHundredths.getD 0).sum ≤ 2 ^ 53) :
    l.foldl (fun s e => s + capOf e.source modelCeiling *
        ((e.deductionHundredths.getD 0 : Int) : K)) (start : K) =
      ((start + (l.map fun e => e.deductionHundredths.getD 0).sum : Int) : K) := by
  have hpos : ∀ e ∈ l, 0 ≤ e.deductionHundredths.getD 0 := by
    intro e he
    have hp := hpriced e he
    unfold DiagnosedError.isPriced at hp
    cases hd : e.deductionHundredths with
    | none => exact le_rfl
    | some d =>
      rw [hd] at hp
      exact le_of_lt (of_decide_eq_true hp)
  induction l generalizing start with
  | nil => simp
  | cons e l ih =>
    rw [List.map_cons, List.sum_cons] at hbound ⊢
    have he : 0 ≤ e.deductionHundredths.getD 0 := hpos e List.mem_cons_self
    have hl : ∀ e' ∈ l, e' ∈ e :: l := fun e' he' => List.mem_cons_of_mem _ he'
    have hsum : 0 ≤ (l.map fun e => e.deductionHundredths.getD 0).sum :=
      List.sum_nonneg fun d hd => by
        obtain ⟨e', he', rfl⟩ := List.mem_map.1 hd
        exact hpos e' (hl e' he')
    have hcap : capOf e.source modelCeiling = ((1 : Int) : K) := by
      rw [hmachine e List.mem_cons_self]
      rfl
    rw [List.foldl_cons, hcap, hexact.one_mul, hexact.add _ _ hstart he (by omega),
      ih (fun e' he' => hmachine e' (hl e' he')) (fun e' he' => hpriced e' (hl e' he'))
        (start + e.deductionHundredths.getD 0) (by omega) (by omega)
        fun e' he' => hpos e' (hl e' he'), add_assoc]

theorem caseConfidence_perm (hexact : ExactIntegers K) {machine machine' : List DiagnosedError}
    (hmachine : ∀ e ∈ machine, e.source = .deterministic) (h : machine.Perm machine')
    (hbound : ((machine.filter DiagnosedError.isPriced).map
      fun e => e.deductionHundredths.getD 0).sum ≤ 2 ^ 53)
    (proposed : List DiagnosedError) (modelCeiling : K) (coverageComplete : Bool) :
    caseConfidence (machine ++ proposed) modelCeiling coverageComplete =
      caseConfidence (machine' ++ proposed) modelCeiling coverageComplete := by
  have hfilter := h.filter DiagnosedError.isPriced
  have hweight : ∀ start : Int,
      (machine.filter DiagnosedError.isPriced).foldl
          (fun s e => s + e.deductionHundredths.getD 0) start =
        (machine'.filter DiagnosedError.isPriced).foldl
          (fun s e => s + e.deductionHundredths.getD 0) start :=
    fun start => hfilter.foldl_eq' (fun _ _ _ _ s => by omega) start
  have hsums : ((machine.filter DiagnosedError.isPriced).map
        fun e => e.deductionHundredths.getD 0).sum =
      ((machine'.filter DiagnosedError.isPriced).map
        fun e => e.deductionHundredths.getD 0).sum := (hfilter.map _).sum_eq
  have hleft := foldl_machine hexact modelCeiling
    (fun e he => hmachine e (List.mem_filter.1 he).1) (fun e he => (List.mem_filter.1 he).2)
    0 le_rfl (by rw [zero_add]; exact hbound)
  have hright := foldl_machine hexact modelCeiling
    (fun e he => hmachine e (h.mem_iff.2 (List.mem_filter.1 he).1))
    (fun e he => (List.mem_filter.1 he).2) 0 le_rfl (by rw [zero_add, ← hsums]; exact hbound)
  unfold caseConfidence
  simp only [List.filter_append, List.foldl_append, hweight, hleft, hright, hsums]

end Confidence

/-! ## The flags and the decision -/

/-- The flag of a criterion whose rules have gaps. -/
def untouchedFlag (criterionKey : String) (gaps : List String) : CaseFlag :=
  ⟨.criterionUntouched,
    s!"tiêu chí \"{criterionKey}\" chưa chạm tới — " ++ "; ".intercalate gaps⟩

/-- Two flags that differ at most in the order in which they name gaps. -/
inductive CaseFlag.SameGaps : CaseFlag → CaseFlag → Prop
  | same (f : CaseFlag) : SameGaps f f
  | gaps (criterionKey : String) {gaps gaps' : List String} (h : gaps.Perm gaps') :
      SameGaps (untouchedFlag criterionKey gaps) (untouchedFlag criterionKey gaps')

/-- Two lists of flags that differ at most in their order and in the order
in which a flag names gaps. -/
def SameFlags (fs gs : List CaseFlag) : Prop :=
  ∃ ms, List.Forall₂ CaseFlag.SameGaps fs ms ∧ ms.Perm gs

namespace SameFlags

variable {fs gs fs' gs' : List CaseFlag}

theorem of_perm (h : fs.Perm gs) : SameFlags fs gs :=
  ⟨fs, List.forall₂_same.2 fun f _ => .same f, h⟩

theorem of_forall₂ (h : List.Forall₂ CaseFlag.SameGaps fs gs) : SameFlags fs gs :=
  ⟨gs, h, .refl gs⟩

theorem append (h : SameFlags fs gs) (h' : SameFlags fs' gs') :
    SameFlags (fs ++ fs') (gs ++ gs') := by
  obtain ⟨ms, hms, hperm⟩ := h
  obtain ⟨ms', hms', hperm'⟩ := h'
  exact ⟨ms ++ ms', List.rel_append hms hms', hperm.append hperm'⟩

theorem eq_nil_iff (h : SameFlags fs gs) : fs = [] ↔ gs = [] := by
  obtain ⟨ms, hms, hperm⟩ := h
  have hlength : fs.length = gs.length := hms.length_eq.trans hperm.length_eq
  rw [← List.length_eq_zero_iff, ← List.length_eq_zero_iff, hlength]

end SameFlags

/-- Two decisions that differ at most in the order of their lists, and of
the gaps that a flag names. -/
structure Decision.SameUpToOrder {K : Type} (d d' : Decision K) : Prop where
  outcome : d.outcome = d'.outcome
  ungradable : d.ungradable = d'.ungradable
  score : d.scoreHundredths = d'.scoreHundredths
  errors : d.errors.Perm d'.errors
  confidence : d.confidence = d'.confidence
  caseFlags : SameFlags d.caseFlags d'.caseFlags
  errorFlags : d.errorFlags.Perm d'.errorFlags

namespace DecisionInput

variable {K : Type}

/-- The input with another table of rules. -/
def withRules (a : DecisionInput K) (rules : List ErrorRule) : DecisionInput K :=
  { a with rules }

section Flags

variable {a : DecisionInput K} {rules' : List ErrorRule}

theorem errors_perm (hnd : (a.rules.map ErrorRule.ruleKey).Nodup) (h : a.rules.Perm rules') :
    a.errors.Perm (a.withRules rules').errors :=
  diagnose_errors_perm hnd h

theorem errors_eq_nil_perm (hnd : (a.rules.map ErrorRule.ruleKey).Nodup)
    (h : a.rules.Perm rules') : a.errors = [] ↔ (a.withRules rules').errors = [] := by
  rw [← List.length_eq_zero_iff, ← List.length_eq_zero_iff, (errors_perm hnd h).length_eq]

theorem floor_perm (hnd : (a.rules.map ErrorRule.ruleKey).Nodup) (h : a.rules.Perm rules') :
    a.floor = (a.withRules rules').floor :=
  floor_congr rfl rfl rfl (errors_eq_nil_perm hnd h)

theorem challengedKeys_perm (hnd : (a.rules.map ErrorRule.ruleKey).Nodup)
    (h : a.rules.Perm rules') (status : ChallengeStatus) :
    (a.challengedKeys status).Perm ((a.withRules rules').challengedKeys status) := by
  unfold challengedKeys
  rw [show (a.withRules rules').challenge = a.challenge from rfl]
  cases a.challenge with
  | none => exact .refl []
  | some challenge => exact eraseDups_perm (((errors_perm hnd h).filter _).map _)

theorem score_perm (hnd : (a.rules.map ErrorRule.ruleKey).Nodup) (h : a.rules.Perm rules')
    {s s' : DeductionScore} (hs : a.score = .ok s) (hs' : (a.withRules rules').score = .ok s') :
    s.scoreHundredths = s'.scoreHundredths ∧ s.perCriterion = s'.perCriterion ∧
      s.unpricedRuleKeys.Perm s'.unpricedRuleKeys := by
  have hkeys : a.scoredKeys.Perm (a.withRules rules').scoredKeys := by
    have hrefuted : ∀ key, key ∈ a.refutedKeys ↔ key ∈ (a.withRules rules').refutedKeys :=
      fun key => (challengedKeys_perm hnd h .refuted).mem_iff
    unfold scoredKeys
    simp only [hrefuted]
    exact ((errors_perm hnd h).filter _).map _
  have hnd' : ((a.rules.map ErrorRule.toScoringRule).map ScoringRule.ruleKey).Nodup := by
    rw [List.map_map]
    exact hnd
  exact computeDeductionScore_perm hkeys (fun k _ => scoringTable_perm hnd' (h.map _) k) hs hs'

theorem ruleGap_perm (hnd : (a.rules.map ErrorRule.ruleKey).Nodup) (h : a.rules.Perm rules')
    (r : ErrorRule) : a.ruleGap r = (a.withRules rules').ruleGap r := by
  have hmeasured : a.diagnosis.measurements.find? (fun m => m.ruleKey = r.ruleKey) =
      (a.withRules rules').diagnosis.measurements.find? (fun m => m.ruleKey = r.ruleKey) :=
    measurement_perm hnd h r.ruleKey
  unfold ruleGap
  rw [hmeasured]
  rfl

theorem criterionFlag_perm (hnd : (a.rules.map ErrorRule.ruleKey).Nodup)
    (h : a.rules.Perm rules') (c : RubricCriterion) :
    Option.Rel CaseFlag.SameGaps (a.criterionFlag c) ((a.withRules rules').criterionFlag c) := by
  have hrefl : ∀ o : Option CaseFlag, Option.Rel CaseFlag.SameGaps o o := by
    intro o
    cases o with
    | none => exact .none
    | some f => exact .some (.same f)
  have hown : (a.ownRules c).Perm ((a.withRules rules').ownRules c) := h.filter _
  have hgaps : ((a.ownRules c).filterMap a.ruleGap).Perm
      (((a.withRules rules').ownRules c).filterMap (a.withRules rules').ruleGap) := by
    rw [funext (ruleGap_perm hnd h)]
    exact hown.filterMap _
  have hnil : a.ownRules c = [] ↔ (a.withRules rules').ownRules c = [] := by
    rw [← List.length_eq_zero_iff, ← List.length_eq_zero_iff, hown.length_eq]
  have hnone : (a.ownRules c).filterMap a.ruleGap = [] ↔
      ((a.withRules rules').ownRules c).filterMap (a.withRules rules').ruleGap = [] := by
    rw [← List.length_eq_zero_iff, ← List.length_eq_zero_iff, hgaps.length_eq]
  unfold criterionFlag
  dsimp only
  by_cases hmax : c.maxHundredths ≤ 0
  · rw [if_pos hmax, if_pos hmax]
    exact .none
  rw [if_neg hmax, if_neg hmax]
  by_cases hrules : a.ownRules c = []
  · rw [if_pos hrules, if_pos (hnil.1 hrules)]
    exact hrefl _
  rw [if_neg hrules, if_neg (fun hc => hrules (hnil.2 hc))]
  by_cases hopen : (a.ownRules c).filterMap a.ruleGap = []
  · rw [if_pos hopen, if_pos (hnone.1 hopen)]
    exact .none
  rw [if_neg hopen, if_neg (fun hc => hopen (hnone.2 hc))]
  exact .some (.gaps c.key hgaps)

theorem criterionFlags_perm (hnd : (a.rules.map ErrorRule.ruleKey).Nodup)
    (h : a.rules.Perm rules') :
    List.Forall₂ CaseFlag.SameGaps a.criterionFlags (a.withRules rules').criterionFlags := by
  unfold criterionFlags
  show List.Forall₂ _ _ (a.rubric.filterMap (a.withRules rules').criterionFlag)
  induction a.rubric with
  | nil => exact .nil
  | cons c rubric ih =>
    have hflag := criterionFlag_perm hnd h c
    rw [List.filterMap_cons, List.filterMap_cons]
    generalize a.criterionFlag c = flag at hflag ⊢
    generalize (a.withRules rules').criterionFlag c = flag' at hflag ⊢
    cases hflag with
    | none => exact ih
    | some hsame => exact .cons hsame ih

theorem ownCaseFlags_perm (hnd : (a.rules.map ErrorRule.ruleKey).Nodup)
    (h : a.rules.Perm rules') :
    SameFlags a.ownCaseFlags (a.withRules rules').ownCaseFlags := by
  have hgate : a.noErrorGateFlags = (a.withRules rules').noErrorGateFlags := by
    unfold noErrorGateFlags
    show (if a.errors = [] ∧ a.autoNoErrorEnabled = some false then _ else _) =
      if (a.withRules rules').errors = [] ∧ a.autoNoErrorEnabled = some false then _ else _
    simp only [errors_eq_nil_perm hnd h]
  have hrules : a.ruleGateFlags.Perm (a.withRules rules').ruleGateFlags := by
    unfold ruleGateFlags
    exact ((eraseDups_perm ((errors_perm hnd h).map _)).filter _).map _
  have hkeep : ∀ fs, SameFlags fs fs := fun fs => .of_perm (.refl fs)
  unfold ownCaseFlags
  rw [hgate]
  -- Between the criteria and the gates no flag reads the table.
  exact (((((((SameFlags.of_forall₂ (criterionFlags_perm hnd h)).append (hkeep _)).append
    (hkeep _)).append (hkeep _)).append (hkeep _)).append (hkeep _)).append (hkeep _)).append
    (hkeep _) |>.append (.of_perm hrules)

theorem errorFlagsOf_perm (hnd : (a.rules.map ErrorRule.ruleKey).Nodup)
    (h : a.rules.Perm rules') {s s' : DeductionScore}
    (hs : s.unpricedRuleKeys.Perm s'.unpricedRuleKeys) :
    (a.errorFlagsOf s).Perm ((a.withRules rules').errorFlagsOf s') := by
  unfold errorFlagsOf
  exact ((hs.map _).append ((challengedKeys_perm hnd h .refuted).map _)).append
    ((challengedKeys_perm hnd h .unverified).map _)

end Flags

/-! ### The confidence of the decision -/

variable [Number K] {a : DecisionInput K} {rules' : List ErrorRule}

/-- The prices of a table, added up, leave the arithmetic exact. -/
def PricesExact (rules : List ErrorRule) : Prop :=
  (rules.map fun r => max 0 (r.deductionHundredths.getD 0)).sum ≤ 2 ^ 53

omit [Number K] in
theorem sum_machineErrors_le (rules : List ErrorRule) (bundle : List BundleCase)
    (inv : Investigation) :
    (((machineErrors rules bundle inv).filter DiagnosedError.isPriced).map
        fun e => e.deductionHundredths.getD 0).sum ≤
      (rules.map fun r => max 0 (r.deductionHundredths.getD 0)).sum := by
  induction rules with
  | nil => exact le_rfl
  | cons r rules ih =>
    rw [List.map_cons, List.sum_cons]
    unfold machineErrors at ih ⊢
    rw [List.filterMap_cons]
    cases hr : machineError bundle inv r with
    | none => exact ih.trans (by omega)
    | some e =>
      have hprice : e.deductionHundredths = r.deductionHundredths :=
        (machineError_eq_some hr).2.2.1
      dsimp only
      rw [List.filter_cons]
      split_ifs with hp
      · rw [List.map_cons, List.sum_cons, hprice]
        omega
      · omega

theorem caseConfidence_errors_perm (hexact : ExactIntegers K)
    (hnd : (a.rules.map ErrorRule.ruleKey).Nodup) (h : a.rules.Perm rules')
    (hbound : PricesExact a.rules) (coverageComplete : Bool) :
    caseConfidence a.errors a.modelCeiling coverageComplete =
      caseConfidence (a.withRules rules').errors a.modelCeiling coverageComplete := by
  unfold errors diagnosis
  show caseConfidence (diagnose a.rules a.bundle a.result).errors _ _ =
    caseConfidence (diagnose rules' a.bundle a.result).errors _ _
  by_cases hkind : a.result.kind = .verdict
  · rw [diagnose_errors hkind, diagnose_errors hkind]
    show caseConfidence (_ ++ proposedErrors a.rules a.bundle a.result) _ _ =
      caseConfidence (_ ++ proposedErrors rules' a.bundle a.result) _ _
    rw [proposedErrors_perm hnd h]
    refine caseConfidence_perm hexact (fun e he => ?_) (machineErrors_perm h)
      ((sum_machineErrors_le _ _ _).trans hbound) _ _ _
    obtain ⟨r, _, hr⟩ := mem_machineErrors.1 he
    exact (machineError_eq_some hr).2.2.2
  · rw [diagnose_of_not_verdict hkind, diagnose_of_not_verdict hkind]

theorem confidence_perm (hexact : ExactIntegers K) (hnd : (a.rules.map ErrorRule.ruleKey).Nodup)
    (h : a.rules.Perm rules') (hbound : PricesExact a.rules) :
    a.confidence = (a.withRules rules').confidence := by
  have hcoverage : a.coverageComplete = (a.withRules rules').coverageComplete := by
    have hlength := (criterionFlags_perm hnd h).length_eq
    unfold coverageComplete
    rw [Bool.eq_iff_iff, List.isEmpty_iff_length_eq_zero, List.isEmpty_iff_length_eq_zero,
      hlength]
  have hunverified : a.unverifiedKeys = [] ↔ (a.withRules rules').unverifiedKeys = [] := by
    rw [← List.length_eq_zero_iff, ← List.length_eq_zero_iff, unverifiedKeys, unverifiedKeys,
      (challengedKeys_perm hnd h .unverified).length_eq]
  unfold confidence
  rw [caseConfidence_errors_perm hexact hnd h hbound, hcoverage]
  simp only [ne_eq, hunverified]
  rfl

theorem decisionOf_perm (hexact : ExactIntegers K) (hnd : (a.rules.map ErrorRule.ruleKey).Nodup)
    (h : a.rules.Perm rules') (hbound : PricesExact a.rules) {s s' : DeductionScore}
    (hscore : s.scoreHundredths = s'.scoreHundredths)
    (hunpriced : s.unpricedRuleKeys.Perm s'.unpricedRuleKeys) :
    (a.decisionOf s).SameUpToOrder ((a.withRules rules').decisionOf s') := by
  have herrors := errorFlagsOf_perm hnd h hunpriced
  have hnoErrors : a.errorFlagsOf s = [] ↔ (a.withRules rules').errorFlagsOf s' = [] := by
    rw [← List.length_eq_zero_iff, ← List.length_eq_zero_iff, herrors.length_eq]
  have hown := ownCaseFlags_perm hnd h
  have hlow : a.lowConfidenceFlags (a.errorFlagsOf s) =
      (a.withRules rules').lowConfidenceFlags ((a.withRules rules').errorFlagsOf s') := by
    unfold lowConfidenceFlags
    rw [confidence_perm hexact hnd h hbound]
    simp only [hown.eq_nil_iff, hnoErrors]
    rfl
  have hflags := hown.append (SameFlags.of_perm (.of_eq hlow))
  refine ⟨?_, rfl, congrArg some hscore, errors_perm hnd h,
    congrArg some (confidence_perm hexact hnd h hbound), hflags, herrors⟩
  unfold decisionOf
  dsimp only
  simp only [hflags.eq_nil_iff, hnoErrors]

end DecisionInput

end Cine.Grading
