import Cine.Grading.Scoring.TeacherExceptions

/-!
# The marks of a paper, rule by rule

A computation loops over the proposals of the verdict, over the rules and over
the keys of the errors.  What a paper is given in the end can be said of each
rule by itself.

* `isFound` says of one rule that the paper has its error, and `isCounted`
  that the error is counted with its price.  Neither of them reads the table.
* `isFloored` says when the paper has no score at all.  Of the four floors
  only the last one looks at the errors.
* `marks_eq` puts the marks together from these: the score and the deduction
  on every criterion are sums over the rules that are counted.
-/

namespace Cine.Grading

open Cine.Lib

variable {K : Type}

/-! ## What a paper is given -/

/-- The score of a paper, what every criterion lost, and the number of the
errors that are counted. -/
structure Marks where
  score : Option Int
  perCriterion : List CriterionScore
  counted : Nat
deriving DecidableEq, Repr

def ScoreCoreOutput.marks (out : ScoreCoreOutput K) : Marks :=
  { score := out.scoreHundredths
    perCriterion := out.breakdown.perCriterion
    counted := (countedKeys out.breakdown.errors).length }

/-- A lens refuted the error with the key. -/
def StoredInvestigation.refutes (stored : StoredInvestigation K) (ruleKey : String) : Bool :=
  stored.challenge.any fun ch => .refuted ∈ statusesOf ruleKey ch.perError

namespace ScoreCoreInput

variable (input : ScoreCoreInput K)

/-- The paper has the error of the rule: the machine found it, or the verdict
proposes a rule in words that the table of the paper had. -/
def isFound (r : RuleSnapshot) : Bool :=
  decide (r.criterionKey ∈ input.rubric.map RubricCriterion.key) && input.considered r &&
    decide (input.stored.result.kind = .verdict) &&
      if isMachineChecked r.predicate then
        (machineError input.bundleCases input.stored.result.investigation r.toErrorRule).isSome
      else input.stored.names r.ruleKey

/-- The error of the rule is counted: the paper has it, it has a price, the
teacher did not exclude it, and no refutation stands. -/
def isCounted (r : RuleSnapshot) : Bool :=
  input.isFound r && r.deductionHundredths.isSome &&
    match input.exceptions.get? r.ruleId with
    | some .exclude => false
    | some .include => true
    | none => isMachineChecked r.predicate || !input.stored.refutes r.ruleKey

/-- The floors that look at no error. -/
def isBlindlyFloored : Bool :=
  input.stored.result.kind = .ungradable ∨ input.bundleCases = [] ∨
    uncoveredCases input.bundleCases input.stored.result.investigation.toolCalls
      input.stored.result.investigation.structuredResults ≠ []

/-- The paper is below a floor. -/
def isFloored : Bool :=
  input.isBlindlyFloored ||
    decide (input.stored.result.investigation.stopReason ∈ budgetStops) &&
      input.rules.all fun r => !input.isFound r

end ScoreCoreInput

/-- What the counted rules take from a criterion. -/
def lostOn (counted : List RuleSnapshot) (criterionKey : String) : Int :=
  (counted.map fun r =>
    if r.criterionKey = criterionKey then r.deductionHundredths.getD 0 else 0).sum

/-- The marks above the floors. -/
def marksOf (rubric : List RubricCriterion) (counted : List RuleSnapshot) : Marks :=
  { score := some ((rubric.map RubricCriterion.maxHundredths).sum -
      (rubric.map fun c => min (lostOn counted c.key) c.maxHundredths).sum)
    perCriterion := rubric.map fun c =>
      { key := c.key
        maxHundredths := c.maxHundredths
        deductedHundredths := min (lostOn counted c.key) c.maxHundredths
        capped := decide (lostOn counted c.key > c.maxHundredths) }
    counted := counted.length }

/-- The marks below a floor. -/
def noMarks : Marks := ⟨none, [], 0⟩

/-! ## The errors that are found -/

theorem key_mem_proposalLoop {byKey : OrderedMap String ErrorRule} {toolCalls : List ToolCall}
    {es : List VerdictError} {v : VerdictError} {r : ErrorRule} (hv : v ∈ es)
    (hr : byKey.get? v.ruleKey = some r) (hwords : isMachineChecked r.predicate = false)
    (seen : List String) :
    v.ruleKey ∈ seen ∨
      v.ruleKey ∈ (proposalLoop byKey toolCalls es seen).1.map DiagnosedError.ruleKey := by
  induction es generalizing seen with
  | nil => exact absurd hv List.not_mem_nil
  | cons w es ih =>
    rw [proposalLoop]
    rcases List.mem_cons.1 hv with rfl | hv
    · rw [hr]
      dsimp only
      rw [if_neg (Bool.eq_false_iff.1 hwords)]
      by_cases hseen : v.ruleKey ∈ seen
      · exact Or.inl hseen
      · rw [if_neg hseen]
        exact Or.inr List.mem_cons_self
    · split
      · exact ih hv seen
      · split_ifs with hmachine hseen
        · exact ih hv seen
        · exact ih hv seen
        · rcases ih hv (insertLast seen w.ruleKey) with hmem | hmem
          · rcases mem_insertLast.1 hmem with hmem | heq
            · exact Or.inl hmem
            · rw [heq]
              exact Or.inr List.mem_cons_self
          · exact Or.inr (List.mem_cons_of_mem _ hmem)

section Found

variable {input : ScoreCoreInput K}

variable {r : RuleSnapshot}

theorem isFound_iff :
    input.isFound r = true ↔ r.criterionKey ∈ input.rubric.map RubricCriterion.key ∧
      input.considered r = true ∧ input.stored.result.kind = .verdict ∧
        if isMachineChecked r.predicate then
          (machineError input.bundleCases input.stored.result.investigation
            r.toErrorRule).isSome = true
        else input.stored.names r.ruleKey = true := by
  unfold ScoreCoreInput.isFound
  simp only [Bool.and_eq_true, decide_eq_true_eq, and_assoc]
  split_ifs <;> rfl

theorem mem_used_of_found (hr : r ∈ input.rules) (h : input.isFound r = true) : r ∈ input.used := by
  obtain ⟨hcriterion, hconsidered, _⟩ := isFound_iff.1 h
  exact List.mem_filter.2 ⟨List.mem_filter.2 ⟨hr, decide_eq_true hcriterion⟩, hconsidered⟩

theorem rulesByKey_of_used (hkeys : (input.rules.map RuleSnapshot.ruleKey).Nodup)
    (hr : r ∈ input.used) :
    (rulesByKey input.decisionInput.rules).get? r.ruleKey = some r.toErrorRule := by
  have hmem : (r.ruleKey, r.toErrorRule) ∈
      input.decisionInput.rules.map fun r => (r.ruleKey, r) :=
    List.mem_map.2 ⟨_, List.mem_map_of_mem hr, rfl⟩
  refine OrderedMap.get?_ofList_of_nodup ?_ hmem
  simpa [List.map_map, Function.comp_def] using decisionInput_keys_nodup hkeys

theorem isMachineChecked_of_machineError {bundle : List BundleCase} {inv : Investigation}
    {r : ErrorRule} (h : (machineError bundle inv r).isSome = true) :
    isMachineChecked r.predicate = true := by
  unfold machineError at h
  cases hp : r.predicate with
  | none =>
    rw [hp] at h
    cases h
  | some p =>
    rw [hp] at h
    dsimp only at h
    split_ifs at h with hcond
    · exact hcond.1
    · cases h

theorem found_of_error {e : DiagnosedError} (he : e ∈ input.decisionInput.errors) :
    ∃ r ∈ input.used, r.ruleKey = e.ruleKey ∧ input.isFound r = true ∧
      (e.source = .deterministic ↔ isMachineChecked r.predicate = true) := by
  have hkind : input.stored.result.kind = .verdict := by
    by_contra hkind
    have hmem : e ∈ (diagnose input.decisionInput.rules input.bundleCases
      input.stored.result).errors := he
    rw [diagnose_of_not_verdict hkind] at hmem
    exact absurd hmem List.not_mem_nil
  have hfound : ∀ r ∈ input.used, (if isMachineChecked r.predicate then
      (machineError input.bundleCases input.stored.result.investigation r.toErrorRule).isSome = true
      else input.stored.names r.ruleKey = true) → input.isFound r = true := by
    intro r hr hcase
    exact isFound_iff.2 ⟨criterion_mem_of_used hr, (List.mem_filter.1 hr).2, hkind, hcase⟩
  have hmem : e ∈ (diagnose input.decisionInput.rules input.bundleCases
    input.stored.result).errors := he
  rw [diagnose_errors hkind, List.mem_append, mem_machineErrors] at hmem
  rcases hmem with ⟨r', hr', herror⟩ | hproposed
  · obtain ⟨r, hr, rfl⟩ := List.mem_map.1 hr'
    obtain ⟨hk, _, _, hsource⟩ := machineError_eq_some herror
    have hsome : (machineError input.bundleCases input.stored.result.investigation
        r.toErrorRule).isSome = true := by
      rw [herror]
      rfl
    have hmachine : isMachineChecked r.predicate = true := isMachineChecked_of_machineError hsome
    refine ⟨r, hr, hk.symm, hfound r hr ?_, iff_of_true hsource hmachine⟩
    rw [if_pos hmachine]
    exact hsome
  · obtain ⟨_, v, hv, r', hr', hwords, rfl⟩ := mem_proposalLoop hproposed
    obtain ⟨hr', hk⟩ := rulesByKey_get?_mem hr'
    obtain ⟨r, hr, rfl⟩ := List.mem_map.1 hr'
    have hwords : isMachineChecked r.predicate = false := hwords
    refine ⟨r, hr, hk, hfound r hr ?_, iff_of_false ?_ (Bool.eq_false_iff.1 hwords)⟩
    · rw [if_neg (Bool.eq_false_iff.1 hwords)]
      refine List.any_eq_true.2 ⟨v, hv, decide_eq_true ?_⟩
      exact hk.symm
    · unfold proposedError
      dsimp only
      split_ifs
      · exact fun h => nomatch h
      · exact fun h => nomatch h

theorem error_of_found (hkeys : (input.rules.map RuleSnapshot.ruleKey).Nodup) (hr : r ∈ input.rules)
    (h : input.isFound r = true) :
    r.ruleKey ∈ input.decisionInput.errors.map DiagnosedError.ruleKey := by
  have hused := mem_used_of_found hr h
  obtain ⟨_, _, hkind, hcase⟩ := isFound_iff.1 h
  show r.ruleKey ∈ (diagnose input.decisionInput.rules input.bundleCases
    input.stored.result).errors.map DiagnosedError.ruleKey
  rw [diagnose_errors hkind, List.map_append, List.mem_append]
  split_ifs at hcase with hmachine
  · obtain ⟨e, he⟩ := Option.isSome_iff_exists.1 hcase
    refine Or.inl (List.mem_map.2 ⟨e, mem_machineErrors.2 ⟨_, List.mem_map_of_mem hused, he⟩, ?_⟩)
    exact (machineError_eq_some he).1
  · obtain ⟨v, hv, hvk⟩ := List.any_eq_true.1 hcase
    have hk : v.ruleKey = r.ruleKey := of_decide_eq_true hvk
    have hlookup := rulesByKey_of_used hkeys hused
    rw [← hk] at hlookup ⊢
    exact key_mem_proposalLoop hv hlookup (Bool.eq_false_iff.2 hmachine) _

theorem mem_errors_iff (hkeys : (input.rules.map RuleSnapshot.ruleKey).Nodup) (hr : r ∈ input.rules) :
    r.ruleKey ∈ input.decisionInput.errors.map DiagnosedError.ruleKey ↔
      input.isFound r = true := by
  constructor
  · intro h
    obtain ⟨e, he, hk⟩ := List.mem_map.1 h
    obtain ⟨r', hr', hk', hfound, _⟩ := found_of_error he
    obtain rfl := eq_of_used_key hkeys hr hr' (hk'.trans hk)
    exact hfound
  · exact error_of_found hkeys hr

theorem errors_eq_nil_iff (hkeys : (input.rules.map RuleSnapshot.ruleKey).Nodup) :
    input.decisionInput.errors = [] ↔ ∀ r ∈ input.rules, input.isFound r = false := by
  constructor
  · intro hnil r hr
    refine Bool.eq_false_iff.2 fun hfound => ?_
    have hmem := error_of_found hkeys hr hfound
    rw [hnil] at hmem
    exact absurd hmem List.not_mem_nil
  · intro hnone
    refine List.eq_nil_iff_forall_not_mem.2 fun e he => ?_
    obtain ⟨r, hr, _, hfound, _⟩ := found_of_error he
    rw [hnone r ((used_sublist input).subset hr)] at hfound
    cases hfound

end Found

/-! ## The floors -/

section Floors

variable {input : ScoreCoreInput K}

theorem isFloored_iff (hkeys : (input.rules.map RuleSnapshot.ruleKey).Nodup) :
    input.isFloored = true ↔ ∃ f, input.decisionInput.floor = some f := by
  have hnil : (input.rules.all fun r => !input.isFound r) = true ↔
      input.decisionInput.errors = [] := by
    rw [errors_eq_nil_iff hkeys, List.all_eq_true]
    simp only [Bool.not_eq_true']
  unfold ScoreCoreInput.isFloored ScoreCoreInput.isBlindlyFloored
  simp only [Bool.or_eq_true, Bool.and_eq_true, decide_eq_true_eq, hnil]
  show _ ↔ ∃ f, (if input.stored.result.kind = .ungradable then some Floor.notAVerdict
    else if Pipeline.investigator = .investigator ∧ input.bundleCases = [] then some .emptyBundle
    else if Pipeline.investigator = .investigator ∧ uncoveredCases input.bundleCases
        input.stored.result.investigation.toolCalls
        input.stored.result.investigation.structuredResults ≠ [] then some .uncovered
    else if input.stored.result.investigation.stopReason ∈ budgetStops ∧
        input.decisionInput.errors = [] then some .exhausted
    else none) = some f
  split_ifs with hkind hempty huncovered hexhausted
  · exact iff_of_true (Or.inl (Or.inl hkind)) ⟨_, rfl⟩
  · exact iff_of_true (Or.inl (Or.inr (Or.inl hempty.2))) ⟨_, rfl⟩
  · exact iff_of_true (Or.inl (Or.inr (Or.inr huncovered.2))) ⟨_, rfl⟩
  · exact iff_of_true (Or.inr hexhausted) ⟨_, rfl⟩
  · refine iff_of_false ?_ fun h => nomatch h
    rintro ((h | h | h) | h)
    · exact hkind h
    · exact hempty ⟨rfl, h⟩
    · exact huncovered ⟨rfl, h⟩
    · exact hexhausted h

end Floors

/-! ## The errors that are counted -/

theorem isFound_of_counted {input : ScoreCoreInput K} {r : RuleSnapshot}
    (h : input.isCounted r = true) : input.isFound r = true := by
  unfold ScoreCoreInput.isCounted at h
  rw [Bool.and_eq_true, Bool.and_eq_true] at h
  exact h.1.1

section Counted

variable [Number K] {input : ScoreCoreInput K} {s : DeductionScore}

variable {r : RuleSnapshot}

theorem mem_decidedRefuted_iff (hkeys : (input.rules.map RuleSnapshot.ruleKey).Nodup)
    (hr : r ∈ input.rules) (hfound : input.isFound r = true) :
    r.ruleKey ∈ ScoreCoreInput.decidedRefuted (input.decisionInput.decisionOf s) ↔
      isMachineChecked r.predicate = false ∧ input.stored.refutes r.ruleKey = true := by
  have hrefutes : input.stored.refutes r.ruleKey = true ↔
      ∃ ch, input.decisionInput.challenge = some ch ∧
        .refuted ∈ statusesOf r.ruleKey ch.perError := by
    unfold StoredInvestigation.refutes
    rw [Option.any_eq_true]
    simp only [decide_eq_true_eq]
    rfl
  rw [decidedRefuted_decisionOf, mem_refutedKeys, hrefutes]
  constructor
  · rintro ⟨e, he, hk, hsource, hch⟩
    obtain ⟨r', hr', hk', _, hmachine⟩ := found_of_error he
    obtain rfl := eq_of_used_key hkeys hr hr' (hk'.trans hk)
    refine ⟨Bool.eq_false_iff.2 fun h => hsource (hmachine.2 h), ?_⟩
    rw [← hk]
    exact hch
  · rintro ⟨hwords, hch⟩
    obtain ⟨e, he, hk⟩ := List.mem_map.1 (error_of_found hkeys hr hfound)
    obtain ⟨r', hr', hk', _, hmachine⟩ := found_of_error he
    obtain rfl := eq_of_used_key hkeys hr hr' (hk'.trans hk)
    refine ⟨e, he, hk, fun h => Bool.eq_false_iff.1 hwords (hmachine.1 h), ?_⟩
    rw [hk]
    exact hch

theorem countedOf_found (hkeys : (input.rules.map RuleSnapshot.ruleKey).Nodup)
    (hr : r ∈ input.rules) (hfound : input.isFound r = true) :
    input.countedOf (input.decisionInput.decisionOf s) r = .counted ↔
      input.isCounted r = true := by
  have hused := mem_used_of_found hr hfound
  have hexcluded : r.ruleKey ∈ input.excludedKeys ↔
      input.exceptions.get? r.ruleId = some .exclude := mem_exceptedKeys hkeys hused _
  have hincluded : r.ruleKey ∈ input.includedKeys ↔
      input.exceptions.get? r.ruleId = some .include := mem_exceptedKeys hkeys hused _
  unfold ScoreCoreInput.isCounted
  rw [countedOf_cases, hfound, Bool.true_and]
  simp only [hexcluded, hincluded, mem_decidedRefuted_iff hkeys hr hfound]
  cases input.exceptions.get? r.ruleId with
  | none => cases r.deductionHundredths <;> cases isMachineChecked r.predicate <;>
      cases input.stored.refutes r.ruleKey <;> simp
  | some x => cases x <;> cases r.deductionHundredths <;> simp

theorem mem_countedKeys_iff (hkeys : (input.rules.map RuleSnapshot.ruleKey).Nodup)
    (hr : r ∈ input.rules) :
    r.ruleKey ∈ countedKeys (errorsOf input (input.decisionInput.decisionOf s)) ↔
      input.isCounted r = true := by
  constructor
  · intro h
    obtain ⟨e, he, hk⟩ := List.mem_map.1 h
    obtain ⟨he, hcounted⟩ := List.mem_filter.1 he
    obtain ⟨r', hr', hk', _, hc, d, hd, hdk⟩ := exists_rule_of_mem_errorsOf hkeys rfl he
    obtain rfl := eq_of_used_key hkeys hr hr' (hk'.symm.trans hk)
    have hfound := (mem_errors_iff hkeys hr).1 (List.mem_map.2 ⟨d, hd, hdk⟩)
    rw [← countedOf_found (s := s) hkeys hr hfound, ← hc]
    exact of_decide_eq_true hcounted
  · intro h
    have hfound := isFound_of_counted h
    have hmem := error_of_found hkeys hr hfound
    rw [← errorsOf_keys hkeys (input.decisionInput.decisionOf s) rfl] at hmem
    obtain ⟨e, he, hk⟩ := List.mem_map.1 hmem
    obtain ⟨r', hr', hk', _, hc, _⟩ := exists_rule_of_mem_errorsOf hkeys rfl he
    obtain rfl := eq_of_used_key hkeys hr hr' (hk'.symm.trans hk)
    refine List.mem_map.2 ⟨e, List.mem_filter.2 ⟨he, decide_eq_true ?_⟩, hk⟩
    rw [hc]
    exact (countedOf_found hkeys ((used_sublist input).subset hr') hfound).2 h

theorem countedKeys_perm (hkeys : (input.rules.map RuleSnapshot.ruleKey).Nodup) :
    (countedKeys (errorsOf input (input.decisionInput.decisionOf s))).Perm
      ((input.rules.filter input.isCounted).map RuleSnapshot.ruleKey) := by
  have herrors : (errorsOf input (input.decisionInput.decisionOf s)).map
      BreakdownError.ruleKey = input.decisionInput.errors.map DiagnosedError.ruleKey :=
    errorsOf_keys hkeys _ rfl
  have hnodup : (countedKeys (errorsOf input (input.decisionInput.decisionOf s))).Nodup := by
    have hall : ((errorsOf input (input.decisionInput.decisionOf s)).map
        BreakdownError.ruleKey).Nodup := by
      rw [herrors]
      exact diagnose_errors_nodup (decisionInput_keys_nodup hkeys)
    exact hall.sublist (List.filter_sublist.map _)
  rw [List.perm_ext_iff_of_nodup hnodup (hkeys.sublist (List.filter_sublist.map _))]
  intro k
  rw [List.mem_map]
  constructor
  · intro h
    obtain ⟨e, he, hk⟩ := List.mem_map.1 h
    obtain ⟨r, hr, hkr, _⟩ := exists_rule_of_mem_errorsOf hkeys rfl (List.mem_filter.1 he).1
    have hrules := (used_sublist input).subset hr
    have hkey : r.ruleKey = k := hkr.symm.trans hk
    rw [← hkey] at h
    exact ⟨r, List.mem_filter.2 ⟨hrules, (mem_countedKeys_iff hkeys hrules).1 h⟩, hkey⟩
  · rintro ⟨r, hr, rfl⟩
    obtain ⟨hr, hcounted⟩ := List.mem_filter.1 hr
    exact (mem_countedKeys_iff hkeys hr).2 hcounted

theorem chargesOf_eq_lostOn (hkeys : (input.rules.map RuleSnapshot.ruleKey).Nodup)
    (criterionKey : String) :
    chargesOf (input.used.map RuleSnapshot.toScoringRule)
        (scoredKeysOf (errorsOf input (input.decisionInput.decisionOf s))) criterionKey =
      lostOn (input.rules.filter input.isCounted) criterionKey := by
  set keys := (input.rules.filter input.isCounted).map RuleSnapshot.ruleKey with hkeysOf
  have hmem : ∀ k, k ∈ (scoredKeysOf (errorsOf input (input.decisionInput.decisionOf s))).filter
      (fun k => !Unpriced (scoringTable (input.used.map RuleSnapshot.toScoringRule)) k) ↔
        k ∈ keys := by
    intro k
    rw [← mem_countedKeys hkeys rfl]
    exact (countedKeys_perm hkeys).mem_iff
  have hnodup : keys.Nodup := hkeys.sublist (List.filter_sublist.map _)
  have hdups : keys.eraseDups.Perm keys := by
    rw [List.perm_ext_iff_of_nodup (nodup_eraseDups _) hnodup]
    intro k
    exact List.mem_eraseDups
  rw [← chargesOf_priced, chargesOf_congr hmem, chargesOf, (hdups.map _).sum_eq, hkeysOf,
    List.map_map]
  unfold lostOn
  congr 1
  refine List.map_congr_left fun r hr => ?_
  obtain ⟨hrules, hcounted⟩ := List.mem_filter.1 hr
  have hused := mem_used_of_found hrules (isFound_of_counted hcounted)
  rw [Function.comp_apply, chargeOf, scoringTable_of_used hkeys hused]
  rfl

theorem marks_eq (hkeys : (input.rules.map RuleSnapshot.ruleKey).Nodup) {out : ScoreCoreOutput K}
    (h : input.computeScore = .ok out) :
    out.marks = if input.isFloored then noMarks
      else marksOf input.rubric (input.rules.filter input.isCounted) := by
  obtain ⟨d, hd⟩ := exists_decide hkeys
  rcases decide_cases hd with ⟨f, hf, rfl⟩ | ⟨s, hf, hs, rfl⟩
  · rw [computeScore_of_floor hf, Except.ok.injEq] at h
    rw [if_pos ((isFloored_iff hkeys).2 ⟨f, hf⟩), ← h]
    rfl
  · obtain ⟨score, hscore, hcompute⟩ := computeScore_of_score hkeys hf hs
    rw [hcompute, Except.ok.injEq] at h
    have hfloored : ¬ input.isFloored = true := by
      rw [isFloored_iff hkeys, hf]
      rintro ⟨f, hf⟩
      cases hf
    have hcounted : (countedKeys (errorsOf input (input.decisionInput.decisionOf s))).length =
        (input.rules.filter input.isCounted).length := by
      rw [(countedKeys_perm hkeys).length_eq, List.length_map]
    rw [if_neg hfloored, ← h]
    show (⟨some score.scoreHundredths, score.perCriterion,
      (countedKeys (errorsOf input (input.decisionInput.decisionOf s))).length⟩ : Marks) = _
    rw [clamp_idle hscore, perCriterion_eq hscore, hcounted]
    simp only [chargesOf_eq_lostOn hkeys]
    rfl

theorem mem_countedKeys_out (hkeys : (input.rules.map RuleSnapshot.ruleKey).Nodup)
    {out : ScoreCoreOutput K} (h : input.computeScore = .ok out) (hr : r ∈ input.rules) :
    r.ruleKey ∈ countedKeys out.breakdown.errors ↔
      input.isFloored = false ∧ input.isCounted r = true := by
  rcases computeScore_split hkeys h with ⟨f, hf, _, hnil, _⟩ | ⟨s, _, hf, _, _, _, herrors, _⟩
  · rw [hnil, (isFloored_iff hkeys).2 ⟨f, hf⟩]
    exact iff_of_false List.not_mem_nil fun h => nomatch h.1
  · have hfloored : input.isFloored = false := by
      refine Bool.eq_false_iff.2 fun hfloored => ?_
      obtain ⟨f, hsome⟩ := (isFloored_iff hkeys).1 hfloored
      rw [hf] at hsome
      cases hsome
    rw [herrors, mem_countedKeys_iff hkeys hr, hfloored]
    exact ⟨fun hc => ⟨rfl, hc⟩, And.right⟩

end Counted

end Cine.Grading
