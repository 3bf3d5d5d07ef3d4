import Cine.Grading.Decision.Predicates

/-!
# The diagnosis

`grading/decision/diagnose.ts`.  A rule that the machine checks is decided
by the stored results; a proposal of the model for such a rule is left out
and recorded.  A proposal for another rule becomes an error whose source
sinks with its evidence.

The errors come from two loops.  `machineErrors` is the first one, over
the rules.  `proposalLoop` is the second one, over the proposals, and it
carries the keys that already have an error.  It passes over the proposals
for machine-checked rules (`proposalLoop_eq`), so two verdicts that differ in
these have the same errors.
-/

namespace Cine.Grading

open Cine.Lib

/-- `BACKING_TOOLS`: the tools whose result backs a judgement. -/
def backingTools : List ToolName := [.run, .runTests]

/-- The measurement of a rule with a predicate. -/
def measureRule (bundle : List BundleCase) (inv : Investigation) (r : ErrorRule) :
    Option Measurement :=
  r.predicate.map fun p =>
    { ruleKey := r.ruleKey
      criterionKey := r.criterionKey
      outcome := evaluatePredicate p bundle inv.toolCalls inv.structuredResults }

/-- The error of a rule that the machine found present. -/
def machineError (bundle : List BundleCase) (inv : Investigation) (r : ErrorRule) :
    Option DiagnosedError :=
  match r.predicate with
  | none => none
  | some p =>
    let outcome := evaluatePredicate p bundle inv.toolCalls inv.structuredResults
    if isMachineChecked (some p) ∧ outcome.state = .present then
      some
        { ruleKey := r.ruleKey
          criterionKey := r.criterionKey
          deductionHundredths := r.deductionHundredths
          source := .deterministic
          toolCallIds := outcome.toolCallIds }
    else none

/-- The errors after the first loop. -/
def machineErrors (rules : List ErrorRule) (bundle : List BundleCase) (inv : Investigation) :
    List DiagnosedError :=
  rules.filterMap (machineError bundle inv)

/-- `byKey`: the last rule of a key wins. -/
def rulesByKey (rules : List ErrorRule) : OrderedMap String ErrorRule :=
  .ofList (rules.map fun r => (r.ruleKey, r))

/-- `toolOf`: the tool of a call id. -/
def toolOf (toolCalls : List ToolCall) : OrderedMap String ToolName :=
  .ofList (toolCalls.map fun t => (t.id, t.tool))

/-- Whether one of the cited calls ran something. -/
def backed (toolCalls : List ToolCall) (ids : List String) : Bool :=
  ids.any fun id => ((toolOf toolCalls).get? id).any (· ∈ backingTools)

/-- The error that a proposal of the model for the rule `r` becomes. -/
def proposedError (toolCalls : List ToolCall) (e : VerdictError) (r : ErrorRule) :
    DiagnosedError :=
  { ruleKey := e.ruleKey
    criterionKey := r.criterionKey
    deductionHundredths := r.deductionHundredths
    source := if backed toolCalls e.toolCallIds then .llmWithTools else .llmOnly
    toolCallIds := e.toolCallIds }

/-- The second loop, from the proposals still to come, the set `seen` and
the two lists it adds to. -/
def proposalLoop (byKey : OrderedMap String ErrorRule) (toolCalls : List ToolCall) :
    List VerdictError → List String → List DiagnosedError × List String
  | [], _ => ([], [])
  | e :: es, seen =>
    match byKey.get? e.ruleKey with
    | none => proposalLoop byKey toolCalls es seen
    | some r =>
      if isMachineChecked r.predicate then
        let (errors, ignored) := proposalLoop byKey toolCalls es seen
        (errors, e.ruleKey :: ignored)
      else if e.ruleKey ∈ seen then proposalLoop byKey toolCalls es seen
      else
        let (errors, ignored) := proposalLoop byKey toolCalls es (insertLast seen e.ruleKey)
        (proposedError toolCalls e r :: errors, ignored)

/-- The errors with their source, the proposals left out, and the
measurements of the rules with a predicate. -/
def diagnose {K : Type} (rules : List ErrorRule) (bundle : List BundleCase)
    (result : InvestigationResult K) : Diagnosis :=
  if result.kind ≠ .verdict then { errors := [], ignored := [], measurements := [] }
  else
    let inv := result.investigation
    let machine := machineErrors rules bundle inv
    let proposals := (result.verdict.map Verdict.errors).getD []
    let (proposed, ignored) :=
      proposalLoop (rulesByKey rules) inv.toolCalls proposals (machine.map DiagnosedError.ruleKey)
    { errors := machine ++ proposed
      ignored := ignored
      measurements := rules.filterMap (measureRule bundle inv) }

/-! ## Where an error comes from -/

section Sources

variable {K : Type} {rules : List ErrorRule} {bundle : List BundleCase} {inv : Investigation}
  {result : InvestigationResult K}

variable {e : DiagnosedError} {r : ErrorRule}

theorem mem_machineErrors :
    e ∈ machineErrors rules bundle inv ↔
      ∃ r ∈ rules, machineError bundle inv r = some e := by
  simp [machineErrors]

theorem machineError_eq_some (h : machineError bundle inv r = some e) :
    e.ruleKey = r.ruleKey ∧ e.criterionKey = r.criterionKey ∧
      e.deductionHundredths = r.deductionHundredths ∧ e.source = .deterministic := by
  rw [machineError] at h
  split at h
  · simp at h
  · simp only [Option.ite_none_right_eq_some, Option.some.injEq] at h
    obtain ⟨_, rfl⟩ := h
    exact ⟨rfl, rfl, rfl, rfl⟩

theorem machineError_of_present {p : RulePredicate} (hp : r.predicate = some p)
    (h : (evaluatePredicate p bundle inv.toolCalls inv.structuredResults).state = .present) :
    (machineError bundle inv r).isSome := by
  have hm : isMachineChecked (some p) = true := isMachineChecked_of_measured (by rw [h]; simp)
  simp [machineError, hp, hm, h]

theorem mem_proposalLoop {byKey : OrderedMap String ErrorRule} {toolCalls : List ToolCall}
    {es : List VerdictError} {seen : List String} (h : e ∈ (proposalLoop byKey toolCalls es seen).1) :
    e.ruleKey ∉ seen ∧ ∃ v ∈ es, ∃ r, byKey.get? v.ruleKey = some r ∧
      isMachineChecked r.predicate = false ∧ e = proposedError toolCalls v r := by
  induction es generalizing seen with
  | nil => simp [proposalLoop] at h
  | cons v es ih =>
    have tail : ∀ {seen' : List String}, e ∈ (proposalLoop byKey toolCalls es seen').1 →
        (∀ k ∈ seen, k ∈ seen') → e.ruleKey ∉ seen ∧ ∃ v' ∈ v :: es, ∃ r,
          byKey.get? v'.ruleKey = some r ∧ isMachineChecked r.predicate = false ∧
            e = proposedError toolCalls v' r := by
      intro seen' he hsub
      obtain ⟨hk, v', hv', hr⟩ := ih he
      exact ⟨fun hm => hk (hsub _ hm), v', List.mem_cons_of_mem _ hv', hr⟩
    rw [proposalLoop] at h
    split at h
    · exact tail h fun _ => id
    · rename_i r hr
      split_ifs at h with hm hs
      · exact tail h fun _ => id
      · exact tail h fun _ => id
      · rcases List.mem_cons.1 h with rfl | h
        · exact ⟨hs, v, List.mem_cons_self, r, hr, Bool.eq_false_iff.2 hm, rfl⟩
        · exact tail h fun k hk => mem_insertLast.2 (Or.inl hk)

theorem proposalLoop_nodup (byKey : OrderedMap String ErrorRule) (toolCalls : List ToolCall)
    (es : List VerdictError) (seen : List String) :
    ((proposalLoop byKey toolCalls es seen).1.map DiagnosedError.ruleKey).Nodup := by
  induction es generalizing seen with
  | nil => simp [proposalLoop]
  | cons v es ih =>
    rw [proposalLoop]
    split
    · exact ih seen
    · split_ifs with hm hs
      · exact ih seen
      · exact ih seen
      · rw [List.map_cons, List.nodup_cons]
        refine ⟨?_, ih _⟩
        intro hmem
        obtain ⟨e, he, hk⟩ := List.mem_map.1 hmem
        refine (mem_proposalLoop he).1 ?_
        rw [hk]
        exact mem_insertLast.2 (Or.inr rfl)

theorem rulesByKey_get?_mem {k : String} (h : (rulesByKey rules).get? k = some r) :
    r ∈ rules ∧ r.ruleKey = k := by
  have hm := OrderedMap.mem_of_get?_ofList h
  simp only [List.mem_map, Prod.mk.injEq] at hm
  obtain ⟨r', hr', hk, rfl⟩ := hm
  exact ⟨hr', hk⟩

theorem diagnose_errors (h : result.kind = .verdict) :
    (diagnose rules bundle result).errors =
      machineErrors rules bundle result.investigation ++
        (proposalLoop (rulesByKey rules) result.investigation.toolCalls
          ((result.verdict.map Verdict.errors).getD [])
          ((machineErrors rules bundle result.investigation).map DiagnosedError.ruleKey)).1 := by
  simp [diagnose, h]

theorem diagnose_measurements (h : result.kind = .verdict) :
    (diagnose rules bundle result).measurements =
      rules.filterMap (measureRule bundle result.investigation) := by
  simp [diagnose, h]

theorem diagnose_of_not_verdict (h : result.kind ≠ .verdict) :
    diagnose rules bundle result = { errors := [], ignored := [], measurements := [] } := by
  simp [diagnose, h]

theorem mem_diagnose_errors (he : e ∈ (diagnose rules bundle result).errors) :
    ∃ r ∈ rules, r.ruleKey = e.ruleKey ∧ r.criterionKey = e.criterionKey ∧
      r.deductionHundredths = e.deductionHundredths := by
  by_cases h : result.kind = .verdict
  · rw [diagnose_errors h, List.mem_append, mem_machineErrors] at he
    rcases he with ⟨r, hr, hre⟩ | he
    · obtain ⟨hk, hc, hd, _⟩ := machineError_eq_some hre
      exact ⟨r, hr, hk.symm, hc.symm, hd.symm⟩
    · obtain ⟨_, v, _, r, hr, _, rfl⟩ := mem_proposalLoop he
      obtain ⟨hmem, hk⟩ := rulesByKey_get?_mem hr
      exact ⟨r, hmem, hk, rfl, rfl⟩
  · rw [diagnose_of_not_verdict h] at he
    simp at he

theorem diagnose_errors_nodup (hnd : (rules.map ErrorRule.ruleKey).Nodup) :
    ((diagnose rules bundle result).errors.map DiagnosedError.ruleKey).Nodup := by
  by_cases h : result.kind = .verdict
  · rw [diagnose_errors h, List.map_append, List.nodup_append]
    refine ⟨?_, proposalLoop_nodup _ _ _ _, ?_⟩
    · refine List.Nodup.sublist ?_ hnd
      rw [machineErrors]
      clear hnd h
      induction rules with
      | nil => simp
      | cons r rules ih =>
        rw [List.filterMap_cons]
        cases hr : machineError bundle result.investigation r with
        | none => exact ih.cons _
        | some e =>
          simp only [List.map_cons]
          rw [(machineError_eq_some hr).1]
          exact ih.cons_cons _
    · rintro _ hk _ hm rfl
      obtain ⟨e, he, hke⟩ := List.mem_map.1 hm
      exact (mem_proposalLoop he).1 (hke ▸ hk)
  · simp [diagnose_of_not_verdict h]

end Sources

/-! ## The model does not reach a machine-checked rule -/

/-- A proposal for this key is about a rule that the machine checks. -/
def machineDecides (rules : List ErrorRule) (key : String) : Bool :=
  ((rulesByKey rules).get? key).any fun r => isMachineChecked r.predicate

def InvestigationResult.proposals {K : Type} (result : InvestigationResult K) :
    List VerdictError :=
  (result.verdict.map Verdict.errors).getD []

/-- Two results whose verdicts differ only in proposals for rules that the
machine checks. -/
structure SameButMachineProposals {K : Type} (rules : List ErrorRule)
    (a b : InvestigationResult K) : Prop where
  kind : a.kind = b.kind
  investigation : a.investigation = b.investigation
  proposals : a.proposals.filter (fun e => !machineDecides rules e.ruleKey) =
    b.proposals.filter fun e => !machineDecides rules e.ruleKey

section Proposals

variable {K : Type} {rules : List ErrorRule} {bundle : List BundleCase}
  {a b : InvestigationResult K}

theorem proposalLoop_eq (rules : List ErrorRule) (toolCalls : List ToolCall)
    (es : List VerdictError) (seen : List String) :
    proposalLoop (rulesByKey rules) toolCalls es seen =
      ((proposalLoop (rulesByKey rules) toolCalls
          (es.filter fun e => !machineDecides rules e.ruleKey) seen).1,
        (es.filter fun e => machineDecides rules e.ruleKey).map VerdictError.ruleKey) := by
  induction es generalizing seen with
  | nil => rfl
  | cons e es ih =>
    cases hr : (rulesByKey rules).get? e.ruleKey with
    | none =>
      have hm : machineDecides rules e.ruleKey = false := by simp [machineDecides, hr]
      rw [List.filter_cons_of_pos (by simp [hm]), List.filter_cons_of_neg (by simp [hm]),
        proposalLoop, proposalLoop, hr]
      exact ih seen
    | some r =>
      have hm : machineDecides rules e.ruleKey = isMachineChecked r.predicate := by
        simp [machineDecides, hr]
      by_cases hc : isMachineChecked r.predicate = true
      · rw [List.filter_cons_of_neg (by simp [hm, hc]), List.filter_cons_of_pos (by simp [hm, hc]),
          proposalLoop, hr]
        dsimp only
        rw [if_pos hc, ih seen]
        rfl
      · rw [List.filter_cons_of_pos (by simp [hm, hc]), List.filter_cons_of_neg (by simp [hm, hc]),
          proposalLoop, proposalLoop, hr]
        dsimp only
        rw [if_neg hc, if_neg hc]
        by_cases hs : e.ruleKey ∈ seen
        · rw [if_pos hs, if_pos hs]
          exact ih seen
        · rw [if_neg hs, if_neg hs, ih (insertLast seen e.ruleKey)]

theorem diagnose_ignored (h : a.kind = .verdict) :
    (diagnose rules bundle a).ignored =
      (a.proposals.filter fun e => machineDecides rules e.ruleKey).map VerdictError.ruleKey := by
  rw [diagnose, if_neg (not_not.2 h)]
  dsimp only
  rw [proposalLoop_eq]
  rfl

theorem machineDecides_iff (hnd : (rules.map ErrorRule.ruleKey).Nodup) {key : String} :
    machineDecides rules key = true ↔
      ∃ r ∈ rules, r.ruleKey = key ∧ isMachineChecked r.predicate = true := by
  rw [machineDecides, Option.any_eq_true]
  constructor
  · rintro ⟨r, hr, hm⟩
    obtain ⟨hmem, hk⟩ := rulesByKey_get?_mem hr
    exact ⟨r, hmem, hk, hm⟩
  · rintro ⟨r, hr, rfl, hm⟩
    refine ⟨r, OrderedMap.get?_ofList_of_nodup ?_ (List.mem_map.2 ⟨r, hr, rfl⟩), hm⟩
    simpa [List.map_map, Function.comp_def] using hnd

/-- The model has no influence on a rule that the machine checks: verdicts
that differ in proposals for such rules have the same errors and the same
measurements, and each of them records its own proposals as ignored.  The
rule of a proposal is the one that the table has under its key, and with
distinct keys no key has two errors. -/
theorem diagnose_ignores_model (rules : List ErrorRule) (bundle : List BundleCase)
    (a b : InvestigationResult K) (h : SameButMachineProposals rules a b) :
    (diagnose rules bundle a).errors = (diagnose rules bundle b).errors ∧
      (diagnose rules bundle a).measurements = (diagnose rules bundle b).measurements ∧
      (∀ r : InvestigationResult K, (diagnose rules bundle r).ignored =
        if r.kind = .verdict then
          (r.proposals.filter fun e => machineDecides rules e.ruleKey).map VerdictError.ruleKey
        else []) ∧
      ((rules.map ErrorRule.ruleKey).Nodup →
        ((diagnose rules bundle a).errors.map DiagnosedError.ruleKey).Nodup ∧
          ∀ key, machineDecides rules key = true ↔
            ∃ r ∈ rules, r.ruleKey = key ∧ isMachineChecked r.predicate = true) := by
  refine ⟨?_, ?_, ?_, fun hnd => ⟨diagnose_errors_nodup hnd, fun _ => machineDecides_iff hnd⟩⟩
  · by_cases hk : a.kind = .verdict
    · have hkb : b.kind = .verdict := h.kind ▸ hk
      rw [diagnose_errors hk, diagnose_errors hkb, h.investigation]
      show _ ++ (proposalLoop _ _ a.proposals _).1 = _ ++ (proposalLoop _ _ b.proposals _).1
      rw [proposalLoop_eq, h.proposals, proposalLoop_eq rules _ b.proposals]
    · have hkb : b.kind ≠ .verdict := h.kind ▸ hk
      rw [diagnose_of_not_verdict hk, diagnose_of_not_verdict hkb]
  · by_cases hk : a.kind = .verdict
    · have hkb : b.kind = .verdict := h.kind ▸ hk
      rw [diagnose_measurements hk, diagnose_measurements hkb, h.investigation]
    · have hkb : b.kind ≠ .verdict := h.kind ▸ hk
      rw [diagnose_of_not_verdict hk, diagnose_of_not_verdict hkb]
  · intro r
    split_ifs with hk
    · exact diagnose_ignored hk
    · rw [diagnose_of_not_verdict hk]

end Proposals

/-- A table with a rule that the machine checks and one that it does not. -/
def twoRules : List ErrorRule :=
  [⟨"edge-cases", "correctness", some 40, some (.testGroupFailed "edge")⟩,
    ⟨"naming", "style", some 20, none⟩]

/-- A paper that failed its case, with the given proposals of the model. -/
def failedWith (proposals : List VerdictError) : InvestigationResult ℚ :=
  { kind := .verdict
    verdict := some ⟨proposals, []⟩
    ungradable := none
    flags := []
    injectionSources := none
    confidenceCap := 1
    investigation :=
      { toolCalls := [⟨"tc-1", .runTests, [], .ok, some "tc-1"⟩]
        structuredResults := [("tc-1", .runTests none [⟨"empty", some "edge", .fail⟩])]
        stopReason := .verdict
        modelsUsed := [] } }

theorem failedWith_ignores_model :
    (diagnose twoRules [⟨"empty", "edge"⟩]
        (failedWith [⟨"edge-cases", []⟩, ⟨"naming", []⟩, ⟨"edge-cases", ["tc-1"]⟩])).errors =
      (diagnose twoRules [⟨"empty", "edge"⟩] (failedWith [⟨"naming", []⟩])).errors ∧
    (diagnose twoRules [⟨"empty", "edge"⟩]
        (failedWith [⟨"edge-cases", []⟩, ⟨"naming", []⟩, ⟨"edge-cases", ["tc-1"]⟩])).ignored =
      ["edge-cases", "edge-cases"] := by
  obtain ⟨herrors, _, hignored, _⟩ := diagnose_ignores_model twoRules [⟨"empty", "edge"⟩]
    (failedWith [⟨"edge-cases", []⟩, ⟨"naming", []⟩, ⟨"edge-cases", ["tc-1"]⟩])
    (failedWith [⟨"naming", []⟩]) ⟨rfl, rfl, by decide⟩
  refine ⟨herrors, ?_⟩
  rw [hignored]
  decide

/-! ## Prices do not enter the diagnosis -/

def ErrorRule.withoutPrice (r : ErrorRule) : ErrorRule :=
  { r with deductionHundredths := none }

def DiagnosedError.withoutPrice (e : DiagnosedError) : DiagnosedError :=
  { e with deductionHundredths := none }

section Prices

variable {K : Type} (rules : List ErrorRule) (bundle : List BundleCase)

theorem machineErrors_withoutPrice (inv : Investigation) :
    machineErrors (rules.map ErrorRule.withoutPrice) bundle inv =
      (machineErrors rules bundle inv).map DiagnosedError.withoutPrice := by
  rw [machineErrors, machineErrors, List.filterMap_map, List.map_filterMap]
  refine List.filterMap_congr fun r _ => ?_
  rw [Function.comp_apply, machineError, machineError]
  cases hp : r.predicate with
  | none => simp [ErrorRule.withoutPrice, hp]
  | some p =>
    simp only [ErrorRule.withoutPrice, hp]
    split_ifs with h
    · rfl
    · rfl

theorem proposalLoop_withoutPrice {byKey byKey' : OrderedMap String ErrorRule}
    (h : ∀ k, byKey'.get? k = (byKey.get? k).map ErrorRule.withoutPrice)
    (toolCalls : List ToolCall) (es : List VerdictError) (seen : List String) :
    (proposalLoop byKey' toolCalls es seen).1 =
      (proposalLoop byKey toolCalls es seen).1.map DiagnosedError.withoutPrice := by
  induction es generalizing seen with
  | nil => rfl
  | cons v es ih =>
    rw [proposalLoop, proposalLoop, h]
    cases byKey.get? v.ruleKey with
    | none => exact ih seen
    | some r =>
      simp only [Option.map_some, ErrorRule.withoutPrice]
      split_ifs with hm hs
      · exact ih seen
      · exact ih seen
      · simp only [List.map_cons, ih]
        rfl

theorem diagnose_withoutPrice (result : InvestigationResult K) :
    (diagnose (rules.map ErrorRule.withoutPrice) bundle result).errors =
      (diagnose rules bundle result).errors.map DiagnosedError.withoutPrice := by
  by_cases h : result.kind = .verdict
  · have hkeys : (machineErrors (rules.map ErrorRule.withoutPrice) bundle
        result.investigation).map DiagnosedError.ruleKey =
          (machineErrors rules bundle result.investigation).map DiagnosedError.ruleKey := by
      rw [machineErrors_withoutPrice, List.map_map]
      rfl
    have hlookup : ∀ k, (rulesByKey (rules.map ErrorRule.withoutPrice)).get? k =
        ((rulesByKey rules).get? k).map ErrorRule.withoutPrice := by
      intro k
      rw [rulesByKey, rulesByKey,
        ← OrderedMap.get?_ofList_map (fun _ => ErrorRule.withoutPrice)]
      simp [List.map_map, Function.comp_def, ErrorRule.withoutPrice]
    rw [diagnose_errors h, diagnose_errors h, hkeys, machineErrors_withoutPrice,
      proposalLoop_withoutPrice hlookup, List.map_append]
  · simp [diagnose_of_not_verdict h]

end Prices

end Cine.Grading
