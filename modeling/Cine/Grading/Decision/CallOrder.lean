import Cine.Grading.Decision.CurrentBundle

/-!
# The calls that a predicate reads

`evaluatePredicate` folds over the tool calls of an investigation.  The
order of the calls shows neither in the state that it ends in nor in the set of
the calls that it cites; and what each call says of the compilation is read
off the same list.

* `failedAt` and `mem_failedAt_scanGroup` say which calls are kept with a case,
  and `mem_toolCallIds` which ones are cited in the end.
* `state_perm` and `toolCallIds_perm`: a permutation of the calls changes
  neither.
* Results without contradictions.  Where every case of the bundle has a result,
  everything compiled and no case both passed and failed, the predicate is
  decided by the failed cases (`decided_of_consistent`).
* `CompiledByAny` is about both tools that compile the submission.  The loop asks
  `run_tests` calls only, so a `run` call that compiled does not stop it from
  finding that nothing compiled (`uncompiled_sound_iff`).
-/

namespace Cine.Grading

open Cine.Lib

/-! ## The calls that are cited -/

section Cited

variable (group : String) (toolCalls : List ToolCall) (structured : StructuredResults)

/-- The call `id` has a failure of the case. -/
def CitedFailure (name id : String) : Prop :=
  ∃ t ∈ toolCalls, ∃ compile results, t.runTestsResult structured = some (compile, results) ∧
    compileFailed compile = false ∧ t.id = id ∧
      ∃ r ∈ results, r.group = some group ∧ r.name = name ∧ r.status ∈ failedStatuses

/-- The call `id` asked for the group and did not compile. -/
def CitedUncompiled (id : String) : Prop :=
  ∃ t ∈ toolCalls, ∃ compile results, t.runTestsResult structured = some (compile, results) ∧
    compileFailed compile = true ∧ t.id = id ∧
      (t.stringArg "group" = none ∨ t.stringArg "group" = some group)

end Cited

def failedAt (seen : OrderedMap String SeenCase) (name : String) : List String :=
  ((seen.get? name).map SeenCase.failedIn).getD []

section Scan

variable {group callId : String} {toolCalls : List ToolCall} {structured : StructuredResults}

theorem mem_failedAt_scanCase {seen : OrderedMap String SeenCase} {c : TestCaseResult}
    {name id : String} :
    id ∈ failedAt (scanCase group callId seen c) name ↔
      id ∈ failedAt seen name ∨
        callId = id ∧ c.group = some group ∧ c.name = name ∧ c.status ∈ failedStatuses := by
  unfold scanCase failedAt
  by_cases hg : c.group = some group
  · rw [if_neg (not_not.2 hg)]
    dsimp only
    rw [OrderedMap.get?_set]
    by_cases hn : name = c.name
    · subst hn
      rw [if_pos rfl, Option.map_some, Option.getD_some]
      have hold : ((seen.get? c.name).getD ⟨[], []⟩).failedIn =
          ((seen.get? c.name).map SeenCase.failedIn).getD [] := by
        cases seen.get? c.name <;> rfl
      by_cases hf : c.status ∈ failedStatuses
      · rw [if_pos hf, mem_insertLast, hold]
        simp [hg, hf, eq_comm]
      · rw [if_neg hf, hold]
        simp [hf]
    · rw [if_neg hn]
      simp [Ne.symm hn]
  · rw [if_pos hg]
    simp [hg]

theorem mem_failedAt_foldl {results : List TestCaseResult} {seen : OrderedMap String SeenCase}
    {name id : String} :
    id ∈ failedAt (results.foldl (scanCase group callId) seen) name ↔
      id ∈ failedAt seen name ∨ callId = id ∧
        ∃ r ∈ results, r.group = some group ∧ r.name = name ∧ r.status ∈ failedStatuses := by
  induction results generalizing seen with
  | nil => simp
  | cons c results ih =>
    rw [List.foldl_cons, ih, mem_failedAt_scanCase, or_assoc, ← and_or_left]
    simp only [List.mem_cons, exists_eq_or_imp]

theorem mem_failedAt_scanGroup (group : String) (structured : StructuredResults)
    (toolCalls : List ToolCall) :
    (∀ name id, id ∈ failedAt (scanGroup group structured toolCalls).seen name ↔
        CitedFailure group toolCalls structured name id) ∧
      ∀ id, id ∈ (scanGroup group structured toolCalls).compileFailed ↔
        CitedUncompiled group toolCalls structured id := by
  induction toolCalls using List.reverseRecOn with
  | nil => simp [scanGroup, CitedFailure, CitedUncompiled, failedAt]
  | append_singleton toolCalls t ih =>
    have hstep : scanGroup group structured (toolCalls ++ [t]) =
        scanCall group structured (scanGroup group structured toolCalls) t := by
      simp [scanGroup]
    obtain ⟨ihf, ihc⟩ := ih
    rw [hstep]
    unfold scanCall
    cases ht : t.runTestsResult structured with
    | none =>
      constructor
      · simpa [CitedFailure, ht, or_and_right, exists_or] using ihf
      · simpa [CitedUncompiled, ht, or_and_right, exists_or] using ihc
    | some p =>
      obtain ⟨compile, results⟩ := p
      by_cases hf : compileFailed compile = true
      · by_cases hg : t.stringArg "group" = none ∨ t.stringArg "group" = some group
        · simp only [hf, hg, if_true]
          constructor
          · simpa [CitedFailure, ht, hf, or_and_right, exists_or] using ihf
          · intro id
            rw [List.mem_append, ihc, List.mem_singleton, eq_comm (a := id)]
            simp [CitedUncompiled, ht, hf, hg, or_and_right, exists_or]
        · simp only [hf, hg, if_true, if_false]
          constructor
          · simpa [CitedFailure, ht, hf, or_and_right, exists_or] using ihf
          · simpa [CitedUncompiled, ht, hf, hg, or_and_right, exists_or] using ihc
      · have hf' : compileFailed compile = false := Bool.eq_false_iff.2 hf
        simp only [hf', Bool.false_eq_true, if_false]
        constructor
        · intro name id
          rw [mem_failedAt_foldl, ihf]
          simp [CitedFailure, ht, hf', or_and_right, exists_or]
        · simpa [CitedUncompiled, ht, hf', or_and_right, exists_or] using ihc

end Scan

section Outcome

variable {group : String} {bundle : List BundleCase} {toolCalls : List ToolCall}
  {structured : StructuredResults}

theorem mem_solid_failedIn {id : String} :
    id ∈ (scanGroup group structured toolCalls).solid.flatMap SeenCase.failedIn ↔
      ∃ name, Solid group toolCalls structured name ∧
        CitedFailure group toolCalls structured name id := by
  have hs := scanGroup_spec group structured toolCalls
  have hf := (mem_failedAt_scanGroup group structured toolCalls).1
  have hsolid : ∀ name e, (scanGroup group structured toolCalls).seen.get? name = some e →
      ((e.failedIn ≠ [] ∧ CaseStatus.pass ∉ e.statuses) ↔
        Solid group toolCalls structured name) := by
    intro name e he
    unfold Solid EndedBadly
    rw [hs.cited name e he, ← hs.seen, statusesAt, he]
    simp only [← hs.seen, statusesAt, he, Option.map_some, Option.getD_some]
  unfold GroupScan.solid
  simp only [List.mem_flatMap, List.mem_filter, decide_eq_true_eq]
  constructor
  · rintro ⟨e, ⟨he, hp⟩, hid⟩
    obtain ⟨name, hn⟩ := OrderedMap.mem_values_iff.1 he
    refine ⟨name, (hsolid name e hn).1 hp, (hf name id).1 ?_⟩
    rw [failedAt, hn]
    exact hid
  · rintro ⟨name, hp, hid⟩
    have hmem := (hf name id).2 hid
    unfold failedAt at hmem
    cases hn : (scanGroup group structured toolCalls).seen.get? name with
    | none =>
      rw [hn] at hmem
      cases hmem
    | some e =>
      rw [hn] at hmem
      exact ⟨e, ⟨OrderedMap.mem_values_iff.2 ⟨name, hn⟩, (hsolid name e hn).2 hp⟩, hmem⟩

theorem mem_toolCallIds {id : String} :
    id ∈ (evaluatePredicate (.testGroupFailed group) bundle toolCalls structured).toolCallIds ↔
      (evaluatePredicate (.testGroupFailed group) bundle toolCalls structured).state = .present ∧
          ((∃ name, Solid group toolCalls structured name ∧
              CitedFailure group toolCalls structured name id) ∨
            (¬ ∃ name, Solid group toolCalls structured name) ∧
              CitedUncompiled group toolCalls structured id) ∨
        (evaluatePredicate (.testGroupFailed group) bundle toolCalls structured).state = .absent ∧
          ∃ t ∈ toolCalls, (t.tool = .runTests ∧ t.status = .ok) ∧ t.id = id := by
  have hsolid := solid_ne_nil (scanGroup_spec group structured toolCalls)
  have hids : id ∈ (scanGroup group structured toolCalls).solid.flatMap SeenCase.failedIn ↔ _ :=
    mem_solid_failedIn
  have hcompile := (mem_failedAt_scanGroup group structured toolCalls).2 id
  have hnone : (scanGroup group structured toolCalls).solid = [] →
      ¬ ∃ name, Solid group toolCalls structured name ∧
        CitedFailure group toolCalls structured name id := by
    rintro hnil ⟨name, hp, _⟩
    exact hsolid.2 ⟨name, hp⟩ hnil
  simp only [evaluatePredicate]
  by_cases hg : (bundle.filter (fun c => c.group = group)).map BundleCase.name = []
  · rw [if_pos hg]
    simp [unmeasured]
  · rw [if_neg hg]
    unfold judgeGroup
    rw [← hsolid, ← hcompile]
    split_ifs with h₁ h₂ h₃ h₄ h₅ h₆
    · rw [mem_sortStrings, List.mem_eraseDups, hids]
      simp [h₁]
    · simp [unmeasured]
    · simp [h₁, hnone (not_not.1 h₁)]
    · simp [unmeasured]
    · simp [unmeasured]
    · simp only [List.mem_map, List.mem_filter, decide_eq_true_eq]
      simp [and_assoc]
    · simp [unmeasured]

end Outcome

/-! ## The order of the calls -/

section Order

variable {group : String} {bundle : List BundleCase} {toolCalls toolCalls' : List ToolCall}
  {structured : StructuredResults}

theorem ended_perm (h : toolCalls.Perm toolCalls') (name : String) :
    Ended group toolCalls structured name = Ended group toolCalls' structured name := by
  unfold Ended
  simp only [h.mem_iff]

theorem solid_perm (h : toolCalls.Perm toolCalls') (name : String) :
    Solid group toolCalls structured name ↔ Solid group toolCalls' structured name := by
  unfold Solid EndedBadly
  rw [ended_perm h]

theorem unsettled_perm (h : toolCalls.Perm toolCalls') (name : String) :
    Unsettled group toolCalls structured name ↔ Unsettled group toolCalls' structured name := by
  unfold Unsettled EndedBadly
  rw [ended_perm h]

theorem notCompiled_perm (h : toolCalls.Perm toolCalls') :
    NotCompiled group toolCalls structured ↔ NotCompiled group toolCalls' structured := by
  unfold NotCompiled
  simp only [h.mem_iff]

theorem compiledSomewhere_perm (h : toolCalls.Perm toolCalls') :
    CompiledSomewhere toolCalls structured ↔ CompiledSomewhere toolCalls' structured := by
  unfold CompiledSomewhere
  simp only [h.mem_iff]

theorem citedFailure_perm (h : toolCalls.Perm toolCalls') (name id : String) :
    CitedFailure group toolCalls structured name id ↔
      CitedFailure group toolCalls' structured name id := by
  unfold CitedFailure
  simp only [h.mem_iff]

theorem citedUncompiled_perm (h : toolCalls.Perm toolCalls') (id : String) :
    CitedUncompiled group toolCalls structured id ↔
      CitedUncompiled group toolCalls' structured id := by
  unfold CitedUncompiled
  simp only [h.mem_iff]

theorem state_eq_of_iff {s s' : PredicateState} (hpresent : s = .present ↔ s' = .present)
    (habsent : s = .absent ↔ s' = .absent) : s = s' := by
  cases s <;> cases s' <;> simp_all

theorem state_perm (p : RulePredicate) (h : toolCalls.Perm toolCalls') :
    (evaluatePredicate p bundle toolCalls structured).state =
      (evaluatePredicate p bundle toolCalls' structured).state := by
  cases p with
  | testGroupFailed group =>
    refine state_eq_of_iff ?_ ?_
    · rw [evaluatePredicate_present, evaluatePredicate_present, notCompiled_perm h,
        compiledSomewhere_perm h]
      simp only [solid_perm h]
    · rw [evaluatePredicate_absent, evaluatePredicate_absent, notCompiled_perm h]
      simp only [solid_perm h, unsettled_perm h, ended_perm h]
  | callsFunction name => rfl
  | complexityExceedsRequired => rfl
  | noRecursion functionName => rfl

theorem toolCallIds_perm (p : RulePredicate) (h : toolCalls.Perm toolCalls') (id : String) :
    id ∈ (evaluatePredicate p bundle toolCalls structured).toolCallIds ↔
      id ∈ (evaluatePredicate p bundle toolCalls' structured).toolCallIds := by
  cases p with
  | testGroupFailed group =>
    rw [mem_toolCallIds, mem_toolCallIds, state_perm _ h]
    simp only [solid_perm h, citedFailure_perm h, citedUncompiled_perm h, h.mem_iff]
  | callsFunction name => exact Iff.rfl
  | complexityExceedsRequired => exact Iff.rfl
  | noRecursion functionName => exact Iff.rfl

end Order

/-! ## Results without contradictions -/

section Consistent

variable {bundle : List BundleCase} {toolCalls : List ToolCall} {structured : StructuredResults}

/-- Every `run_tests` call compiled. -/
def AlwaysCompiled (toolCalls : List ToolCall) (structured : StructuredResults) : Prop :=
  ∀ t ∈ toolCalls, ∀ compile results, t.runTestsResult structured = some (compile, results) →
    compileFailed compile = false

/-- Every case passed every time, or failed every time. -/
def OneStatus (toolCalls : List ToolCall) (structured : StructuredResults) : Prop :=
  ∀ group name, (∀ status, Ended group toolCalls structured name status → status = .pass) ∨
    ∀ status, Ended group toolCalls structured name status → status ∈ failedStatuses

/-- The results are about cases that the bundle has. -/
def OnlyBundleCases (bundle : List BundleCase) (toolCalls : List ToolCall)
    (structured : StructuredResults) : Prop :=
  ∀ group name status, Ended group toolCalls structured name status → InBundle bundle group name

theorem exists_ended_of_covered (hcovered : uncoveredCases bundle toolCalls structured = [])
    (hcompiled : AlwaysCompiled toolCalls structured) {c : BundleCase} (hc : c ∈ bundle) :
    ∃ status, Ended c.group toolCalls structured c.name status := by
  obtain ⟨t, ht, compile, results, hr, hm⟩ := uncoveredCases_eq_nil.1 hcovered c hc
  have hf := hcompiled t ht compile results hr
  rw [if_neg (by rw [hf]; exact Bool.false_ne_true)] at hm
  obtain ⟨r, hmem, hg, hn⟩ := hm
  exact ⟨r.status, t, ht, compile, results, hr, hf, r, hmem, hg, hn, rfl⟩

theorem solid_iff_of_oneStatus (hone : OneStatus toolCalls structured) (group name : String) :
    Solid group toolCalls structured name ↔ EndedBadly group toolCalls structured name := by
  refine and_iff_left_of_imp ?_
  rintro ⟨status, hstatus, hended⟩ hpass
  rcases hone group name with h | h
  · rw [h status hended] at hstatus
    exact absurd hstatus (by decide)
  · exact absurd (h .pass hpass) (by decide)

theorem not_unsettled_of_oneStatus (hone : OneStatus toolCalls structured) (group name : String) :
    ¬ Unsettled group toolCalls structured name := by
  rintro (⟨⟨status, hstatus, hended⟩, hpass⟩ | htimeout)
  · exact ((solid_iff_of_oneStatus hone group name).2 ⟨status, hstatus, hended⟩).2 hpass
  · rcases hone group name with h | h
    · exact absurd (h .timeout htimeout) (by decide)
    · exact absurd (h .timeout htimeout) (by decide)

theorem decided_of_consistent {group : String} (hgroup : GroupInBundle group bundle)
    (hcovered : uncoveredCases bundle toolCalls structured = [])
    (hcompiled : AlwaysCompiled toolCalls structured) (hone : OneStatus toolCalls structured)
    (honly : OnlyBundleCases bundle toolCalls structured) :
    (evaluatePredicate (.testGroupFailed group) bundle toolCalls structured).state ≠ .unmeasured ∧
      ((evaluatePredicate (.testGroupFailed group) bundle toolCalls structured).state = .present ↔
        ∃ c ∈ bundle, c.group = group ∧ EndedBadly group toolCalls structured c.name) := by
  have hnot : ¬ NotCompiled group toolCalls structured := by
    rintro ⟨t, ht, compile, results, hr, hf, _⟩
    rw [hcompiled t ht compile results hr] at hf
    cases hf
  have hsolid : (∃ name, Solid group toolCalls structured name) ↔
      ∃ c ∈ bundle, c.group = group ∧ EndedBadly group toolCalls structured c.name := by
    constructor
    · rintro ⟨name, hs⟩
      obtain ⟨status, _, hended⟩ := hs.1
      exact ⟨_, honly group name status hended, rfl, hs.1⟩
    · rintro ⟨c, _, _, hbad⟩
      exact ⟨c.name, (solid_iff_of_oneStatus hone group c.name).2 hbad⟩
  have hpresent : (evaluatePredicate (.testGroupFailed group) bundle toolCalls structured).state =
      .present ↔ _ := evaluatePredicate_present
  rw [and_iff_right hgroup, or_iff_left fun h => hnot h.1, hsolid] at hpresent
  refine ⟨fun hunmeasured => ?_, hpresent⟩
  -- what is not present has passed every case, so it is absent
  have hno : ¬ ∃ name, Solid group toolCalls structured name := by
    rw [hsolid, ← hpresent, hunmeasured]
    simp
  have habsent : (evaluatePredicate (.testGroupFailed group) bundle toolCalls structured).state =
      .absent := by
    refine evaluatePredicate_absent.2 ⟨hgroup, hno, hnot, ?_, fun c hc hcg => ?_⟩
    · rintro ⟨name, hu⟩
      exact not_unsettled_of_oneStatus hone group name hu
    · subst hcg
      obtain ⟨status, hended⟩ := exists_ended_of_covered hcovered hcompiled hc
      rcases hone c.group c.name with h | h
      · rwa [← h status hended]
      · refine absurd ⟨c.name, ?_⟩ hno
        exact (solid_iff_of_oneStatus hone _ _).2 ⟨status, h status hended, hended⟩
  rw [hunmeasured] at habsent
  cases habsent

end Consistent

/-- The outcome of a predicate does not depend on the order of the calls; and
where every case of the bundle is covered, everything compiled, no case both
passed and failed and the results are about the bundle, a group of the bundle
is measured, and present exactly where one of its cases failed. -/
theorem evaluatePredicate_reads_results (bundle : List BundleCase) (toolCalls : List ToolCall)
    (structured : StructuredResults) :
    (∀ (p : RulePredicate) (toolCalls' : List ToolCall), toolCalls.Perm toolCalls' →
      (evaluatePredicate p bundle toolCalls structured).state =
          (evaluatePredicate p bundle toolCalls' structured).state ∧
        ∀ id, id ∈ (evaluatePredicate p bundle toolCalls structured).toolCallIds ↔
          id ∈ (evaluatePredicate p bundle toolCalls' structured).toolCallIds) ∧
      ∀ group, GroupInBundle group bundle → uncoveredCases bundle toolCalls structured = [] →
        AlwaysCompiled toolCalls structured → OneStatus toolCalls structured →
        OnlyBundleCases bundle toolCalls structured →
        (evaluatePredicate (.testGroupFailed group) bundle toolCalls structured).state ≠
            .unmeasured ∧
          ((evaluatePredicate (.testGroupFailed group) bundle toolCalls structured).state =
              .present ↔
            ∃ c ∈ bundle, c.group = group ∧ EndedBadly group toolCalls structured c.name) :=
  ⟨fun p _ h => ⟨state_perm p h, toolCallIds_perm p h⟩, fun _ => decided_of_consistent⟩

/-- One call that failed the only case of the bundle. -/
def oneFailedCall : List ToolCall := [⟨"tc-1", .runTests, [], .ok, some "tc-1"⟩]

def oneFailedResult : StructuredResults :=
  [("tc-1", .runTests (some ⟨true⟩) [⟨"empty", some "edge", .fail⟩])]

theorem oneFailed_result :
    ToolCall.runTestsResult ⟨"tc-1", .runTests, [], .ok, some "tc-1"⟩ oneFailedResult =
      some (some ⟨true⟩, [⟨"empty", some "edge", .fail⟩]) := by decide

theorem oneFailed_results {t : ToolCall} (ht : t ∈ oneFailedCall) {compile : Option CompileInfo}
    {results : List TestCaseResult}
    (hr : t.runTestsResult oneFailedResult = some (compile, results)) :
    compile = some ⟨true⟩ ∧ results = [⟨"empty", some "edge", .fail⟩] := by
  obtain rfl : t = ⟨"tc-1", .runTests, [], .ok, some "tc-1"⟩ := List.mem_singleton.1 ht
  rw [oneFailed_result] at hr
  cases hr
  exact ⟨rfl, rfl⟩

theorem ended_oneFailed {group name : String} {status : CaseStatus} :
    Ended group oneFailedCall oneFailedResult name status ↔
      group = "edge" ∧ name = "empty" ∧ status = .fail := by
  constructor
  · rintro ⟨t, ht, compile, results, hr, _, r, hm, hg, hn, hs⟩
    obtain ⟨rfl, rfl⟩ := oneFailed_results ht hr
    obtain rfl : r = ⟨"empty", some "edge", .fail⟩ := List.mem_singleton.1 hm
    exact ⟨(Option.some.inj hg).symm, hn.symm, hs.symm⟩
  · rintro ⟨rfl, rfl, rfl⟩
    exact ⟨_, List.mem_singleton.2 rfl, _, _, oneFailed_result, rfl, _,
      List.mem_singleton.2 rfl, rfl, rfl, rfl⟩

theorem alwaysCompiled_oneFailed : AlwaysCompiled oneFailedCall oneFailedResult := by
  intro t ht compile results hr
  obtain ⟨rfl, _⟩ := oneFailed_results ht hr
  rfl

theorem oneStatus_oneFailed : OneStatus oneFailedCall oneFailedResult := by
  intro group name
  refine Or.inr fun status h => ?_
  rw [(ended_oneFailed.1 h).2.2]
  decide

theorem oneFailed_reads_results :
    (evaluatePredicate (.testGroupFailed "edge") [⟨"empty", "edge"⟩] oneFailedCall
      oneFailedResult).state ≠ .unmeasured := by
  refine ((evaluatePredicate_reads_results [⟨"empty", "edge"⟩] oneFailedCall
    oneFailedResult).2 "edge" ⟨_, List.mem_singleton.2 rfl, rfl⟩ (by decide)
    alwaysCompiled_oneFailed oneStatus_oneFailed ?_).1
  intro group name status h
  obtain ⟨rfl, rfl, _⟩ := ended_oneFailed.1 h
  exact List.mem_singleton.2 rfl

/-- The results of a paper are complete and say one thing, and a rule on a
group that the bundle does not have stays unmeasured. -/
theorem missing_group_unmeasured :
    (evaluatePredicate (.testGroupFailed "loops") [⟨"empty", "edge"⟩] oneFailedCall
        oneFailedResult).state = .unmeasured ∧
      ¬ ∀ (group : String) (bundle : List BundleCase) (toolCalls : List ToolCall)
          (structured : StructuredResults), uncoveredCases bundle toolCalls structured = [] →
          AlwaysCompiled toolCalls structured → OneStatus toolCalls structured →
          (evaluatePredicate (.testGroupFailed group) bundle toolCalls structured).state ≠
              .unmeasured ∧
            ((evaluatePredicate (.testGroupFailed group) bundle toolCalls structured).state =
                .present ↔
              ∃ c ∈ bundle, c.group = group ∧ EndedBadly group toolCalls structured c.name) := by
  have hstate : (evaluatePredicate (.testGroupFailed "loops") [⟨"empty", "edge"⟩] oneFailedCall
      oneFailedResult).state = .unmeasured := by decide
  refine ⟨hstate, fun h => ?_⟩
  exact (h "loops" [⟨"empty", "edge"⟩] oneFailedCall oneFailedResult (by decide)
    alwaysCompiled_oneFailed oneStatus_oneFailed).1 hstate

/-! ## What both tools say of the compilation -/

section Compilation

variable (toolCalls : List ToolCall) (structured : StructuredResults)

/-- A call of either tool did not compile. -/
def FailedToCompile : Prop :=
  ∃ t ∈ toolCalls, ∃ compile, t.compileResult structured = some compile ∧
    compileFailed compile = true

/-- A call of either tool compiled. -/
def CompiledByAny : Prop :=
  ∃ t ∈ toolCalls, ∃ compile, t.compileResult structured = some compile ∧
    compileFailed compile = false

/-- A `run` call compiled. -/
def CompiledByRun : Prop :=
  ∃ t ∈ toolCalls, ∃ compile, t.runResult structured = some compile ∧
    compileFailed compile = false

/-- The predicate is found present because the submission does not compile. -/
def JudgedUncompiled (p : RulePredicate) (bundle : List BundleCase) : Prop :=
  (evaluatePredicate p bundle toolCalls structured).state = .present ∧
    (evaluatePredicate p bundle toolCalls structured).reason = some "bài không biên dịch"

end Compilation

section Uncompiled

variable {group : String} {bundle : List BundleCase} {toolCalls : List ToolCall}
  {structured : StructuredResults}

theorem judgedUncompiled_iff :
    JudgedUncompiled toolCalls structured (.testGroupFailed group) bundle ↔
      GroupInBundle group bundle ∧ NotCompiled group toolCalls structured ∧
        ¬ CompiledSomewhere toolCalls structured := by
  have hs := scanGroup_spec group structured toolCalls
  have hsolid : (scanGroup group structured toolCalls).solid ≠ [] →
      CompiledSomewhere toolCalls structured := by
    intro h
    obtain ⟨name, ⟨_, _, t, ht, compile, results, hr, hf, _⟩, _⟩ := (solid_ne_nil hs).1 h
    exact ⟨t, ht, compile, results, hr, hf⟩
  unfold JudgedUncompiled evaluatePredicate
  dsimp only
  by_cases hg : GroupInBundle group bundle
  · rw [if_neg fun h => expected_eq_nil.1 h hg]
    unfold judgeGroup
    rw [← hs.notCompiled, ← hs.compiled]
    rw [← hs.compiled] at hsolid
    split_ifs <;> simp_all [unmeasured]
  · rw [if_pos (expected_eq_nil.2 hg)]
    simp [hg, unmeasured]

theorem compiledByAny_iff :
    CompiledByAny toolCalls structured ↔
      CompiledSomewhere toolCalls structured ∨ CompiledByRun toolCalls structured := by
  constructor
  · rintro ⟨t, ht, compile, hc, hf⟩
    unfold ToolCall.compileResult at hc
    cases hr : t.runTestsResult structured with
    | none =>
      rw [hr] at hc
      exact Or.inr ⟨t, ht, compile, hc, hf⟩
    | some p =>
      rw [hr] at hc
      obtain rfl : p.1 = compile := Option.some.inj hc
      exact Or.inl ⟨t, ht, p.1, p.2, hr, hf⟩
  · rintro (⟨t, ht, compile, results, hr, hf⟩ | ⟨t, ht, compile, hr, hf⟩)
    · exact ⟨t, ht, compile, by rw [ToolCall.compileResult, hr], hf⟩
    · refine ⟨t, ht, compile, ?_, hf⟩
      have hnone : t.runTestsResult structured = none := by
        unfold ToolCall.runResult at hr
        unfold ToolCall.runTestsResult
        split_ifs at hr with htool
        rw [not_or, not_not] at htool
        rw [if_pos (Or.inl (by rw [htool.1]; decide))]
      rw [ToolCall.compileResult, hnone]
      exact hr

theorem failedToCompile_of_notCompiled (h : NotCompiled group toolCalls structured) :
    FailedToCompile toolCalls structured := by
  obtain ⟨t, ht, compile, results, hr, hf, _⟩ := h
  exact ⟨t, ht, compile, by rw [ToolCall.compileResult, hr], hf⟩

end Uncompiled

/-- A predicate that is found present because the submission does not compile
rests on a call that did not compile and on no call, of either tool, that did,
except in one case: no `run_tests` call compiled, one for the group of the rule
failed to, and a `run` call compiled. -/
theorem uncompiled_sound_iff (p : RulePredicate) (bundle : List BundleCase)
    (toolCalls : List ToolCall) (structured : StructuredResults) :
    (JudgedUncompiled toolCalls structured p bundle →
        FailedToCompile toolCalls structured ∧ ¬ CompiledByAny toolCalls structured) ↔
      ¬ ∃ group, p = .testGroupFailed group ∧ GroupInBundle group bundle ∧
        NotCompiled group toolCalls structured ∧ ¬ CompiledSomewhere toolCalls structured ∧
        CompiledByRun toolCalls structured := by
  constructor
  · rintro h ⟨group, rfl, hg, hn, hc, hrun⟩
    exact (h (judgedUncompiled_iff.2 ⟨hg, hn, hc⟩)).2 (compiledByAny_iff.2 (Or.inr hrun))
  · intro h hjudged
    cases p with
    | testGroupFailed group =>
      obtain ⟨hg, hn, hc⟩ := judgedUncompiled_iff.1 hjudged
      refine ⟨failedToCompile_of_notCompiled hn, fun hany => ?_⟩
      rcases compiledByAny_iff.1 hany with hsomewhere | hrun
      · exact hc hsomewhere
      · exact h ⟨group, rfl, hg, hn, hc, hrun⟩
    | callsFunction name => exact absurd hjudged.1 (by simp [evaluatePredicate])
    | complexityExceedsRequired => exact absurd hjudged.1 (by simp [evaluatePredicate])
    | noRecursion functionName => exact absurd hjudged.1 (by simp [evaluatePredicate])

/-- A `run` call that compiled the submission, and a `run_tests` call that did
not. -/
def runThenTests : List ToolCall :=
  [⟨"tc-1", .run, [("input", .str "1 2")], .ok, some "tc-1"⟩,
    ⟨"tc-2", .runTests, [], .ok, some "tc-2"⟩]

def runThenTestsResults : StructuredResults :=
  [("tc-1", .run (some ⟨true⟩)), ("tc-2", .runTests (some ⟨false⟩) [])]

theorem run_compiled_is_overlooked :
    JudgedUncompiled runThenTests runThenTestsResults (.testGroupFailed "edge")
        [⟨"empty", "edge"⟩] ∧
      CompiledByAny runThenTests runThenTestsResults ∧
      ¬ ∀ (p : RulePredicate) (bundle : List BundleCase) (toolCalls : List ToolCall)
          (structured : StructuredResults), JudgedUncompiled toolCalls structured p bundle →
          FailedToCompile toolCalls structured ∧ ¬ CompiledByAny toolCalls structured := by
  have hjudged : JudgedUncompiled runThenTests runThenTestsResults (.testGroupFailed "edge")
      [⟨"empty", "edge"⟩] := by
    constructor <;> decide
  have hany : CompiledByAny runThenTests runThenTestsResults :=
    ⟨_, List.mem_cons_self, some ⟨true⟩, by decide, by decide⟩
  exact ⟨hjudged, hany, fun h => (h _ _ _ _ hjudged).2 hany⟩

end Cine.Grading
