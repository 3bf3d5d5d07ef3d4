import Cine.Grading.Decision.Safety

/-!
# Which stored results a predicate reads

The stored results of a paper are evaluated again whenever its score is
computed, against the test bundle that is pinned then.  The loop of
`evaluatePredicate` keeps every result whose group is the group of the rule;
it does not ask whether the bundle still has the case.

* What the loop collects.  `Ended` says that a case ended in some way in a call
  that compiled.  A case is `Solid` where it failed and never passed, and
  `Unsettled` where it failed and passed, or ran out of time.
* What the verdict is.  `evaluatePredicate_present` and
  `evaluatePredicate_absent` read the verdict in these terms.
* Two records that agree on the cases of the bundle (`SameOnBundle`).
  `StaleHarmless` is the condition under which the cases that are not in the
  bundle leave the verdict alone.
-/

namespace Cine.Grading

open Cine.Lib

/-! ## What the loop collects -/

section Ends

variable (group : String) (toolCalls : List ToolCall) (structured : StructuredResults)

/-- A call that compiled has a result of the case with this end. -/
def Ended (name : String) (status : CaseStatus) : Prop :=
  ∃ t ∈ toolCalls, ∃ compile results, t.runTestsResult structured = some (compile, results) ∧
    compileFailed compile = false ∧
      ∃ r ∈ results, r.group = some group ∧ r.name = name ∧ r.status = status

/-- The case failed in some call. -/
def EndedBadly (name : String) : Prop :=
  ∃ status ∈ failedStatuses, Ended group toolCalls structured name status

/-- The case failed and never passed. -/
def Solid (name : String) : Prop :=
  EndedBadly group toolCalls structured name ∧ ¬ Ended group toolCalls structured name .pass

/-- The case failed in one call and passed in another, or it ran out of time. -/
def Unsettled (name : String) : Prop :=
  EndedBadly group toolCalls structured name ∧ Ended group toolCalls structured name .pass ∨
    Ended group toolCalls structured name .timeout

/-- A call that asked for the group did not compile. -/
def NotCompiled : Prop :=
  ∃ t ∈ toolCalls, ∃ compile results, t.runTestsResult structured = some (compile, results) ∧
    compileFailed compile = true ∧
      (t.stringArg "group" = none ∨ t.stringArg "group" = some group)

/-- Some call compiled. -/
def CompiledSomewhere : Prop :=
  ∃ t ∈ toolCalls, ∃ compile results, t.runTestsResult structured = some (compile, results) ∧
    compileFailed compile = false

end Ends

/-- The ends that were seen of a case. -/
def statusesAt (seen : OrderedMap String SeenCase) (name : String) : List CaseStatus :=
  ((seen.get? name).map SeenCase.statuses).getD []

/-- A case has a call it failed in exactly when one of its ends is a failure. -/
def FailuresCited (seen : OrderedMap String SeenCase) : Prop :=
  ∀ name e, seen.get? name = some e → (e.failedIn ≠ [] ↔ ∃ s ∈ failedStatuses, s ∈ e.statuses)

section Scan

variable {group callId : String}

variable {seen : OrderedMap String SeenCase}

theorem mem_statusesAt_scanCase {c : TestCaseResult} {name : String} {status : CaseStatus} :
    status ∈ statusesAt (scanCase group callId seen c) name ↔
      status ∈ statusesAt seen name ∨ c.group = some group ∧ c.name = name ∧ c.status = status := by
  unfold scanCase statusesAt
  by_cases hg : c.group = some group
  · rw [if_neg (not_not.2 hg)]
    dsimp only
    rw [OrderedMap.get?_set]
    by_cases hn : name = c.name
    · subst hn
      rw [if_pos rfl, Option.map_some, Option.getD_some, mem_insertLast]
      cases seen.get? c.name with
      | none => simp [hg, eq_comm]
      | some e => simp [hg, eq_comm]
    · rw [if_neg hn]
      simp [Ne.symm hn]
  · rw [if_pos hg]
    simp [hg]

theorem failuresCited_scanCase (h : FailuresCited seen) (c : TestCaseResult) :
    FailuresCited (scanCase group callId seen c) := by
  intro name e he
  unfold scanCase at he
  split_ifs at he with hg hf
  · exact h name e he
  · dsimp only at he
    rw [OrderedMap.get?_set] at he
    by_cases hn : name = c.name
    · rw [if_pos hn, Option.some.injEq] at he
      subst he
      have hne : ∀ l : List String, insertLast l callId ≠ [] := fun l =>
        List.ne_nil_of_mem (mem_insertLast.2 (Or.inr rfl))
      exact iff_of_true (hne _) ⟨c.status, hf, mem_insertLast.2 (Or.inr rfl)⟩
    · rw [if_neg hn] at he
      exact h name e he
  · dsimp only at he
    rw [OrderedMap.get?_set] at he
    by_cases hn : name = c.name
    · rw [if_pos hn, Option.some.injEq] at he
      subst he
      have hold : (((seen.get? c.name).getD ⟨[], []⟩).failedIn ≠ [] ↔
          ∃ s ∈ failedStatuses, s ∈ ((seen.get? c.name).getD ⟨[], []⟩).statuses) := by
        cases hs : seen.get? c.name with
        | none => simp
        | some e => exact h c.name e hs
      show ((seen.get? c.name).getD ⟨[], []⟩).failedIn ≠ [] ↔ _
      rw [hold]
      constructor
      · rintro ⟨s, hs, hm⟩
        exact ⟨s, hs, mem_insertLast.2 (Or.inl hm)⟩
      · rintro ⟨s, hs, hm⟩
        rcases mem_insertLast.1 hm with hm | rfl
        · exact ⟨s, hs, hm⟩
        · exact absurd hs hf
    · rw [if_neg hn] at he
      exact h name e he

theorem mem_statusesAt_foldl {results : List TestCaseResult} {name : String} {status : CaseStatus} :
    status ∈ statusesAt (results.foldl (scanCase group callId) seen) name ↔
      status ∈ statusesAt seen name ∨
        ∃ r ∈ results, r.group = some group ∧ r.name = name ∧ r.status = status := by
  induction results generalizing seen with
  | nil => simp
  | cons c results ih =>
    rw [List.foldl_cons, ih, mem_statusesAt_scanCase, or_assoc]
    simp only [List.mem_cons, exists_eq_or_imp]

theorem failuresCited_foldl {results : List TestCaseResult} (h : FailuresCited seen) :
    FailuresCited (results.foldl (scanCase group callId) seen) := by
  induction results generalizing seen with
  | nil => exact h
  | cons c results ih => exact ih (failuresCited_scanCase h c)

end Scan

/-- What the loop has collected after some tool calls. -/
structure ScanSpec (group : String) (toolCalls : List ToolCall) (structured : StructuredResults)
    (s : GroupScan) : Prop where
  notCompiled : s.compileFailed ≠ [] ↔ NotCompiled group toolCalls structured
  compiled : s.compiledSomewhere = true ↔ CompiledSomewhere toolCalls structured
  seen : ∀ name status, status ∈ statusesAt s.seen name ↔
    Ended group toolCalls structured name status
  cited : FailuresCited s.seen

theorem scanGroup_spec (group : String) (structured : StructuredResults)
    (toolCalls : List ToolCall) :
    ScanSpec group toolCalls structured (scanGroup group structured toolCalls) := by
  induction toolCalls using List.reverseRecOn with
  | nil =>
    constructor
    · simp [scanGroup, NotCompiled]
    · simp [scanGroup, CompiledSomewhere]
    · simp [scanGroup, Ended, statusesAt]
    · intro name e he
      simp [scanGroup] at he
  | append_singleton toolCalls t ih =>
    have hstep : scanGroup group structured (toolCalls ++ [t]) =
        scanCall group structured (scanGroup group structured toolCalls) t := by
      simp [scanGroup]
    rw [hstep]
    unfold scanCall
    cases ht : t.runTestsResult structured with
    | none =>
      constructor
      · simpa [NotCompiled, ht, or_and_right, exists_or] using ih.notCompiled
      · simpa [CompiledSomewhere, ht, or_and_right, exists_or] using ih.compiled
      · simpa [Ended, ht, or_and_right, exists_or] using ih.seen
      · exact ih.cited
    | some p =>
      obtain ⟨compile, results⟩ := p
      by_cases hf : compileFailed compile = true
      · by_cases hg : t.stringArg "group" = none ∨ t.stringArg "group" = some group
        · simp only [hf, hg, if_true]
          constructor
          · refine iff_of_true (by simp) ⟨t, by simp, compile, results, ht, hf, hg⟩
          · simpa [CompiledSomewhere, ht, hf, or_and_right, exists_or] using ih.compiled
          · simpa [Ended, ht, hf, or_and_right, exists_or] using ih.seen
          · exact ih.cited
        · simp only [hf, hg, if_true, if_false]
          constructor
          · simpa [NotCompiled, ht, hf, hg, or_and_right, exists_or] using ih.notCompiled
          · simpa [CompiledSomewhere, ht, hf, or_and_right, exists_or] using ih.compiled
          · simpa [Ended, ht, hf, or_and_right, exists_or] using ih.seen
          · exact ih.cited
      · have hf' : compileFailed compile = false := Bool.eq_false_iff.2 hf
        simp only [hf', Bool.false_eq_true, if_false]
        constructor
        · simpa [NotCompiled, ht, hf', or_and_right, exists_or] using ih.notCompiled
        · exact iff_of_true rfl ⟨t, by simp, compile, results, ht, hf'⟩
        · intro name status
          rw [mem_statusesAt_foldl, ih.seen]
          simp [Ended, ht, hf', or_and_right, exists_or]
        · exact failuresCited_foldl ih.cited

/-! ## What the verdict is -/

section Verdict

variable {group : String} {toolCalls : List ToolCall} {structured : StructuredResults}
  {s : GroupScan}

theorem exists_seen_iff (hs : ScanSpec group toolCalls structured s) {p : SeenCase → Prop}
    {q : (CaseStatus → Prop) → Prop}
    (hp : ∀ name e, s.seen.get? name = some e → (p e ↔ q (· ∈ e.statuses)))
    (hempty : ¬ q fun _ => False) :
    (∃ e ∈ s.seen.values, p e) ↔ ∃ name, q (Ended group toolCalls structured name) := by
  have hends : ∀ name e, s.seen.get? name = some e →
      (Ended group toolCalls structured name) = (· ∈ e.statuses) := by
    intro name e he
    funext status
    rw [← hs.seen, statusesAt, he]
    rfl
  constructor
  · rintro ⟨e, he, hpe⟩
    obtain ⟨name, hn⟩ := OrderedMap.mem_values_iff.1 he
    exact ⟨name, (hends name e hn) ▸ (hp name e hn).1 hpe⟩
  · rintro ⟨name, hq⟩
    cases hn : s.seen.get? name with
    | none =>
      have hnone : Ended group toolCalls structured name = fun _ => False := by
        funext status
        rw [← hs.seen, statusesAt, hn]
        simp
      exact absurd (hnone ▸ hq) hempty
    | some e =>
      exact ⟨e, OrderedMap.mem_values_iff.2 ⟨name, hn⟩, (hp name e hn).2 ((hends name e hn) ▸ hq)⟩

theorem solid_ne_nil (hs : ScanSpec group toolCalls structured s) :
    s.solid ≠ [] ↔ ∃ name, Solid group toolCalls structured name := by
  unfold GroupScan.solid
  rw [ne_eq, List.eq_nil_iff_forall_not_mem, not_forall]
  simp only [not_not, List.mem_filter, decide_eq_true_eq]
  refine exists_seen_iff hs
    (q := fun ends => (∃ status ∈ failedStatuses, ends status) ∧ ¬ ends .pass) ?_ (by simp)
  intro name e he
  rw [hs.cited name e he]

theorem unsettled_iff (hs : ScanSpec group toolCalls structured s) :
    (s.seen.values.any (fun e => e.failedIn ≠ [] ∧ .pass ∈ e.statuses) = true ∨
        s.seen.values.any (fun e => .timeout ∈ e.statuses) = true) ↔
      ∃ name, Unsettled group toolCalls structured name := by
  simp only [List.any_eq_true, decide_eq_true_eq]
  unfold Unsettled
  rw [exists_or]
  refine or_congr ?_ ?_
  · refine exists_seen_iff hs
      (q := fun ends => (∃ status ∈ failedStatuses, ends status) ∧ ends .pass) ?_ (by simp)
    intro name e he
    rw [hs.cited name e he]
  · exact exists_seen_iff hs (q := fun ends => ends .timeout) (fun _ _ _ => Iff.rfl) (by simp)

theorem passedAt_iff (hs : ScanSpec group toolCalls structured s) {name : String} :
    (s.seen.get? name).any (fun e => .pass ∈ e.statuses) = true ↔
      Ended group toolCalls structured name .pass := by
  rw [← hs.seen, statusesAt]
  cases s.seen.get? name with
  | none => simp
  | some e => simp

def GroupInBundle (group : String) (bundle : List BundleCase) : Prop :=
  ∃ c ∈ bundle, c.group = group

variable {bundle : List BundleCase}

theorem expected_eq_nil :
    (bundle.filter (fun c => c.group = group)).map BundleCase.name = [] ↔
      ¬ GroupInBundle group bundle := by
  simp [GroupInBundle, List.filter_eq_nil_iff]

theorem evaluatePredicate_present :
    (evaluatePredicate (.testGroupFailed group) bundle toolCalls structured).state = .present ↔
      GroupInBundle group bundle ∧ ((∃ name, Solid group toolCalls structured name) ∨
        NotCompiled group toolCalls structured ∧ ¬ CompiledSomewhere toolCalls structured) := by
  have hs := scanGroup_spec group structured toolCalls
  unfold evaluatePredicate
  dsimp only
  by_cases hg : GroupInBundle group bundle
  · rw [if_neg fun h => expected_eq_nil.1 h hg]
    unfold judgeGroup
    rw [← solid_ne_nil hs, ← hs.notCompiled, ← hs.compiled]
    split_ifs <;> simp_all [unmeasured]
  · rw [if_pos (expected_eq_nil.2 hg)]
    simp [hg]

theorem evaluatePredicate_absent :
    (evaluatePredicate (.testGroupFailed group) bundle toolCalls structured).state = .absent ↔
      GroupInBundle group bundle ∧ (¬ ∃ name, Solid group toolCalls structured name) ∧
        ¬ NotCompiled group toolCalls structured ∧
        (¬ ∃ name, Unsettled group toolCalls structured name) ∧
        ∀ c ∈ bundle, c.group = group → Ended group toolCalls structured c.name .pass := by
  have hs := scanGroup_spec group structured toolCalls
  unfold evaluatePredicate
  dsimp only
  by_cases hg : GroupInBundle group bundle
  · rw [if_neg fun h => expected_eq_nil.1 h hg]
    unfold judgeGroup
    have hall : ((bundle.filter (fun c => c.group = group)).map BundleCase.name).all
        (fun name => ((scanGroup group structured toolCalls).seen.get? name).any
          fun e => .pass ∈ e.statuses) = true ↔
        ∀ c ∈ bundle, c.group = group → Ended group toolCalls structured c.name .pass := by
      simp only [List.all_eq_true, List.mem_map, List.mem_filter, decide_eq_true_eq,
        passedAt_iff hs]
      constructor
      · intro h c hc hcg
        exact h c.name ⟨c, ⟨hc, hcg⟩, rfl⟩
      · rintro h _ ⟨c, ⟨hc, hcg⟩, rfl⟩
        exact h c hc hcg
    rw [← solid_ne_nil hs, ← hs.notCompiled, ← unsettled_iff hs, ← hall]
    split_ifs <;> simp_all [unmeasured]
  · rw [if_pos (expected_eq_nil.2 hg)]
    simp [hg]

end Verdict

/-! ## Results of cases that are not in the bundle -/

/-- The compile information of a call, and its results for cases of the bundle. -/
def onBundle (bundle : List BundleCase) (r : Option CompileInfo × List TestCaseResult) :
    Option CompileInfo × List TestCaseResult :=
  (r.1, r.2.filter fun c => (c.group, c.name) ∈ bundle.map BundleCase.key)

/-- Two records give every call the same results on the cases of the bundle.
They may differ in any way on the other cases. -/
def SameOnBundle (bundle : List BundleCase) (toolCalls : List ToolCall)
    (structured structured' : StructuredResults) : Prop :=
  ∀ t ∈ toolCalls, (t.runTestsResult structured).map (onBundle bundle) =
    (t.runTestsResult structured').map (onBundle bundle)

def InBundle (bundle : List BundleCase) (group name : String) : Prop :=
  ⟨name, group⟩ ∈ bundle

theorem mem_keys_iff {bundle : List BundleCase} {group name : String} :
    (some group, name) ∈ bundle.map BundleCase.key ↔ InBundle bundle group name := by
  unfold InBundle BundleCase.key
  rw [List.mem_map]
  constructor
  · rintro ⟨⟨n, g⟩, hc, h⟩
    simp only [Prod.mk.injEq, Option.some.injEq] at h
    obtain ⟨rfl, rfl⟩ := h
    exact hc
  · intro h
    exact ⟨_, h, rfl⟩

section Same

variable {bundle : List BundleCase} {toolCalls : List ToolCall}
  {structured structured' : StructuredResults} {group : String}

theorem SameOnBundle.symm (h : SameOnBundle bundle toolCalls structured structured') :
    SameOnBundle bundle toolCalls structured' structured :=
  fun t ht => (h t ht).symm

theorem SameOnBundle.runTestsResult (h : SameOnBundle bundle toolCalls structured structured')
    {t : ToolCall} (ht : t ∈ toolCalls) {compile : Option CompileInfo}
    {results : List TestCaseResult} (hr : t.runTestsResult structured = some (compile, results)) :
    ∃ results', t.runTestsResult structured' = some (compile, results') ∧
      ∀ r, (r.group, r.name) ∈ bundle.map BundleCase.key → (r ∈ results' ↔ r ∈ results) := by
  have hsame := h t ht
  rw [hr, Option.map_some, eq_comm, Option.map_eq_some_iff] at hsame
  obtain ⟨⟨compile', results'⟩, hr', heq⟩ := hsame
  unfold onBundle at heq
  simp only [Prod.mk.injEq] at heq
  obtain ⟨rfl, hfilter⟩ := heq
  refine ⟨results', hr', fun r hmem => ?_⟩
  have hiff : r ∈ results'.filter _ ↔ r ∈ results.filter _ := Iff.of_eq (congrArg (r ∈ ·) hfilter)
  rw [List.mem_filter, List.mem_filter, and_iff_left (decide_eq_true hmem),
    and_iff_left (decide_eq_true hmem)] at hiff
  exact hiff

private theorem SameOnBundle.ended_mp (h : SameOnBundle bundle toolCalls structured structured')
    {name : String} (hin : InBundle bundle group name) {status : CaseStatus}
    (he : Ended group toolCalls structured name status) :
    Ended group toolCalls structured' name status := by
  obtain ⟨t, ht, compile, results, hr, hf, r, hmem, hg, hn, hs⟩ := he
  obtain ⟨results', hr', hcases⟩ := h.runTestsResult ht hr
  refine ⟨t, ht, compile, results', hr', hf, r, (hcases r ?_).2 hmem, hg, hn, hs⟩
  rw [hg, hn]
  exact mem_keys_iff.2 hin

theorem SameOnBundle.ended (h : SameOnBundle bundle toolCalls structured structured')
    {name : String} (hin : InBundle bundle group name) :
    Ended group toolCalls structured name = Ended group toolCalls structured' name :=
  funext fun _ => propext ⟨h.ended_mp hin, h.symm.ended_mp hin⟩

theorem SameOnBundle.notCompiled (h : SameOnBundle bundle toolCalls structured structured') :
    NotCompiled group toolCalls structured ↔ NotCompiled group toolCalls structured' := by
  have half : ∀ {s s' : StructuredResults}, SameOnBundle bundle toolCalls s s' →
      NotCompiled group toolCalls s → NotCompiled group toolCalls s' := by
    rintro s s' h ⟨t, ht, compile, results, hr, hf⟩
    obtain ⟨results', hr', _⟩ := h.runTestsResult ht hr
    exact ⟨t, ht, compile, results', hr', hf⟩
  exact ⟨half h, half h.symm⟩

theorem SameOnBundle.compiledSomewhere
    (h : SameOnBundle bundle toolCalls structured structured') :
    CompiledSomewhere toolCalls structured ↔ CompiledSomewhere toolCalls structured' := by
  have half : ∀ {s s' : StructuredResults}, SameOnBundle bundle toolCalls s s' →
      CompiledSomewhere toolCalls s → CompiledSomewhere toolCalls s' := by
    rintro s s' h ⟨t, ht, compile, results, hr, hf⟩
    obtain ⟨results', hr', _⟩ := h.runTestsResult ht hr
    exact ⟨t, ht, compile, results', hr', hf⟩
  exact ⟨half h, half h.symm⟩

end Same

section Stale

variable (bundle : List BundleCase) (toolCalls : List ToolCall) (group : String)

/-- A case of the bundle failed and never passed. -/
def CurrentSolid (structured : StructuredResults) : Prop :=
  ∃ name, InBundle bundle group name ∧ Solid group toolCalls structured name

/-- A case that is not in the bundle failed and never passed. -/
def StaleSolid (structured : StructuredResults) : Prop :=
  ∃ name, ¬ InBundle bundle group name ∧ Solid group toolCalls structured name

def StaleUnsettled (structured : StructuredResults) : Prop :=
  ∃ name, ¬ InBundle bundle group name ∧ Unsettled group toolCalls structured name

/-- The cases of the bundle alone show the rule absent: the calls for them
compiled, and all of them passed every time. -/
def CurrentClean (structured : StructuredResults) : Prop :=
  ¬ NotCompiled group toolCalls structured ∧
    ∀ name, InBundle bundle group name →
      Ended group toolCalls structured name .pass ∧ ¬ Unsettled group toolCalls structured name

/-- The results of cases that are not in the bundle decide nothing between the
two records: the machine does not check the rule, or its group has left the
bundle, or a case of the bundle fails for good, or as for the other cases: they
fail for good in both records or in neither, and, where the cases of the bundle
alone would clear the rule, they are unsettled in both or in neither. -/
def StaleHarmless (p : RulePredicate) (structured structured' : StructuredResults) : Prop :=
  match p with
  | .testGroupFailed group =>
    ¬ GroupInBundle group bundle ∨ CurrentSolid bundle toolCalls group structured ∨
      (StaleSolid bundle toolCalls group structured ↔
          StaleSolid bundle toolCalls group structured') ∧
        (StaleSolid bundle toolCalls group structured ∨
          ¬ CurrentClean bundle toolCalls group structured ∨
          (StaleUnsettled bundle toolCalls group structured ↔
            StaleUnsettled bundle toolCalls group structured'))
  | _ => True

end Stale

section Judgement

variable {bundle : List BundleCase} {toolCalls : List ToolCall} {group : String}
  {structured structured' : StructuredResults}

theorem exists_solid_iff (bundle : List BundleCase) :
    (∃ name, Solid group toolCalls structured name) ↔
      CurrentSolid bundle toolCalls group structured ∨
        StaleSolid bundle toolCalls group structured := by
  unfold CurrentSolid StaleSolid
  rw [← exists_or]
  refine exists_congr fun name => ?_
  rw [← or_and_right]
  exact (and_iff_right (Classical.em _)).symm

theorem absent_iff (hg : GroupInBundle group bundle)
    (hcur : ¬ CurrentSolid bundle toolCalls group structured) :
    (evaluatePredicate (.testGroupFailed group) bundle toolCalls structured).state = .absent ↔
      CurrentClean bundle toolCalls group structured ∧
        ¬ StaleSolid bundle toolCalls group structured ∧
        ¬ StaleUnsettled bundle toolCalls group structured := by
  rw [evaluatePredicate_absent, exists_solid_iff bundle]
  unfold CurrentClean StaleUnsettled
  constructor
  · rintro ⟨_, hsolid, hcomp, huns, hpass⟩
    refine ⟨⟨hcomp, fun name hin => ⟨hpass _ hin rfl, fun h => huns ⟨name, h⟩⟩⟩,
      fun h => hsolid (Or.inr h), ?_⟩
    rintro ⟨name, _, h⟩
    exact huns ⟨name, h⟩
  · rintro ⟨⟨hcomp, hclean⟩, hstale, huns⟩
    refine ⟨hg, not_or.2 ⟨hcur, hstale⟩, hcomp, ?_, ?_⟩
    · rintro ⟨name, h⟩
      by_cases hin : InBundle bundle group name
      · exact (hclean name hin).2 h
      · exact huns ⟨name, hin, h⟩
    · rintro ⟨name, g⟩ hc rfl
      exact (hclean name hc).1

theorem StaleSolid.compiledSomewhere (h : StaleSolid bundle toolCalls group structured) :
    CompiledSomewhere toolCalls structured := by
  obtain ⟨name, _, ⟨status, _, t, ht, compile, results, hr, hf, _⟩, _⟩ := h
  exact ⟨t, ht, compile, results, hr, hf⟩

theorem SameOnBundle.currentSolid (h : SameOnBundle bundle toolCalls structured structured') :
    CurrentSolid bundle toolCalls group structured ↔
      CurrentSolid bundle toolCalls group structured' := by
  unfold CurrentSolid Solid EndedBadly
  refine exists_congr fun name => and_congr_right fun hin => ?_
  rw [h.ended hin]

theorem SameOnBundle.currentClean (h : SameOnBundle bundle toolCalls structured structured') :
    CurrentClean bundle toolCalls group structured ↔
      CurrentClean bundle toolCalls group structured' := by
  unfold CurrentClean Unsettled EndedBadly
  refine and_congr (not_congr h.notCompiled) (forall₂_congr fun name hin => ?_)
  rw [h.ended hin]

theorem state_eq_iff {a b : PredicateState} :
    a = b ↔ (a = .present ↔ b = .present) ∧ (a = .absent ↔ b = .absent) := by
  cases a <;> cases b <;> simp

theorem testGroupFailed_state_eq_iff
    (h : SameOnBundle bundle toolCalls structured structured') :
    (evaluatePredicate (.testGroupFailed group) bundle toolCalls structured).state =
        (evaluatePredicate (.testGroupFailed group) bundle toolCalls structured').state ↔
      StaleHarmless bundle toolCalls (.testGroupFailed group) structured structured' := by
  rw [state_eq_iff]
  unfold StaleHarmless
  dsimp only
  by_cases hg : GroupInBundle group bundle
  · by_cases hcur : CurrentSolid bundle toolCalls group structured
    · have hcur' := h.currentSolid.1 hcur
      refine iff_of_true ⟨?_, ?_⟩ (Or.inr (Or.inl hcur))
      · rw [evaluatePredicate_present, evaluatePredicate_present]
        exact iff_of_true ⟨hg, Or.inl ((exists_solid_iff bundle).2 (Or.inl hcur))⟩
          ⟨hg, Or.inl ((exists_solid_iff bundle).2 (Or.inl hcur'))⟩
      · rw [evaluatePredicate_absent, evaluatePredicate_absent]
        exact iff_of_false (fun ha => ha.2.1 ((exists_solid_iff bundle).2 (Or.inl hcur)))
          fun ha => ha.2.1 ((exists_solid_iff bundle).2 (Or.inl hcur'))
    · have hcur' : ¬ CurrentSolid bundle toolCalls group structured' := h.currentSolid.not.1 hcur
      rw [absent_iff hg hcur, absent_iff hg hcur', ← h.currentClean, evaluatePredicate_present,
        evaluatePredicate_present, exists_solid_iff bundle,
        exists_solid_iff bundle, ← h.notCompiled, ← h.compiledSomewhere]
      by_cases hs : StaleSolid bundle toolCalls group structured
      · have hc := hs.compiledSomewhere
        by_cases hs' : StaleSolid bundle toolCalls group structured'
        · simp [hg, hs, hs']
        · simp [hg, hcur, hcur', hs, hs', hc]
      · by_cases hs' : StaleSolid bundle toolCalls group structured'
        · have hc := h.compiledSomewhere.2 hs'.compiledSomewhere
          simp [hg, hcur, hs, hs', hc]
        · by_cases hclean : CurrentClean bundle toolCalls group structured
          · simp [hg, hcur, hcur', hs, hs', hclean, not_iff_not]
          · simp [hg, hcur, hcur', hs, hs', hclean]
  · refine iff_of_true ⟨?_, ?_⟩ (Or.inl hg)
    · rw [evaluatePredicate_present, evaluatePredicate_present]
      exact iff_of_false (fun hp => hg hp.1) fun hp => hg hp.1
    · rw [evaluatePredicate_absent, evaluatePredicate_absent]
      exact iff_of_false (fun hp => hg hp.1) fun hp => hg hp.1

end Judgement

/-! ## The score -/

/-- The error without the calls it cites. -/
def DiagnosedError.uncited (e : DiagnosedError) : DiagnosedError :=
  { e with toolCallIds := [] }

namespace DecisionInput

variable {K : Type}

def withResults (input : DecisionInput K) (structured' : StructuredResults) : DecisionInput K :=
  { input with
    result :=
      { input.result with
        investigation := { input.result.investigation with structuredResults := structured' } } }

variable {input : DecisionInput K} {structured' : StructuredResults}

theorem machineErrors_uncited
    (h : ∀ r ∈ input.rules, ∀ p, r.predicate = some p →
      (evaluatePredicate p input.bundle input.toolCalls input.structured).state =
        (evaluatePredicate p input.bundle input.toolCalls structured').state) :
    (machineErrors input.rules input.bundle
        (input.withResults structured').result.investigation).map DiagnosedError.uncited =
      (machineErrors input.rules input.bundle input.result.investigation).map
        DiagnosedError.uncited := by
  unfold machineErrors
  rw [List.map_filterMap, List.map_filterMap]
  refine List.filterMap_congr fun r hr => ?_
  unfold machineError
  cases hp : r.predicate with
  | none => rfl
  | some p =>
    have hstate := h r hr p hp
    unfold toolCalls structured at hstate
    dsimp only [withResults]
    rw [← hstate]
    split_ifs with hm
    · rfl
    · rfl

theorem errors_uncited
    (h : ∀ r ∈ input.rules, ∀ p, r.predicate = some p →
      (evaluatePredicate p input.bundle input.toolCalls input.structured).state =
        (evaluatePredicate p input.bundle input.toolCalls structured').state) :
    (input.withResults structured').errors.map DiagnosedError.uncited =
      input.errors.map DiagnosedError.uncited := by
  have hmachine := machineErrors_uncited h
  have hkeys := congrArg (List.map DiagnosedError.ruleKey) hmachine
  rw [List.map_map, List.map_map] at hkeys
  unfold errors diagnosis
  by_cases hk : input.result.kind = .verdict
  · have hk' : (input.withResults structured').result.kind = .verdict := hk
    rw [diagnose_errors hk, diagnose_errors hk', List.map_append, List.map_append]
    refine congrArg₂ _ hmachine (congrArg _ ?_)
    exact congrArg (fun seen => (proposalLoop (rulesByKey input.rules) input.toolCalls
      ((input.result.verdict.map Verdict.errors).getD []) seen).1) hkeys
  · have hk' : (input.withResults structured').result.kind ≠ .verdict := hk
    rw [diagnose_of_not_verdict hk, diagnose_of_not_verdict hk']

theorem keys_uncited {es es' : List DiagnosedError}
    (h : es.map DiagnosedError.uncited = es'.map DiagnosedError.uncited)
    (p : DiagnosedError → Bool) (hp : ∀ e, p e.uncited = p e) :
    (es.filter p).map DiagnosedError.ruleKey = (es'.filter p).map DiagnosedError.ruleKey := by
  have hread : ∀ l : List DiagnosedError, (l.filter p).map DiagnosedError.ruleKey =
      ((l.map DiagnosedError.uncited).filter p).map DiagnosedError.ruleKey := by
    intro l
    have hcomp : p ∘ DiagnosedError.uncited = p := funext hp
    rw [List.filter_map, List.map_map, hcomp]
    rfl
  rw [hread, h, ← hread]

theorem score_withResults
    (h : ∀ r ∈ input.rules, ∀ p, r.predicate = some p →
      (evaluatePredicate p input.bundle input.toolCalls input.structured).state =
        (evaluatePredicate p input.bundle input.toolCalls structured').state) :
    (input.withResults structured').score = input.score := by
  have herrors := errors_uncited h
  have hrefuted : (input.withResults structured').refutedKeys = input.refutedKeys := by
    unfold refutedKeys challengedKeys
    rw [show (input.withResults structured').challenge = input.challenge from rfl]
    cases input.challenge with
    | none => rfl
    | some challenge => exact congrArg List.eraseDups (keys_uncited herrors _ fun _ => rfl)
  have hkeys : (input.withResults structured').scoredKeys = input.scoredKeys := by
    unfold scoredKeys
    rw [hrefuted]
    exact keys_uncited herrors _ fun _ => rfl
  show computeDeductionScore input.rubric (input.rules.map ErrorRule.toScoringRule) _ = _
  rw [hkeys]
  rfl

/-- **A rule and the test bundle.**  Two records that agree on the cases of the
bundle give a rule the same state exactly when the results of the other cases
are harmless; and where they are harmless for every rule of the paper, they
leave its score alone. -/
theorem judged_by_bundle_iff (input : DecisionInput K) (structured' : StructuredResults)
    (h : SameOnBundle input.bundle input.toolCalls input.structured structured') :
    (∀ p, (evaluatePredicate p input.bundle input.toolCalls input.structured).state =
          (evaluatePredicate p input.bundle input.toolCalls structured').state ↔
        StaleHarmless input.bundle input.toolCalls p input.structured structured') ∧
      ((∀ r ∈ input.rules, ∀ p, r.predicate = some p →
          StaleHarmless input.bundle input.toolCalls p input.structured structured') →
        (input.withResults structured').score = input.score) := by
  have hstate : ∀ p, (evaluatePredicate p input.bundle input.toolCalls input.structured).state =
        (evaluatePredicate p input.bundle input.toolCalls structured').state ↔
      StaleHarmless input.bundle input.toolCalls p input.structured structured' := by
    intro p
    cases p with
    | testGroupFailed group => exact testGroupFailed_state_eq_iff h
    | callsFunction name => exact iff_of_true rfl trivial
    | complexityExceedsRequired => exact iff_of_true rfl trivial
    | noRecursion functionName => exact iff_of_true rfl trivial
  refine ⟨hstate, fun hall => score_withResults fun r hr p hp => ?_⟩
  exact (hstate p).2 (hall r hr p hp)

end DecisionInput

/-! ## A case that was dropped -/

/-- The clean paper after the teacher dropped the case `c2`, which the paper had
failed, from the bundle. -/
def droppedCasePaper : DecisionInput ℚ :=
  { cleanPaper with
    result := { cleanPaper.result with
      investigation := { cleanPaper.result.investigation with
        structuredResults :=
          [("tc-1", .runTests none [⟨"c1", some "basic", .pass⟩, ⟨"c2", some "basic", .fail⟩])] } }
    rules := [⟨"tests", "correctness", some 40, some (.testGroupFailed "basic")⟩] }

/-- The results of the dropped paper where the dropped case ended as `status`. -/
def droppedEndedAs (status : CaseStatus) : StructuredResults :=
  [("tc-1", .runTests none [⟨"c1", some "basic", .pass⟩, ⟨"c2", some "basic", status⟩])]

theorem sameOnBundle_droppedEndedAs (status : CaseStatus) :
    SameOnBundle droppedCasePaper.bundle droppedCasePaper.toolCalls droppedCasePaper.structured
      (droppedEndedAs status) := by
  unfold SameOnBundle
  cases status <;> decide

/-- A crash of the dropped case in place of its failure changes nothing. -/
theorem judged_by_bundle_crashed :
    StaleHarmless droppedCasePaper.bundle droppedCasePaper.toolCalls (.testGroupFailed "basic")
        droppedCasePaper.structured (droppedEndedAs .runtimeCrash) ∧
      (droppedCasePaper.withResults (droppedEndedAs .runtimeCrash)).score =
        droppedCasePaper.score := by
  obtain ⟨hstate, hscore⟩ := DecisionInput.judged_by_bundle_iff droppedCasePaper
    (droppedEndedAs .runtimeCrash) (sameOnBundle_droppedEndedAs .runtimeCrash)
  have hharmless := (hstate (.testGroupFailed "basic")).1 (by decide)
  refine ⟨hharmless, hscore fun r hr p hp => ?_⟩
  obtain rfl : r = ⟨"tests", "correctness", some 40, some (.testGroupFailed "basic")⟩ :=
    List.mem_singleton.1 hr
  obtain rfl : RulePredicate.testGroupFailed "basic" = p := Option.some.inj hp
  exact hharmless

/-- The dropped case still decides the rule: where it had passed, the rule
would be absent, and the paper would keep the points. -/
theorem judged_by_dropped_case :
    SameOnBundle droppedCasePaper.bundle droppedCasePaper.toolCalls droppedCasePaper.structured
        (droppedEndedAs .pass) ∧
      (evaluatePredicate (.testGroupFailed "basic") droppedCasePaper.bundle
        droppedCasePaper.toolCalls droppedCasePaper.structured).state = .present ∧
      (evaluatePredicate (.testGroupFailed "basic") droppedCasePaper.bundle
        droppedCasePaper.toolCalls (droppedEndedAs .pass)).state = .absent ∧
      (droppedCasePaper.score.toOption.map DeductionScore.scoreHundredths) = some 60 ∧
      ((droppedCasePaper.withResults (droppedEndedAs .pass)).score.toOption.map
        DeductionScore.scoreHundredths) = some 100 :=
  ⟨sameOnBundle_droppedEndedAs .pass, by decide, by decide, by decide,
    by decide⟩

end Cine.Grading
