import Cine.Grading.Scoring.ExactDeduction

/-!
# The exceptions of the teacher

`computeScore` decides on all rules first and applies the exceptions of the
teacher to the decision.  An exception has the last word on an error that the
diagnosis has: the challenge, the prices and the other errors do not enter.

* `ErrorOf` relates an error of the breakdown to the used rule that it is the
  error of, and `countedOf_cases` is the precedence for one rule.
* The flags.  `mem_errorFlags` says which flags of the decision are left, and
  `unpriced_flag` that every error without a price in the score has one.
* The score.  `chargesOf_priced` leaves the unpriced keys out of the charges,
  so two computations that count the same errors have the same score, whatever
  the exceptions were.

Both kinds of exception are about an error that was found: the service takes no
exception for a rule without an error in the newest computation, and here an
included rule without an error changes nothing.
-/

namespace Cine.Grading

open Cine.Lib

variable {K : Type}

/-! ## One error -/

section OneError

variable {input : ScoreCoreInput K} {decision : Decision K}

/-- The keys of the errors that are counted with their price. -/
def countedKeys (errors : List BreakdownError) : List String :=
  (errors.filter (fun e => e.counted = .counted)).map BreakdownError.ruleKey

theorem countedOf_cases (r : RuleSnapshot) :
    input.countedOf decision r =
      if r.ruleKey ∈ input.excludedKeys then .excluded
      else if r.ruleKey ∈ ScoreCoreInput.decidedRefuted decision ∧
          r.ruleKey ∉ input.includedKeys then .refuted
      else if r.deductionHundredths = none then .unpriced
      else .counted := by
  unfold ScoreCoreInput.countedOf ScoreCoreInput.refutedKeys
  simp only [List.mem_filter, decide_eq_true_eq]
  by_cases hexc : r.ruleKey ∈ input.excludedKeys
  · simp [hexc]
  · simp [hexc]

theorem eq_of_used_key (hkeys : (input.rules.map RuleSnapshot.ruleKey).Nodup)
    {r r' : RuleSnapshot} (hr : r ∈ input.rules) (hr' : r' ∈ input.used)
    (hk : r'.ruleKey = r.ruleKey) : r' = r :=
  List.inj_on_of_nodup_map hkeys ((used_sublist input).subset hr') hr hk

theorem exists_rule_of_mem_errorsOf (hkeys : (input.rules.map RuleSnapshot.ruleKey).Nodup)
    (herrors : decision.errors = input.decisionInput.errors) {e : BreakdownError}
    (he : e ∈ errorsOf input decision) :
    ∃ r ∈ input.used, e.ruleKey = r.ruleKey ∧ e.deductionHundredths = r.deductionHundredths ∧
      e.counted = input.countedOf decision r ∧
      ∃ d ∈ input.decisionInput.errors, d.ruleKey = r.ruleKey := by
  obtain ⟨d, hd, rfl⟩ := List.mem_map.1 he
  rw [herrors] at hd
  obtain ⟨r, hr, hk, _⟩ := exists_used_of_error hd
  refine ⟨r, hr, ?_⟩
  dsimp only
  rw [← hk, ruleOf_of_used hkeys hr]
  exact ⟨rfl, rfl, rfl, d, hd, hk.symm⟩

end OneError

/-! ## The run of a computation -/

section Run

variable [Number K] {input : ScoreCoreInput K}

theorem computeScore_split (hkeys : (input.rules.map RuleSnapshot.ruleKey).Nodup)
    {out : ScoreCoreOutput K} (h : input.computeScore = .ok out) :
    (∃ f, input.decisionInput.floor = some f ∧ out.scoreHundredths = none ∧
        out.breakdown.errors = [] ∧ out.breakdown.errorFlags = []) ∨
      ∃ s score, input.decisionInput.floor = none ∧ input.decisionInput.score = .ok s ∧
        let decision := input.decisionInput.decisionOf s
        computeDeductionScore input.rubric (input.used.map RuleSnapshot.toScoringRule)
            (scoredKeysOf (errorsOf input decision)) = .ok score ∧
          out.scoreHundredths = some score.scoreHundredths ∧
          out.breakdown.errors = errorsOf input decision ∧
          out.breakdown.errorFlags = input.errorFlags decision := by
  obtain ⟨d, hd⟩ := exists_decide hkeys
  rcases decide_cases hd with ⟨f, hf, rfl⟩ | ⟨s, hf, hs, rfl⟩
  · rw [computeScore_of_floor hf, Except.ok.injEq] at h
    subst h
    exact Or.inl ⟨f, hf, rfl, rfl, rfl⟩
  · obtain ⟨score, hscore, hcompute⟩ := computeScore_of_score hkeys hf hs
    rw [hcompute, Except.ok.injEq] at h
    subst h
    exact Or.inr ⟨s, score, hf, hs, hscore, rfl, rfl, rfl⟩

omit [Number K] in
theorem mem_errorFlags {decision : Decision K} {f : ErrorFlag}
    (hf : f ∈ input.errorFlags decision) :
    f ∈ decision.errorFlags ∧ f.ruleKey ∉ input.excludedKeys ∧
        ¬ (f.code = .refuted ∧ f.ruleKey ∈ input.includedKeys) ∨
      f.code = .unpriced ∧ f.ruleKey ∈ input.includedKeys := by
  unfold ScoreCoreInput.errorFlags at hf
  rcases List.mem_append.1 hf with hf | hf
  · rw [List.mem_filter, decide_eq_true_eq] at hf
    exact Or.inl hf
  · obtain ⟨key, hkey, rfl⟩ := List.mem_map.1 hf
    rw [List.mem_filter, decide_eq_true_eq] at hkey
    exact Or.inr ⟨rfl, hkey.2.1⟩

variable {s : DeductionScore}

theorem flagged_used (hkeys : (input.rules.map RuleSnapshot.ruleKey).Nodup)
    (hs : input.decisionInput.score = .ok s) {f : ErrorFlag}
    (hf : f ∈ (input.decisionInput.decisionOf s).errorFlags) :
    ∃ r ∈ input.used, r.ruleKey = f.ruleKey := by
  obtain ⟨d, hd, hk, _⟩ :=
    violated_of_mem_errorFlagsOf (decisionInput_keys_nodup hkeys) hs hf
  obtain ⟨r, hr, hkr, _⟩ := exists_used_of_error hd
  exact ⟨r, hr, hkr.trans hk⟩

theorem unpriced_flag (hkeys : (input.rules.map RuleSnapshot.ruleKey).Nodup)
    (hs : input.decisionInput.score = .ok s) {e : BreakdownError}
    (he : e ∈ errorsOf input (input.decisionInput.decisionOf s)) (hscored : e.isScored = true)
    (hprice : e.deductionHundredths = none) :
    ⟨e.ruleKey, .unpriced⟩ ∈ input.errorFlags (input.decisionInput.decisionOf s) := by
  obtain ⟨r, hr, hk, hd, hc, d, hdm, hdk⟩ := exists_rule_of_mem_errorsOf hkeys rfl he
  rw [hd] at hprice
  unfold BreakdownError.isScored at hscored
  rw [hc, countedOf_cases, decide_eq_true_eq] at hscored
  have hexc : r.ruleKey ∉ input.excludedKeys := by
    intro hexc
    rw [if_pos hexc] at hscored
    exact hscored.1 rfl
  rw [if_neg hexc] at hscored
  unfold ScoreCoreInput.errorFlags
  rw [hk, List.mem_append]
  by_cases href : r.ruleKey ∈ ScoreCoreInput.decidedRefuted (input.decisionInput.decisionOf s)
  · -- a refuted error enters the score only where the teacher included it
    have hinc : r.ruleKey ∈ input.includedKeys := by
      by_contra hinc
      rw [if_pos ⟨href, hinc⟩] at hscored
      exact hscored.2 rfl
    refine Or.inr (List.mem_map.2 ⟨r.ruleKey, List.mem_filter.2 ⟨href, ?_⟩, rfl⟩)
    rw [byKey_get? hkeys hr]
    simp [hinc, hprice]
  · refine Or.inl (List.mem_filter.2 ⟨?_, by simp [hexc]⟩)
    rw [decidedRefuted_decisionOf] at href
    refine List.mem_append_left _ (List.mem_append_left _ (List.mem_map.2 ⟨r.ruleKey, ?_, rfl⟩))
    rw [mem_unpriced (decisionInput_keys_nodup hkeys) hs]
    refine ⟨d, hdm, hdk, fun hrefuted => href ?_, ?_⟩
    · exact mem_refutedKeys.2 ⟨d, hdm, hdk, hrefuted⟩
    · obtain ⟨r', hr', hkr', _, hprice'⟩ := mem_diagnose_errors hdm
      obtain ⟨r'', hr'', rfl⟩ := List.mem_map.1 hr'
      obtain rfl : r'' = r :=
        eq_of_used_key hkeys ((used_sublist input).subset hr) hr'' (hkr'.trans hdk)
      exact hprice'.symm.trans hprice

theorem excluded_out (hkeys : (input.rules.map RuleSnapshot.ruleKey).Nodup)
    (hs : input.decisionInput.score = .ok s) {r : RuleSnapshot} (hr : r ∈ input.rules)
    (hx : input.exceptions.get? r.ruleId = some .exclude) :
    (∀ e ∈ errorsOf input (input.decisionInput.decisionOf s), e.ruleKey = r.ruleKey →
        e.counted = .excluded) ∧
      r.ruleKey ∉ scoredKeysOf (errorsOf input (input.decisionInput.decisionOf s)) ∧
      ∀ f ∈ input.errorFlags (input.decisionInput.decisionOf s), f.ruleKey ≠ r.ruleKey := by
  have hcounted : ∀ e ∈ errorsOf input (input.decisionInput.decisionOf s), e.ruleKey = r.ruleKey →
      e.counted = .excluded := by
    intro e he hk
    obtain ⟨r', hr', hkr, _, hc, _⟩ := exists_rule_of_mem_errorsOf hkeys rfl he
    obtain rfl := eq_of_used_key hkeys hr hr' (hkr.symm.trans hk)
    have hexc : r'.ruleKey ∈ input.excludedKeys := (mem_exceptedKeys hkeys hr' _).2 hx
    rw [hc, countedOf_cases, if_pos hexc]
  refine ⟨hcounted, ?_, ?_⟩
  · intro hmem
    obtain ⟨e, he, hk⟩ := List.mem_map.1 hmem
    obtain ⟨he, hscored⟩ := List.mem_filter.1 he
    unfold BreakdownError.isScored at hscored
    rw [hcounted e he hk] at hscored
    simp at hscored
  · intro f hf hk
    rcases mem_errorFlags hf with ⟨hf, hexc, _⟩ | ⟨_, hinc⟩
    · obtain ⟨r', hr', hkr⟩ := flagged_used hkeys hs hf
      obtain rfl := eq_of_used_key hkeys hr hr' (hkr.trans hk)
      rw [hk] at hexc
      exact hexc ((mem_exceptedKeys hkeys hr' _).2 hx)
    · obtain ⟨r', hr', hkr⟩ := List.mem_map.1 hinc
      obtain ⟨hr', hx'⟩ := List.mem_filter.1 hr'
      obtain rfl := eq_of_used_key hkeys hr hr' (hkr.trans hk)
      rw [decide_eq_true_eq, hx] at hx'
      cases hx'

theorem included_in (hkeys : (input.rules.map RuleSnapshot.ruleKey).Nodup)
    (hs : input.decisionInput.score = .ok s) {r : RuleSnapshot} (hr : r ∈ input.rules)
    (hx : input.exceptions.get? r.ruleId = some .include) {score : Option Int} :
    (score ≠ none → r.ruleKey ∈ input.decisionInput.errors.map DiagnosedError.ruleKey →
        r.ruleKey ∈ (errorsOf input (input.decisionInput.decisionOf s)).map
          BreakdownError.ruleKey) ∧
      (∀ e ∈ errorsOf input (input.decisionInput.decisionOf s), e.ruleKey = r.ruleKey →
        e.counted = if r.deductionHundredths = none then .unpriced else .counted) ∧
      ∀ f ∈ input.errorFlags (input.decisionInput.decisionOf s), f.ruleKey = r.ruleKey →
        f.code ≠ .refuted := by
  refine ⟨fun _ hmem => ?_, ?_, ?_⟩
  · rw [errorsOf_keys hkeys _ rfl]
    exact hmem
  · intro e he hk
    obtain ⟨r', hr', hkr, _, hc, _⟩ := exists_rule_of_mem_errorsOf hkeys rfl he
    obtain rfl := eq_of_used_key hkeys hr hr' (hkr.symm.trans hk)
    have hinc : r'.ruleKey ∈ input.includedKeys := (mem_exceptedKeys hkeys hr' _).2 hx
    have hexc : r'.ruleKey ∉ input.excludedKeys := by
      intro hexc
      rw [ScoreCoreInput.excludedKeys, mem_exceptedKeys hkeys hr', hx] at hexc
      cases hexc
    rw [hc, countedOf_cases, if_neg hexc, if_neg fun h => h.2 hinc]
  · intro f hf hk hcode
    rcases mem_errorFlags hf with ⟨hf, _, hrefuted⟩ | ⟨hunpriced, _⟩
    · obtain ⟨r', hr', hkr⟩ := flagged_used hkeys hs hf
      obtain rfl := eq_of_used_key hkeys hr hr' (hkr.trans hk)
      refine hrefuted ⟨hcode, ?_⟩
      rw [hk]
      exact (mem_exceptedKeys hkeys hr' _).2 hx
    · rw [hunpriced] at hcode
      cases hcode

end Run

/-! ## The score and the errors that are counted -/

section Counted

variable {rules : List ScoringRule}

theorem sum_map_filter_of_zero {α : Type} {f : α → Int} {p : α → Bool} {l : List α}
    (h : ∀ a ∈ l, p a = false → f a = 0) : ((l.filter p).map f).sum = (l.map f).sum := by
  induction l with
  | nil => rfl
  | cons a l ih =>
    have hl := ih fun b hb => h b (List.mem_cons_of_mem a hb)
    by_cases hp : p a = true
    · rw [List.filter_cons_of_pos hp, List.map_cons, List.map_cons, List.sum_cons, List.sum_cons, hl]
    · rw [List.filter_cons_of_neg hp, List.map_cons, List.sum_cons, hl,
        h a List.mem_cons_self (Bool.eq_false_iff.2 hp), zero_add]

theorem chargesOf_priced (keys : List String) (criterionKey : String) :
    chargesOf rules (keys.filter fun k => !Unpriced (scoringTable rules) k) criterionKey =
      chargesOf rules keys criterionKey := by
  have hperm : (keys.filter fun k => !Unpriced (scoringTable rules) k).eraseDups.Perm
      (keys.eraseDups.filter fun k => !Unpriced (scoringTable rules) k) := by
    rw [List.perm_ext_iff_of_nodup (nodup_eraseDups _) ((nodup_eraseDups _).filter _)]
    intro k
    rw [List.mem_eraseDups, List.mem_filter, List.mem_filter, List.mem_eraseDups]
  unfold chargesOf
  rw [(hperm.map _).sum_eq]
  refine sum_map_filter_of_zero fun k _ hk => chargeOf_of_unpriced ?_ criterionKey
  simpa using hk

variable {input : ScoreCoreInput K} {decision : Decision K}

theorem mem_countedKeys (hkeys : (input.rules.map RuleSnapshot.ruleKey).Nodup)
    (herrors : decision.errors = input.decisionInput.errors) {k : String} :
    k ∈ countedKeys (errorsOf input decision) ↔
      k ∈ (scoredKeysOf (errorsOf input decision)).filter fun k =>
        !Unpriced (scoringTable (input.used.map RuleSnapshot.toScoringRule)) k := by
  have hone : ∀ e ∈ errorsOf input decision, e.counted = .counted ↔ e.isScored = true ∧
      Unpriced (scoringTable (input.used.map RuleSnapshot.toScoringRule)) e.ruleKey = false := by
    intro e he
    obtain ⟨r, hr, hk, _, hc, _⟩ := exists_rule_of_mem_errorsOf hkeys herrors he
    unfold BreakdownError.isScored Unpriced
    rw [hk, scoringTable_of_used hkeys hr, hc, countedOf_cases]
    cases hd : r.deductionHundredths with
    | none => split_ifs <;> simp_all [RuleSnapshot.toScoringRule]
    | some d => split_ifs <;> simp_all [RuleSnapshot.toScoringRule]
  unfold countedKeys scoredKeysOf
  simp only [List.mem_map, List.mem_filter, decide_eq_true_eq, Bool.not_eq_true']
  constructor
  · rintro ⟨e, ⟨he, hc⟩, rfl⟩
    exact ⟨⟨e, ⟨he, ((hone e he).1 hc).1⟩, rfl⟩, ((hone e he).1 hc).2⟩
  · rintro ⟨⟨e, ⟨he, hs⟩, rfl⟩, hp⟩
    exact ⟨e, ⟨he, (hone e he).2 ⟨hs, hp⟩⟩, rfl⟩

/-- The same paper with other exceptions. -/
def ScoreCoreInput.withExceptions (input : ScoreCoreInput K)
    (exceptions : OrderedMap String ErrorException) : ScoreCoreInput K :=
  { input with exceptions := exceptions }

theorem score_of_counted [Number K] (hkeys : (input.rules.map RuleSnapshot.ruleKey).Nodup)
    {exceptions : OrderedMap String ErrorException} {out out' : ScoreCoreOutput K}
    (h : input.computeScore = .ok out)
    (h' : (input.withExceptions exceptions).computeScore = .ok out')
    (hcounted : ∀ k, k ∈ countedKeys out.breakdown.errors ↔
      k ∈ countedKeys out'.breakdown.errors) :
    out'.scoreHundredths = out.scoreHundredths := by
  have hkeys' : ((input.withExceptions exceptions).rules.map RuleSnapshot.ruleKey).Nodup := hkeys
  rcases computeScore_split hkeys h with ⟨f, hf, hnone, _⟩ | ⟨s, score, hf, _, hscore, hout, herrors, _⟩
  · rcases computeScore_split hkeys' h' with ⟨_, _, hnone', _⟩ | ⟨_, _, hf', _⟩
    · rw [hnone, hnone']
    · exact absurd (hf.symm.trans hf') (by simp)
  · rcases computeScore_split hkeys' h' with
      ⟨f, hf', _⟩ | ⟨s', score', _, _, hscore', hout', herrors', _⟩
    · exact absurd (hf.symm.trans hf') (by simp)
    · -- both scores are charged for the same keys with a price
      have hsame : ∀ c, chargesOf (input.used.map RuleSnapshot.toScoringRule)
          (scoredKeysOf (errorsOf (input.withExceptions exceptions)
            ((input.withExceptions exceptions).decisionInput.decisionOf s'))) c =
          chargesOf (input.used.map RuleSnapshot.toScoringRule)
            (scoredKeysOf (errorsOf input (input.decisionInput.decisionOf s))) c := by
        intro c
        rw [← chargesOf_priced, ← chargesOf_priced (scoredKeysOf (errorsOf input _))]
        refine chargesOf_congr (fun k => ?_) c
        rw [herrors, herrors'] at hcounted
        exact (mem_countedKeys hkeys' rfl).symm.trans
          ((hcounted k).symm.trans (mem_countedKeys hkeys rfl))
      have htotal := clamp_idle hscore
      have htotal' : score'.scoreHundredths = _ := clamp_idle hscore'
      rw [hout, hout', htotal, htotal']
      show some (_ - (input.rubric.map fun c => min (chargesOf
        (input.used.map RuleSnapshot.toScoringRule) _ c.key) c.maxHundredths).sum) = _
      simp only [hsame]
      rfl

end Counted

/-! ## The last word -/

/-- The exceptions of the teacher have the last word on the errors that were
found.  An excluded error leaves the score and every flag; an included one
enters the score, as counted or as unpriced, and loses its refuted flag; an
error in the score without a price is flagged; and the score reads the
exceptions through the errors that are counted. -/
theorem exceptions_have_last_word [Number K] (input : ScoreCoreInput K) (out : ScoreCoreOutput K)
    (hkeys : (input.rules.map RuleSnapshot.ruleKey).Nodup) (h : input.computeScore = .ok out) :
    (∀ r ∈ input.rules, input.exceptions.get? r.ruleId = some .exclude →
        (∀ e ∈ out.breakdown.errors, e.ruleKey = r.ruleKey → e.counted = .excluded) ∧
          r.ruleKey ∉ scoredKeysOf out.breakdown.errors ∧
          ∀ f ∈ out.breakdown.errorFlags, f.ruleKey ≠ r.ruleKey) ∧
      (∀ r ∈ input.rules, input.exceptions.get? r.ruleId = some .include →
        (out.scoreHundredths ≠ none →
            r.ruleKey ∈ input.decisionInput.errors.map DiagnosedError.ruleKey →
            r.ruleKey ∈ out.breakdown.errors.map BreakdownError.ruleKey) ∧
          (∀ e ∈ out.breakdown.errors, e.ruleKey = r.ruleKey →
            e.counted = if r.deductionHundredths = none then .unpriced else .counted) ∧
          ∀ f ∈ out.breakdown.errorFlags, f.ruleKey = r.ruleKey → f.code ≠ .refuted) ∧
      (∀ e ∈ out.breakdown.errors, e.isScored = true → e.deductionHundredths = none →
        ⟨e.ruleKey, .unpriced⟩ ∈ out.breakdown.errorFlags) ∧
      (∀ score, out.scoreHundredths = some score →
        ∃ s, computeDeductionScore input.rubric (input.used.map RuleSnapshot.toScoringRule)
            (scoredKeysOf out.breakdown.errors) = .ok s ∧ s.scoreHundredths = score) ∧
      ∀ exceptions out', (input.withExceptions exceptions).computeScore = .ok out' →
        (∀ k, k ∈ countedKeys out.breakdown.errors ↔ k ∈ countedKeys out'.breakdown.errors) →
        out'.scoreHundredths = out.scoreHundredths := by
  refine ⟨?_, ?_, ?_, ?_, fun _ _ h' hcounted => score_of_counted hkeys h h' hcounted⟩
  · intro r hr hx
    rcases computeScore_split hkeys h with
      ⟨_, _, _, herrors, hflags⟩ | ⟨s, _, _, hs, _, _, herrors, hflags⟩
    · rw [herrors, hflags]
      simp [scoredKeysOf]
    · rw [herrors, hflags]
      exact excluded_out hkeys hs hr hx
  · intro r hr hx
    rcases computeScore_split hkeys h with
      ⟨_, _, hnone, herrors, hflags⟩ | ⟨s, _, _, hs, _, _, herrors, hflags⟩
    · rw [herrors, hflags]
      simp [hnone]
    · rw [herrors, hflags]
      exact included_in hkeys hs hr hx
  · intro e he hscored hprice
    rcases computeScore_split hkeys h with
      ⟨_, _, _, herrors, _⟩ | ⟨s, _, _, hs, _, _, herrors, hflags⟩
    · rw [herrors] at he
      cases he
    · rw [herrors] at he
      rw [hflags]
      exact unpriced_flag hkeys hs he hscored hprice
  · intro score hscore
    rcases computeScore_split hkeys h with
      ⟨_, _, hnone, _⟩ | ⟨s, score', _, _, hscore', hout, herrors, _⟩
    · rw [hnone] at hscore
      cases hscore
    · rw [herrors]
      rw [hout, Option.some.injEq] at hscore
      exact ⟨score', hscore', hscore⟩

theorem storedSample_last_word :
    ∃ out, storedSample.computeScore = .ok out ∧ "naming" ∉ scoredKeysOf out.breakdown.errors ∧
      ∀ f ∈ out.breakdown.errorFlags, f.ruleKey ≠ "naming" := by
  have hkeys : (storedSample.rules.map RuleSnapshot.ruleKey).Nodup := by decide
  obtain ⟨out, hout⟩ := computeScore_isOk hkeys
  obtain ⟨hexcluded, _⟩ := exceptions_have_last_word storedSample out hkeys hout
  obtain ⟨_, hscored, hflags⟩ := hexcluded ⟨"r2", "v1", "naming", "style", none, some 20⟩
    (by decide) (by decide)
  exact ⟨out, hout, hscored, hflags⟩

/-- The sample with one more rule, which the teacher included although the
verdict does not name it. -/
def unfoundSample : ScoreCoreInput ℚ :=
  { storedSample with
    stored := { storedSample.stored with ruleTable := [⟨"layout", .model⟩] }
    rules := storedSample.rules ++ [⟨"r4", "v1", "layout", "style", none, some 10⟩]
    exceptions := .ofList [("r4", .include)] }

theorem unfound_is_not_counted :
    (unfoundSample.computeScore.toOption.map fun out =>
        (out.breakdown.errors.map BreakdownError.ruleKey, out.scoreHundredths)) =
        some (["edge-cases"], some 110) ∧
      ¬ ∀ (input : ScoreCoreInput ℚ) (out : ScoreCoreOutput ℚ),
          (input.rules.map RuleSnapshot.ruleKey).Nodup → input.computeScore = .ok out →
          ∀ r ∈ input.rules, input.exceptions.get? r.ruleId = some .include →
            r.ruleKey ∈ countedKeys out.breakdown.errors := by
  have hrun : (unfoundSample.computeScore.toOption.map fun out =>
      (out.breakdown.errors.map BreakdownError.ruleKey, out.scoreHundredths)) =
      some (["edge-cases"], some 110) := by decide
  refine ⟨hrun, fun h => ?_⟩
  have hkeys : (unfoundSample.rules.map RuleSnapshot.ruleKey).Nodup := by decide
  obtain ⟨out, hout⟩ := computeScore_isOk hkeys
  have hcounted := h unfoundSample out hkeys hout ⟨"r4", "v1", "layout", "style", none, some 10⟩
    (by decide) (by decide)
  rw [hout] at hrun
  obtain ⟨herrors, _⟩ := Prod.mk.inj (Option.some.inj hrun)
  obtain ⟨e, he, hk⟩ := List.mem_map.1 hcounted
  have hmem : e.ruleKey ∈ out.breakdown.errors.map BreakdownError.ruleKey :=
    List.mem_map_of_mem (List.mem_filter.1 he).1
  rw [herrors, List.mem_singleton, hk] at hmem
  exact absurd hmem (by decide)

end Cine.Grading
