import Cine.Grading.Scoring.RuleOrder

/-!
# The confidence bar at the default threshold

`grading/decision/decide.ts` with the threshold of `grading/grading.types.ts`.

The confidence is a mean of the caps of the sources, weighted by the
deductions, and not their minimum.  So the errors of a weak source pull a
paper under the bar by their weight only.

* `weightOf`: the mean where all sources are one.
* `confidence_eq`: without another flag nothing but the mean and the cap of
  the investigation counts.
* `lowConfidence_at_default`: when the flag is added.
-/

namespace Cine.Grading

open Cine.Lib

/-- `AUTO_APPROVE_CONFIDENCE`, the threshold where none is set. -/
def defaultTheta {K : Type} [Number K] : K := 0.85

/-- The deductions of the priced errors, added up. -/
def weightOf (errors : List DiagnosedError) : Int :=
  ((errors.filter DiagnosedError.isPriced).map fun e => e.deductionHundredths.getD 0).sum

/-- A flag of the case is the one of a low confidence. -/
def Decision.HasLowConfidence {K : Type} (d : Decision K) : Prop :=
  ∃ f ∈ d.caseFlags, f.code = .lowConfidence

/-! ## The weighted mean -/

section Mean

variable {K : Type} [Number K]

variable {e : DiagnosedError} {errors : List DiagnosedError}

theorem DiagnosedError.pos_of_isPriced (h : e.isPriced = true) :
    0 < e.deductionHundredths.getD 0 := by
  unfold DiagnosedError.isPriced at h
  cases hd : e.deductionHundredths with
  | none =>
    rw [hd] at h
    cases h
  | some d =>
    rw [hd] at h
    exact of_decide_eq_true h

theorem foldl_weight (l : List DiagnosedError) (start : Int) :
    l.foldl (fun s e => s + e.deductionHundredths.getD 0) start =
      start + (l.map fun e => e.deductionHundredths.getD 0).sum := by
  induction l generalizing start with
  | nil => simp
  | cons e l ih => rw [List.foldl_cons, ih, List.map_cons, List.sum_cons, add_assoc]

theorem caseConfidence_eq (errors : List DiagnosedError) (modelCeiling : K)
    (coverageComplete : Bool) :
    caseConfidence errors modelCeiling coverageComplete =
      if weightOf errors = 0 then
        if coverageComplete then ((1 : Int) : K) else ((0 : Int) : K)
      else
        (errors.filter DiagnosedError.isPriced).foldl
            (fun s e => s + capOf e.source modelCeiling *
              ((e.deductionHundredths.getD 0 : Int) : K)) ((0 : Int) : K) /
          ((weightOf errors : Int) : K) := by
  unfold caseConfidence weightOf
  dsimp only
  rw [foldl_weight, zero_add]

theorem weightOf_nonneg (errors : List DiagnosedError) : 0 ≤ weightOf errors := by
  refine List.sum_nonneg fun d hd => ?_
  obtain ⟨e, he, rfl⟩ := List.mem_map.1 hd
  exact (DiagnosedError.pos_of_isPriced (List.mem_filter.1 he).2).le

theorem weightOf_pos (he : e ∈ errors) (hpriced : e.isPriced = true) : 0 < weightOf errors := by
  have hmem : e ∈ errors.filter DiagnosedError.isPriced := List.mem_filter.2 ⟨he, hpriced⟩
  refine lt_of_lt_of_le (DiagnosedError.pos_of_isPriced hpriced) ?_
  refine List.single_le_sum ?_ _ (List.mem_map_of_mem hmem)
  intro d hd
  obtain ⟨e', he', rfl⟩ := List.mem_map.1 hd
  exact (DiagnosedError.pos_of_isPriced (List.mem_filter.1 he').2).le

theorem caseConfidence_machine (laws : RoundedArithmetic K) (hbound : weightOf errors ≤ 2 ^ 53)
    (hmachine : ∀ e ∈ errors, e.isPriced = true → e.source = .deterministic) (modelCeiling : K) :
    caseConfidence errors modelCeiling true = ((1 : Int) : K) := by
  rw [caseConfidence_eq]
  by_cases hzero : weightOf errors = 0
  · rw [if_pos hzero]
    rfl
  rw [if_neg hzero]
  have hsum : (errors.filter DiagnosedError.isPriced).foldl (fun s e => s +
      capOf e.source modelCeiling * ((e.deductionHundredths.getD 0 : Int) : K)) ((0 : Int) : K) =
        ((0 + weightOf errors : Int) : K) :=
    foldl_machine laws.toExactIntegers modelCeiling
      (fun e he => hmachine e (List.mem_filter.1 he).1 (List.mem_filter.1 he).2)
      (fun e he => (List.mem_filter.1 he).2) 0 le_rfl (by rw [zero_add]; exact hbound)
  rw [hsum, zero_add]
  have := weightOf_nonneg errors
  exact laws.div_self _ (by omega) hbound

theorem capOf_llmOnly_le (modelCeiling : K) : capOf .llmOnly modelCeiling ≤ 0.5 :=
  min_le_left _ _

theorem foldl_llmOnly_le (laws : RoundedArithmetic K) (modelCeiling : K)
    {l : List DiagnosedError} (hsource : ∀ e ∈ l, e.source = .llmOnly)
    (hpriced : ∀ e ∈ l, e.isPriced = true) (x : K) (start : Int) (hstart : 0 ≤ start)
    (hx : x ≤ (0.5 : K) * (start : K))
    (hbound : start + (l.map fun e => e.deductionHundredths.getD 0).sum ≤ 2 ^ 53) :
    l.foldl (fun s e => s + capOf e.source modelCeiling *
        ((e.deductionHundredths.getD 0 : Int) : K)) x ≤
      (0.5 : K) * ((start + (l.map fun e => e.deductionHundredths.getD 0).sum : Int) : K) := by
  induction l generalizing x start with
  | nil => simpa using hx
  | cons e l ih =>
    rw [List.map_cons, List.sum_cons] at hbound ⊢
    have he := (DiagnosedError.pos_of_isPriced (hpriced e List.mem_cons_self)).le
    have hrest : 0 ≤ (l.map fun e => e.deductionHundredths.getD 0).sum :=
      List.sum_nonneg fun d hd => by
        obtain ⟨e', he', rfl⟩ := List.mem_map.1 hd
        exact (DiagnosedError.pos_of_isPriced (hpriced e' (List.mem_cons_of_mem _ he'))).le
    have hcap : capOf e.source modelCeiling ≤ 0.5 := by
      rw [hsource e List.mem_cons_self]
      exact capOf_llmOnly_le modelCeiling
    have hstep := laws.add_mono _ _ _ _ hx (laws.mul_mono _ _ _ hcap he)
    rw [laws.half_add start _ hstart he (by omega)] at hstep
    rw [List.foldl_cons, ← add_assoc]
    exact ih (fun e' he' => hsource e' (List.mem_cons_of_mem _ he'))
      (fun e' he' => hpriced e' (List.mem_cons_of_mem _ he')) _ _ (by omega) hstep (by omega)

theorem caseConfidence_llmOnly_le (laws : RoundedArithmetic K) (hbound : weightOf errors ≤ 2 ^ 53)
    (he : e ∈ errors) (hpriced : e.isPriced = true)
    (hsource : ∀ e ∈ errors, e.isPriced = true → e.source = .llmOnly) (modelCeiling : K)
    (coverageComplete : Bool) : caseConfidence errors modelCeiling coverageComplete ≤ 0.5 := by
  have hpos := weightOf_pos he hpriced
  have hsum := foldl_llmOnly_le laws modelCeiling
    (fun e he => hsource e (List.mem_filter.1 he).1 (List.mem_filter.1 he).2)
    (fun e he => (List.mem_filter.1 he).2) ((0 : Int) : K) 0 le_rfl laws.half_zero.ge
    (by rw [zero_add]; exact hbound)
  rw [zero_add] at hsum
  rw [caseConfidence_eq, if_neg hpos.ne']
  exact (laws.div_mono _ _ _ hsum hpos).trans (laws.half_div _ hpos hbound).le

end Mean

/-! ## The flag -/

section Flag

variable {K : Type} {input : DecisionInput K}

theorem code_of_mem_ownCaseFlags {f : CaseFlag} (hf : f ∈ input.ownCaseFlags) :
    f.code ≠ .lowConfidence := by
  have hnotes : ∀ {code p}, f ∈ input.noteFlags code p → f.code = code := fun h =>
    (mem_noteFlags h).1
  have hone : ∀ {g : CaseFlag} {c : Prop} [Decidable c], f ∈ (if c then [g] else []) →
      f.code = g.code := by
    intro g c _ h
    split_ifs at h
    · rw [List.mem_singleton.1 h]
    · exact absurd h List.not_mem_nil
  simp only [DecisionInput.ownCaseFlags, List.mem_append] at hf
  rcases hf with (((((((hf | hf) | hf) | hf) | hf) | hf) | hf) | hf) | hf
  · obtain ⟨c, _, hc⟩ := List.mem_filterMap.1 hf
    unfold DecisionInput.criterionFlag at hc
    dsimp only at hc
    split_ifs at hc
    · cases hc
      rintro ⟨⟩
    · cases hc
      rintro ⟨⟩
  · rw [hone hf]
    rintro ⟨⟩
  · obtain ⟨_, _, rfl⟩ := List.mem_map.1 hf
    rintro ⟨⟩
  · rw [hone hf]
    rintro ⟨⟩
  · rw [hnotes hf]
    rintro ⟨⟩
  · rw [hnotes hf]
    rintro ⟨⟩
  · rw [hone hf]
    rintro ⟨⟩
  · rw [hone hf]
    rintro ⟨⟩
  · rw [(mem_ruleGateFlags hf).1]
    rintro ⟨⟩

variable [Number K]

theorem confidence_eq (hown : input.ownCaseFlags = []) (hverified : input.unverifiedKeys = []) :
    input.confidence =
      min (caseConfidence input.errors input.modelCeiling true) input.result.confidenceCap := by
  obtain ⟨hcriteria, hpassed, _⟩ := ownCaseFlags_eq_nil.1 hown
  have hcovered : input.coverageComplete = true := by
    unfold DecisionInput.coverageComplete
    rw [hcriteria]
    rfl
  have hpass : ¬ input.nothingPassed = true := by
    intro h
    unfold DecisionInput.nothingPassedFlags at hpassed
    rw [if_pos h] at hpassed
    cases hpassed
  unfold DecisionInput.confidence
  dsimp only
  rw [if_neg hpass, if_neg (not_not_intro hverified), hcovered]

/-- What the numbers of the script satisfy where the bar is the default. -/
structure DefaultBar (K : Type) [Number K] : Prop extends RoundedArithmetic K where
  half_below : (0.5 : K) < defaultTheta - autoThetaEpsilon
  one_above : defaultTheta - autoThetaEpsilon ≤ ((1 : Int) : K)

/-- At the default threshold and without another flag, the flag is added
exactly where the confidence is below the bar.  The confidence is the mean
of the caps, cut to the cap of the investigation, so errors of the machine
alone are never flagged, and errors of a model alone always are. -/
theorem lowConfidence_at_default (laws : DefaultBar K) (input : DecisionInput K)
    (htheta : input.theta = defaultTheta) (d : Decision K) (hd : input.decide = .ok d)
    (hcase : ∀ f ∈ d.caseFlags, f.code = .lowConfidence) (herror : d.errorFlags = [])
    (hbound : weightOf d.errors ≤ 2 ^ 53) :
    (d.HasLowConfidence ↔
        ∃ c, d.confidence = some c ∧ c < defaultTheta - autoThetaEpsilon) ∧
      (∀ c, d.confidence = some c →
        c = min (caseConfidence d.errors input.modelCeiling true) input.result.confidenceCap) ∧
      ((∀ e ∈ d.errors, e.isPriced = true → e.source = .deterministic) →
        defaultTheta - autoThetaEpsilon ≤ input.result.confidenceCap →
          ¬ d.HasLowConfidence) ∧
      ((∃ e ∈ d.errors, e.isPriced = true) →
        (∀ e ∈ d.errors, e.isPriced = true → e.source = .llmOnly) → d.HasLowConfidence) := by
  rcases decide_cases hd with ⟨f, _, rfl⟩ | ⟨s, _, _, rfl⟩
  · -- below a floor there is neither a confidence nor a flag
    have hno : ¬ (input.flooredAt f).HasLowConfidence := by
      rintro ⟨_, hf, _⟩
      exact absurd hf List.not_mem_nil
    refine ⟨⟨fun h => absurd h hno, ?_⟩, ?_, fun _ _ => hno, ?_⟩
    · rintro ⟨_, ⟨⟩, _⟩
    · rintro _ ⟨⟩
    · rintro ⟨e, he, _⟩
      exact absurd he List.not_mem_nil
  have hown : input.ownCaseFlags = [] := by
    refine List.eq_nil_iff_forall_not_mem.2 fun f hf => code_of_mem_ownCaseFlags hf ?_
    exact hcase f (List.mem_append_left _ hf)
  have hverified : input.unverifiedKeys = [] := by
    have hkeys := (List.append_eq_nil_iff.1 herror).2
    exact List.map_eq_nil_iff.1 hkeys
  have hconfidence := confidence_eq hown hverified
  have hflag : (input.decisionOf s).HasLowConfidence ↔
      input.confidence < defaultTheta - autoThetaEpsilon := by
    have hflags : (input.decisionOf s).caseFlags = input.lowConfidenceFlags [] := by
      show input.ownCaseFlags ++ input.lowConfidenceFlags (input.errorFlagsOf s) = _
      rw [hown, show input.errorFlagsOf s = [] from herror, List.nil_append]
    unfold Decision.HasLowConfidence
    rw [hflags, DecisionInput.lowConfidenceFlags, htheta]
    by_cases hlow : input.confidence < defaultTheta - autoThetaEpsilon
    · rw [if_pos ⟨hown, rfl, hlow⟩]
      exact ⟨fun _ => hlow, fun _ => ⟨_, List.mem_singleton_self _, rfl⟩⟩
    · rw [if_neg fun h => hlow h.2.2]
      refine ⟨?_, fun h => absurd h hlow⟩
      rintro ⟨_, hf, _⟩
      exact absurd hf List.not_mem_nil
  refine ⟨?_, ?_, fun hmachine hcap => ?_, ?_⟩
  · rw [hflag]
    refine ⟨fun h => ⟨_, rfl, h⟩, ?_⟩
    rintro ⟨_, hc, h⟩
    exact Option.some.inj hc ▸ h
  · rintro _ hc
    cases hc
    exact hconfidence
  · have hone := caseConfidence_machine laws.toRoundedArithmetic hbound hmachine input.modelCeiling
    rw [hflag, hconfidence, not_lt]
    refine le_min ?_ hcap
    rw [show caseConfidence input.errors input.modelCeiling true = ((1 : Int) : K) from hone]
    exact laws.one_above
  · rintro ⟨e, he, hpriced⟩ hmodel
    have hhalf := caseConfidence_llmOnly_le laws.toRoundedArithmetic hbound he hpriced hmodel
      input.modelCeiling true
    rw [hflag, hconfidence]
    exact lt_of_le_of_lt ((min_le_left _ _).trans hhalf) laws.half_below


end Flag

/-! ## Papers at the default threshold -/

theorem defaultBar_rat : DefaultBar ℚ where
  toRoundedArithmetic := Number.roundedArithmetic_rat
  half_below := by decide +kernel
  one_above := by decide +kernel

/-- A paper with an error of the machine, at ten points, and one that a
model gives from reading, at a hundredth. -/
def outweighedPaper : DecisionInput ℚ :=
  { failingPaper with
    result := { failingPaper.result with verdict := some ⟨[⟨"style", ["tc-2"]⟩], []⟩ }
    rubric := [⟨"correctness", 2000⟩]
    rules := [⟨"edge-cases", "correctness", some 1000, some (.testGroupFailed "edge")⟩,
      ⟨"style", "correctness", some 1, none⟩]
    rulesSeen := [⟨"edge-cases", .machine⟩, ⟨"style", .model⟩]
    theta := defaultTheta }

/-- A paper with an error that a model proves by a test run. -/
def provedByTestsPaper : DecisionInput ℚ :=
  { cleanPaper with
    result := { cleanPaper.result with verdict := some ⟨[⟨"wrong-output", ["tc-1"]⟩], []⟩ }
    theta := defaultTheta }

/-- What a decision says of the sources and of the flags. -/
def flagsOf (input : DecisionInput ℚ) :
    Option (List VerdictSource × List CaseFlagCode × List ErrorFlag) :=
  input.decide.toOption.map fun d =>
    (d.errors.map DiagnosedError.source, d.caseFlags.map CaseFlag.code, d.errorFlags)

/-- A weak source beside a strong one need not be flagged, and an error that
is proved by a tool is. -/
theorem weak_source_is_outweighed :
    flagsOf outweighedPaper = some ([.deterministic, .llmOnly], [], []) ∧
      flagsOf provedByTestsPaper = some ([.llmWithTools], [.lowConfidence], []) := by
  decide +kernel

/-- The paper with the outweighed error meets the conditions. -/
theorem outweighedPaper_at_default :
    ∃ d, outweighedPaper.decide = .ok d ∧
      (d.HasLowConfidence ↔
        ∃ c, d.confidence = some c ∧ c < defaultTheta - autoThetaEpsilon) := by
  have hflags : (flagsOf outweighedPaper).map Prod.snd = some ([], []) := by decide +kernel
  have hweight : (outweighedPaper.decide.toOption.map fun d => weightOf d.errors) = some 1001 := by
    decide
  unfold flagsOf at hflags
  cases hd : outweighedPaper.decide with
  | error e =>
    rw [hd] at hweight
    cases hweight
  | ok d =>
    rw [hd] at hflags hweight
    have hpair : (d.caseFlags.map CaseFlag.code, d.errorFlags) = ([], []) :=
      Option.some.inj hflags
    have hcase : d.caseFlags = [] := List.map_eq_nil_iff.1 (congrArg Prod.fst hpair)
    refine ⟨d, rfl, (lowConfidence_at_default defaultBar_rat outweighedPaper rfl d hd ?_
      (congrArg Prod.snd hpair) ?_).1⟩
    · rw [hcase]
      exact fun _ hf => absurd hf List.not_mem_nil
    · have hsum : weightOf d.errors = 1001 := Option.some.inj hweight
      rw [hsum]
      decide

end Cine.Grading
