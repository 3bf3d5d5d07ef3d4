import Cine.Grading.Investigator.Lenses
import Cine.Lib.Transaction

/-!
# The challenge phase

`grading/investigator/challenge-phase.ts`, and what `decide` makes of its
outcome.

All reviews go on side by side, so each of them has a world of its own
(`PhaseWorlds`): whatever the order of their steps is, a review only sees its
own replies and outcomes.

`failed_lens_no_opinion` is the result, for all worlds.
-/

namespace Cine.Grading

open Cine.Lib

/-! ## The phase -/

structure ChallengePhaseDeps (W : Type) where
  challengers : List (Challenger W)
  caseLenses : List (CaseLens W)

/-- The world of the review of an error, by the places of the challenger and
of the error, and the world of the review of a case. -/
structure PhaseWorlds (W : Type) where
  review : Nat → Nat → W
  caseReview : Nat → W

/-- `StoredChallenge`, with the evidence and the reasons of the conclusions. -/
structure PhaseChallenge where
  perError : List LensConclusions
  caseNotes : List CaseLensNote
deriving DecidableEq, Repr

/-- The part of a challenge that the decision reads. -/
def PhaseChallenge.toStored (c : PhaseChallenge) : StoredChallenge where
  perError := c.perError.map fun l =>
    { challenger := l.challenger, perError := l.perError.map StoredConclusion.toErrorConclusion }
  caseNotes := c.caseNotes

def machineRuleKeys (ctx : InvestigationContext) : List String :=
  (ctx.rules.filter fun r => r.checkedBy = .machine).map RuleEntry.ruleKey

/-- `challengeable`: the verdict without the errors that the machine checks. -/
def challengeable (ctx : InvestigationContext) (verdict : Verdict) : Verdict :=
  { verdict with errors := verdict.errors.filter fun e => e.ruleKey ∉ machineRuleKeys ctx }

/-- `runChallengePhase`: `none` outside where it does not end, and `none`
inside where there is no challenge. -/
def runChallengePhase {K W : Type} (result : InvestigationResult K) (ctx : InvestigationContext)
    (deps : ChallengePhaseDeps W) (worlds : PhaseWorlds W) : Option (Option PhaseChallenge) :=
  match result.verdict with
  | none => some none
  | some verdict =>
    if deps.challengers = [] then some none
    else do
      let perError ← deps.challengers.zipIdx.mapM fun (c, i) =>
        challenge (challengeable ctx verdict) c (worlds.review i)
      let caseNotes ← deps.caseLenses.zipIdx.mapM fun (lens, i) =>
        runCaseLens ctx verdict lens (worlds.caseReview i)
      return some { perError, caseNotes }

/-! ## The lenses of a phase -/

inductive ErrorLens
  | correctness
  | severity
deriving DecidableEq, Repr

inductive WholeLens
  | omission
  | cheating
deriving DecidableEq, Repr

section

variable {N W : Type} (reader : ReplyReader N)

def ErrorLens.challenger (deps : LensDeps W) : ErrorLens → Challenger W
  | .correctness => correctnessLens reader deps
  | .severity => severityLens reader deps

def WholeLens.caseLens (deps : LensDeps W) : WholeLens → CaseLens W
  | .omission => omissionLens reader deps
  | .cheating => cheatingLens reader deps

/-- The lenses of a phase, each with its models, its tools and its clock. -/
def phaseDeps (lenses : List (ErrorLens × LensDeps W)) (caseLenses : List (WholeLens × LensDeps W)) :
    ChallengePhaseDeps W where
  challengers := lenses.map fun l => l.1.challenger reader l.2
  caseLenses := caseLenses.map fun l => l.1.caseLens reader l.2

def ErrorLens.run (lens : ErrorLens × LensDeps W) (world : W) :
    Option (LensRunResult PerErrorConclusion × LensRun W) :=
  runLensLoop lens.2 (lens.1.challenger reader lens.2).name reader.parsePerErrorReply world

/-! ## What a phase gives -/

/-- The conclusion on one error, against the run of its review.  The correctness lens has an
opinion exactly when the run executed the program and a final reply was read in it. -/
def Answers (lens : ErrorLens × LensDeps W) (worlds : Nat → W) (e : VerdictError × Nat)
    (c : StoredConclusion) : Prop :=
  c.ruleKey = e.1.ruleKey ∧ ∃ r s, ErrorLens.run reader lens (worlds e.2) = some (r, s) ∧
    (lens.1 = .severity ∨
      (c.status ≠ .unverified ↔ (∃ t ∈ s.toolCalls, t.ran = true) ∧
        ∃ v, ReadsFinal reader.parsePerErrorReply s.asked v))

/-- Every challenger has one conclusion on each error that the machine does not check, and
every lens on the whole case has one note. -/
structure Challenged (ctx : InvestigationContext) (verdict : Verdict)
    (lenses : List (ErrorLens × LensDeps W)) (caseLenses : List (WholeLens × LensDeps W))
    (worlds : PhaseWorlds W) (c : PhaseChallenge) : Prop where
  names : c.perError.map LensConclusions.challenger =
    lenses.map fun l => (l.1.challenger reader l.2).name
  keys : (c.perError.map fun l => l.perError.map fun x => x.ruleKey) = lenses.map fun _ =>
    (verdict.errors.map VerdictError.ruleKey).filter fun k => k ∉ machineRuleKeys ctx
  answers : List.Forall₂ (fun lens l =>
    List.Forall₂ (Answers reader lens.1 (worlds.review lens.2))
      (challengeable ctx verdict).errors.zipIdx l.perError) lenses.zipIdx c.perError
  notes : c.caseNotes.map CaseLensNote.lens =
    caseLenses.map fun l => (l.1.caseLens reader l.2).name

end

/-! ## The reviews -/

theorem forall₂_of_mapM_option {α β : Type} {f : α → Option β} {P : α → β → Prop} {l : List α}
    (h : ∀ a ∈ l, ∃ b, f a = some b ∧ P a b) : ∃ bs, l.mapM f = some bs ∧ List.Forall₂ P l bs := by
  induction l with
  | nil => exact ⟨[], rfl, .nil⟩
  | cons a l ih =>
    obtain ⟨b, hb, hP⟩ := h a List.mem_cons_self
    obtain ⟨bs, hbs, hall⟩ := ih fun a ha => h a (List.mem_cons_of_mem _ ha)
    exact ⟨b :: bs, by rw [List.mapM_cons, hb, hbs]; rfl, .cons hP hall⟩

theorem map_of_forall₂_zipIdx {α β γ : Type} {f : α → γ} {g : β → γ} {l : List α} {bs : List β}
    (h : List.Forall₂ (fun a b => f a.1 = g b) l.zipIdx bs) : bs.map g = l.map f := by
  have hmap : l.zipIdx.map (f ∘ Prod.fst) = bs.map g := by
    rw [← List.forall₂_eq_eq_eq, List.forall₂_map_left_iff, List.forall₂_map_right_iff]
    exact h
  rw [← hmap, ← List.map_map, List.zipIdx_map_fst]

section Reviews

variable {N W : Type} {reader : ReplyReader N}

theorem conclusionOf_status {e : VerdictError} {v : Except String Review} :
    (conclusionOf e v).status ≠ .unverified ↔ ∃ review, v = .ok review := by
  cases v with
  | ok review =>
    refine ⟨fun _ => ⟨review, rfl⟩, fun _ => ?_⟩
    show review.status.toStatus ≠ .unverified
    cases review.status <;> decide
  | error message => exact ⟨fun h => absurd rfl h, fun ⟨_, h⟩ => (nomatch h)⟩

theorem conclusionOf_ruleKey {e : VerdictError} {v : Except String Review} :
    (conclusionOf e v).ruleKey = e.ruleKey := by
  cases v <;> rfl

theorem correctnessReview_ok {r : LensRunResult PerErrorConclusion} :
    (∃ review, correctnessReview r = .ok review) ↔
      (∃ t ∈ r.toolCalls, t.ran = true) ∧ ∃ v, r.conclusion = some v := by
  rw [← List.any_eq_true]
  unfold correctnessReview
  cases r.conclusion with
  | none => exact ⟨fun ⟨_, h⟩ => (nomatch h), fun ⟨_, _, h⟩ => (nomatch h)⟩
  | some c =>
    dsimp only
    by_cases hran : r.toolCalls.any ToolCall.ran = true
    · rw [if_pos hran]
      exact ⟨fun _ => ⟨hran, c, rfl⟩, fun _ => ⟨_, rfl⟩⟩
    · rw [if_neg hran]
      exact ⟨fun ⟨_, h⟩ => (nomatch h), fun ⟨h, _⟩ => absurd h hran⟩

variable (reader)

theorem review_answers (lens : ErrorLens × LensDeps W) (worlds : Nat → W) (e : VerdictError × Nat) :
    ∃ c, ((lens.1.challenger reader lens.2).review (worlds e.2)).map (conclusionOf e.1) = some c ∧
      Answers reader lens worlds e c := by
  obtain ⟨r, s, hrun, hsound⟩ := runLensLoop_sound lens.2
    (lens.1.challenger reader lens.2).name reader.parsePerErrorReply (worlds e.2)
  obtain ⟨lens, deps⟩ := lens
  cases lens with
  | correctness =>
    have hreview : ((correctnessLens reader deps).review (worlds e.2)) =
        some (correctnessReview r) := congrArg (Option.map _) hrun
    refine ⟨_, congrArg (Option.map _) hreview, conclusionOf_ruleKey, r, s, hrun, Or.inr ?_⟩
    rw [conclusionOf_status, correctnessReview_ok, hsound.toolCalls]
    exact and_congr_right fun _ => exists_congr hsound.concluded
  | severity =>
    have hreview : ((severityLens reader deps).review (worlds e.2)) =
        some (severityReview r) := congrArg (Option.map _) hrun
    exact ⟨_, congrArg (Option.map _) hreview, conclusionOf_ruleKey, r, s, hrun, Or.inl rfl⟩

theorem challenge_answers (lens : ErrorLens × LensDeps W) (verdict : Verdict) (worlds : Nat → W) :
    ∃ l, challenge verdict (lens.1.challenger reader lens.2) worlds = some l ∧
      l.challenger = (lens.1.challenger reader lens.2).name ∧
      List.Forall₂ (Answers reader lens worlds) verdict.errors.zipIdx l.perError := by
  obtain ⟨cs, hcs, hall⟩ := forall₂_of_mapM_option (l := verdict.errors.zipIdx)
    fun e _ => review_answers reader lens worlds e
  refine ⟨⟨_, cs⟩, ?_, rfl, hall⟩
  unfold challenge
  rw [hcs]
  rfl

variable {reader} in
theorem keys_of_answers {lens : ErrorLens × LensDeps W} {worlds : Nat → W}
    {errors : List VerdictError} {cs : List StoredConclusion}
    (h : List.Forall₂ (Answers reader lens worlds) errors.zipIdx cs) :
    (cs.map fun x => x.ruleKey) = errors.map VerdictError.ruleKey :=
  map_of_forall₂_zipIdx (h.imp fun _ _ hanswer => hanswer.1.symm)

variable {reader} in
theorem omissionReview_of_run {deps : LensDeps W} {ctx : InvestigationContext} {verdict : Verdict}
    {world : W} {r : LensRunResult OmissionConclusion} {s : LensRun W}
    (hopen : openRules ctx verdict ≠ [])
    (hrun : runLensLoop deps "bo_sot" reader.parseOmissionReply world = some (r, s)) :
    (omissionLens reader deps).review ctx verdict world =
      some (.ok (omissionNote ((openRules ctx verdict).map RuleEntry.ruleKey).eraseDups r)) :=
  (if_neg hopen).trans (congrArg (Option.map _) hrun)

theorem runCaseLens_names (ctx : InvestigationContext) (verdict : Verdict)
    (lens : WholeLens × LensDeps W) (world : W) :
    ∃ note, runCaseLens ctx verdict (lens.1.caseLens reader lens.2) world = some note ∧
      note.lens = (lens.1.caseLens reader lens.2).name := by
  obtain ⟨lens, deps⟩ := lens
  cases lens with
  | cheating =>
    obtain ⟨r, s, hrun, _⟩ := runLensLoop_sound deps "gian_lan" reader.parseCaseLensReply world
    have hreview : (cheatingLens reader deps).review ctx verdict world =
        some (.ok (cheatingNote r)) := congrArg (Option.map _) hrun
    refine ⟨_, congrArg (Option.map _) hreview, ?_⟩
    show (cheatingNote r).lens = "gian_lan"
    unfold cheatingNote
    split
    · rfl
    · split_ifs <;> rfl
  | omission =>
    by_cases hopen : openRules ctx verdict = []
    · have hreview : (omissionLens reader deps).review ctx verdict world = some (.ok _) :=
        if_pos hopen
      exact ⟨_, congrArg (Option.map _) hreview, rfl⟩
    · obtain ⟨r, s, hrun, _⟩ := runLensLoop_sound deps "bo_sot" reader.parseOmissionReply world
      refine ⟨_, congrArg (Option.map _) (omissionReview_of_run hopen hrun), ?_⟩
      show (omissionNote _ r).lens = "bo_sot"
      unfold omissionNote
      split
      · rfl
      · dsimp only
        split_ifs <;> rfl

theorem phase_challenged {K : Type} {result : InvestigationResult K} {verdict : Verdict}
    (hverdict : result.verdict = some verdict) (ctx : InvestigationContext)
    {lenses : List (ErrorLens × LensDeps W)} (hlenses : lenses ≠ [])
    (caseLenses : List (WholeLens × LensDeps W)) (worlds : PhaseWorlds W) :
    ∃ c, runChallengePhase result ctx (phaseDeps reader lenses caseLenses) worlds =
        some (some c) ∧
      Challenged reader ctx verdict lenses caseLenses worlds c := by
  obtain ⟨ls, hls, hanswers⟩ := forall₂_of_mapM_option (l := lenses.zipIdx) fun l _ =>
    challenge_answers reader l.1 (challengeable ctx verdict) (worlds.review l.2)
  obtain ⟨notes, hnotes, hnames⟩ := forall₂_of_mapM_option (l := caseLenses.zipIdx) fun l _ =>
    runCaseLens_names reader ctx verdict l.1 (worlds.caseReview l.2)
  have hphase : runChallengePhase result ctx (phaseDeps reader lenses caseLenses) worlds =
      some (some ⟨ls, notes⟩) := by
    unfold runChallengePhase phaseDeps
    rw [hverdict]
    dsimp only
    rw [if_neg fun hnil => hlenses (List.map_eq_nil_iff.1 hnil), List.zipIdx_map, List.zipIdx_map,
      List.mapM_map, List.mapM_map]
    exact (congrArg (Option.bind · _) hls).trans (congrArg (Option.bind · _) hnotes)
  refine ⟨_, hphase, ?_, ?_, hanswers.imp fun _ _ h => h.2, ?_⟩
  · exact map_of_forall₂_zipIdx (hanswers.imp fun _ _ h => h.1.symm)
  · refine map_of_forall₂_zipIdx (hanswers.imp fun _ _ h => ?_)
    rw [keys_of_answers h.2, List.filter_map]
    rfl
  · exact map_of_forall₂_zipIdx (hnames.imp fun _ _ h => h.symm)

/-! ## What the decision makes of it -/

theorem clear_of_auto {K : Type} [Number K] {input : DecisionInput K}
    (h : input.decide.map Decision.outcome = .ok .auto) :
    (∀ n ∈ input.caseNotes, n.suspected = false ∧ n.concluded = true) ∧
      input.unverifiedKeys = [] := by
  obtain ⟨d, hd, hauto⟩ := map_eq_ok.1 h
  rcases decide_cases hd with ⟨f, _, rfl⟩ | ⟨s, _, _, rfl⟩
  · cases hauto
  obtain ⟨hown, herror, _⟩ := decisionOf_flags_eq_nil.1 (decisionOf_outcome_auto.1 hauto)
  obtain ⟨_, _, _, _, hsuspected, hconcluded, _⟩ := ownCaseFlags_eq_nil.1 hown
  unfold DecisionInput.errorFlagsOf at herror
  simp only [List.append_eq_nil_iff, List.map_eq_nil_iff] at herror
  exact ⟨fun n hn => ⟨hsuspected n hn, hconcluded n hn⟩, herror.2⟩

theorem attended_of_auto {K : Type} [Number K] {input : DecisionInput K}
    (h : input.decide.map Decision.outcome = .ok .auto) :
    (∀ n ∈ input.caseNotes, n.concluded = true) ∧ ∀ e ∈ input.errors, ¬ Unverified input e := by
  obtain ⟨hnotes, hkeys⟩ := clear_of_auto h
  exact ⟨fun n hn => (hnotes n hn).2, unverifiedKeys_eq_nil.1 hkeys⟩

/-- A lens that fails has no opinion.  Every run of a lens ends within its budget; the phase
ends, and each of its conclusions is the one that its run stands for; and a paper is not decided
without a teacher while a note is not concluded or an error has conclusions that are all
unverified. -/
theorem failed_lens_no_opinion {K : Type} [Number K] (result : InvestigationResult K)
    (ctx : InvestigationContext) (lenses : List (ErrorLens × LensDeps W))
    (caseLenses : List (WholeLens × LensDeps W)) (worlds : PhaseWorlds W) :
    (∀ (C : Type) (deps : LensDeps W) (label : String) (parse : String → Option (LensReply C))
      (world : W), ∃ r s, runLensLoop deps label parse world = some (r, s) ∧
        s.asked.length ≤ lensBudget.maxRounds + 1 ∧
        r.toolCalls.length ≤ lensBudget.maxToolCalls) ∧
    (∃ phase, runChallengePhase result ctx (phaseDeps reader lenses caseLenses) worlds =
        some phase ∧
      ((phase = none ∧ (result.verdict = none ∨ lenses = [])) ∨
        ∃ verdict c, result.verdict = some verdict ∧ lenses ≠ [] ∧ phase = some c ∧
          Challenged reader ctx verdict lenses caseLenses worlds c)) ∧
    ∀ input : DecisionInput K,
      ((∃ n ∈ input.caseNotes, n.concluded = false) ∨ ∃ e ∈ input.errors, Unverified input e) →
        input.decide.map Decision.outcome ≠ .ok .auto := by
  refine ⟨fun C deps label parse world => ?_, ?_, fun input hbad hauto => ?_⟩
  · obtain ⟨r, s, hrun, hsound⟩ := runLensLoop_sound deps label parse world
    exact ⟨r, s, hrun, hsound.requests, hsound.toolCalls ▸ hsound.calls⟩
  · cases hverdict : result.verdict with
    | none =>
      refine ⟨none, ?_, Or.inl ⟨rfl, Or.inl rfl⟩⟩
      unfold runChallengePhase
      rw [hverdict]
    | some verdict =>
      by_cases hlenses : lenses = []
      · refine ⟨none, ?_, Or.inl ⟨rfl, Or.inr hlenses⟩⟩
        unfold runChallengePhase
        rw [hverdict]
        exact if_pos (congrArg (List.map _) hlenses)
      · obtain ⟨c, hphase, hc⟩ := phase_challenged reader hverdict ctx hlenses caseLenses worlds
        exact ⟨some c, hphase, Or.inr ⟨verdict, c, rfl, hlenses, rfl, hc⟩⟩
  · obtain ⟨hnotes, herrors⟩ := attended_of_auto hauto
    rcases hbad with ⟨n, hn, hopen⟩ | ⟨e, he, hunverified⟩
    · rw [hnotes n hn] at hopen
      cases hopen
    · exact herrors e he hunverified

end Reviews

/-! ## A lens without a model -/

/-- Models that are never reached. -/
def deadLens : LensDeps Unit where
  tiers := []
  transientRetries := 2
  call := fun _ _ w => (.reply "" .zero none, w)
  sleep := fun _ w => w
  now := fun w => (0, w)
  execute := fun _ _ w => (⟨.unavailable, none⟩, w)

def plainReader : ReplyReader Int where
  parseJson := fun _ => none
  canonical := fun _ => ""
  whole := some
  lowerCase := id

def challengedContext : InvestigationContext where
  language := .cpp
  problemStatement := "a"
  entry := none
  files := []
  bundleId := "b"
  cases := []
  modelAnswerAvailable := false
  rules :=
    [⟨"wrong-output", "a", "", "correctness", true, .model⟩,
      ⟨"tests", "b", "", "correctness", true, .machine⟩]

/-- The clean paper with an error in words and one that the machine checks. -/
def accusedPaper : DecisionInput ℚ :=
  { cleanPaper with
    result := { cleanPaper.result with
      verdict := some ⟨[⟨"wrong-output", ["tc-1"]⟩, ⟨"tests", ["tc-1"]⟩], []⟩ }
    challenge := some ⟨[⟨"tinh_dung", [⟨"wrong-output", .unverified⟩]⟩], []⟩ }

/-- The correctness lens has one conclusion, on the error in words, and no opinion; and the
paper goes to a teacher. -/
theorem dead_lens_no_opinion :
    (∃ c, runChallengePhase accusedPaper.result challengedContext
        (phaseDeps plainReader [(.correctness, deadLens)] [(.cheating, deadLens)])
        ⟨fun _ _ => (), fun _ => ()⟩ = some (some c) ∧
      (c.perError.map fun l => l.perError.map fun x => x.ruleKey) = [["wrong-output"]] ∧
      c.caseNotes.map CaseLensNote.lens = ["gian_lan"]) ∧
    accusedPaper.decide.map Decision.outcome ≠ .ok .auto := by
  obtain ⟨_, ⟨phase, hphase, hends⟩, hdecide⟩ := failed_lens_no_opinion plainReader
    accusedPaper.result challengedContext [(.correctness, deadLens)] [(.cheating, deadLens)]
    ⟨fun _ _ => (), fun _ => ()⟩
  constructor
  · rcases hends with ⟨_, hnone | hnil⟩ | ⟨verdict, c, hverdict, _, rfl, hc⟩
    · cases hnone
    · cases hnil
    · cases hverdict
      refine ⟨c, hphase, hc.keys.trans ?_, hc.notes⟩
      decide
  · have herrors : accusedPaper.errors =
        [⟨"wrong-output", "correctness", some 40, .llmWithTools, ["tc-1"]⟩] := by
      decide
    refine hdecide accusedPaper (Or.inr ⟨_, herrors ▸ List.mem_cons_self, ?_⟩)
    exact ⟨by decide, _, rfl, by decide, by decide⟩

end Cine.Grading
