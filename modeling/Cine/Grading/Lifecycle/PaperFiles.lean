import Cine.Grading.Lifecycle.GradingRun

/-!
# The file of a paper

A paper with its attempts and its computations.  `FileMove` is everything
that a change of the tables can do to one file, and `PaperFile.Sound` is what
every file satisfies: numbered attempts, of which at most the current one is
running, and one first computation where the current attempt has a score.
-/

namespace Cine.Grading

open Cine.Lib

variable {K : Type}

/-! ## Files -/

structure PaperFile (K : Type) where
  row : ResultRow
  attempts : List (AttemptRow K)
  computations : List (ComputationRow K)
  /-- A teacher has given the paper a score. -/
  marked : Bool

def Db.file (db : Db K) (r : ResultRow) : PaperFile K where
  row := r
  attempts := db.attempts.filter fun a => a.gradingResultId = r.id
  computations := db.computations.filter fun c => c.gradingResultId = r.id
  marked := db.hasManualScore r.id

/-- A move of the status that is not a decision of the machine. -/
structure RowMove (r r' : ResultRow) : Prop where
  row : r' = { r with
    status := r'.status
    flagForReview := r'.flagForReview
    auditSampled := r'.auditSampled
    finalizedComputationId := r'.finalizedComputationId }
  settled : r'.status = r.status ∨ r.status.isSettled = true ∧ r'.status.isSettled = true
  approved : r'.status ∈ sampleStatuses → r.status ∈ sampleStatuses
  decided : r.status ∈ decidedStatuses → r'.status ∈ decidedStatuses

namespace PaperFile

/-- The current attempt of the paper is running. -/
structure IsRunning (f : PaperFile K) (a : AttemptRow K) : Prop where
  attempt : a ∈ f.attempts
  status : f.row.status = .aiGrading
  current : f.row.currentAttemptId = some a.id
  outcome : a.outcome = none

/-- The current attempt has ended with a score. -/
def IsGraded (f : PaperFile K) : Prop :=
  ∃ a ∈ f.attempts, f.row.currentAttemptId = some a.id ∧ a.outcome = some .graded

/-- `a` is a new attempt of the paper, and no attempt is running. -/
structure IsNext (f : PaperFile K) (a : AttemptRow K) : Prop where
  status : f.row.status = .aiGrading
  idle : ∀ b ∈ f.attempts, f.row.currentAttemptId = some b.id → b.outcome ≠ none
  fresh : a.id ∉ f.attempts.map AttemptRow.id
  owner : a.gradingResultId = f.row.id
  number : a.attemptNo = (f.attempts.map AttemptRow.attemptNo).foldr max 0 + 1

end PaperFile

/-- An end of an attempt without a score. -/
structure AttemptRow.Fails (g : AttemptRow K → AttemptRow K) : Prop where
  id : ∀ a, (g a).id = a.id
  owner : ∀ a, (g a).gradingResultId = a.gradingResultId
  number : ∀ a, (g a).attemptNo = a.attemptNo
  outcome : ∀ a, a.outcome = none → (g a).outcome = some .ungradable

/-- What a change can do to a file.  `scores` says what is known of the
outputs that it writes. -/
inductive FileMove (scores : StoredInvestigation K → ScoreCoreOutput K → Prop)
    (f : PaperFile K) : PaperFile K → Prop
  | moved {row : ResultRow} {marked : Bool} (move : RowMove f.row row)
      (teacher : marked = true → f.marked = true ∨ row.status ∈ decidedStatuses) :
      FileMove scores f { f with row := row, marked := marked }
  | oneShot {row : ResultRow} (pipeline : f.row.pipeline = .oneShot)
      (keys : row.id = f.row.id ∧ row.pipeline = f.row.pipeline)
      (status : f.row.status ∈ [ResultStatus.aiGrading, .aiGraded])
      (unapproved : row.status ∉ sampleStatuses) :
      FileMove scores f { f with row := row }
  | rejudged {stored : StoredInvestigation K} {out : ScoreCoreOutput K} {c : ComputationRow K}
      {reason : ComputationReason} (graded : f.IsGraded) (computes : scores stored out)
      (computation : ComputationOf f.row reason out c) (later : reason ≠ .initial) :
      FileMove scores f { f with
        row := f.row.ruleLayer (out.outcome = .auto)
        computations := f.computations ++ [c] }
  | rechecked {stored : StoredInvestigation K} {out : ScoreCoreOutput K} {c : ComputationRow K}
      {reason : ComputationReason} (graded : f.IsGraded) (computes : scores stored out)
      (computation : ComputationOf f.row reason out c) (later : reason ≠ .initial)
      (editable : f.row.status ∈ editableStatuses) :
      FileMove scores f { f with
        row := f.row.reviewed
        computations := f.computations ++ [c] }
  | opened {a : AttemptRow K} (next : f.IsNext a) (outcome : a.outcome = none) :
      FileMove scores f { f with
        row := { f.row with currentAttemptId := some a.id }
        attempts := f.attempts ++ [a] }
  | scored {a : AttemptRow K} {stored : StoredInvestigation K} {out : ScoreCoreOutput K}
      {c : ComputationRow K} {score : Int} (drawn : Bool) (confidence modelUsed : Option String)
      (running : f.IsRunning a) (pipeline : f.row.pipeline = .investigator)
      (computes : scores stored out) (scored : out.scoreHundredths = some score)
      (computation : ComputationOf f.row .initial out c) :
      FileMove scores f { f with
        row := f.row.decided (out.outcome = .auto) drawn score confidence modelUsed
        attempts := updateRow AttemptRow.id f.attempts a.id
          (AttemptRow.close .graded none (some stored))
        computations := f.computations ++ [c] }
  | failed {a : AttemptRow K} {g : AttemptRow K → AttemptRow K} (u : Ungradable)
      (running : f.IsRunning a) (fails : AttemptRow.Fails g) :
      FileMove scores f { f with
        row := f.row.failed u
        attempts := updateRow AttemptRow.id f.attempts a.id g }
  | exhausted {a : AttemptRow K} (u : Ungradable) (next : f.IsNext a)
      (outcome : a.outcome = some .ungradable) :
      FileMove scores f { f with
        row := { f.row.failed u with currentAttemptId := some a.id }
        attempts := f.attempts ++ [a] }
  | requeued (requeuable : f.row.isRequeuable = true) :
      FileMove scores f { f with row := f.row.requeued }

theorem FileMove.mono {scores scores' : StoredInvestigation K → ScoreCoreOutput K → Prop}
    {f f' : PaperFile K} (himp : ∀ stored out, scores stored out → scores' stored out)
    (h : FileMove scores f f') : FileMove scores' f f' := by
  cases h with
  | moved move teacher => exact .moved move teacher
  | oneShot pipeline keys status unapproved => exact .oneShot pipeline keys status unapproved
  | rejudged graded computes computation later =>
    exact .rejudged graded (himp _ _ computes) computation later
  | rechecked graded computes computation later editable =>
    exact .rechecked graded (himp _ _ computes) computation later editable
  | opened next outcome => exact .opened next outcome
  | scored drawn confidence modelUsed running pipeline computes scored computation =>
    exact .scored drawn confidence modelUsed running pipeline (himp _ _ computes) scored computation
  | failed u running fails => exact .failed u running fails
  | exhausted u next outcome => exact .exhausted u next outcome
  | requeued requeuable => exact .requeued requeuable

/-! ## Sound files -/

/-- The paper has the score of its attempt `a`: `c` is its first
computation, which was computed from what is stored with `a`. -/
structure PaperFile.HasScoreOf (scores : StoredInvestigation K → ScoreCoreOutput K → Prop)
    (f : PaperFile K) (a : AttemptRow K) (c : ComputationRow K) : Prop where
  current : f.row.currentAttemptId = some a.id
  pipeline : f.row.pipeline = .investigator
  settled : f.row.status.isSettled = true
  reason : f.row.ungradable = none
  initial : f.computations.filter (fun c => c.reason = .initial) = [c]
  attempt : c.attemptId = a.id
  score : f.row.aiTotalScore = c.score
  scored : c.score.isSome = true
  computed : ∃ stored out, a.investigation = some stored ∧ scores stored out ∧
    c.score = out.scoreHundredths ∧ c.breakdown = out.breakdown

structure PaperFile.Sound (scores : StoredInvestigation K → ScoreCoreOutput K → Prop)
    (f : PaperFile K) : Prop where
  ids : (f.attempts.map AttemptRow.id).Nodup
  numbers : f.attempts.map AttemptRow.attemptNo = List.range' 1 f.attempts.length
  running : f.row.pipeline = .investigator → ∀ a ∈ f.attempts, a.outcome = none →
    f.row.currentAttemptId = some a.id ∧ f.row.status = .aiGrading
  graded : ∀ a ∈ f.attempts, a.outcome = some .graded → ∃ c, f.HasScoreOf scores a c
  ungraded : (∀ a ∈ f.attempts, a.outcome ≠ some .graded) →
    f.computations = [] ∧ (f.row.pipeline = .investigator → f.row.aiTotalScore = none)
  marked : f.marked = true → f.row.status ∈ decidedStatuses

namespace PaperFile

variable {scores : StoredInvestigation K → ScoreCoreOutput K → Prop} {f : PaperFile K}
  {a : AttemptRow K} {c : ComputationRow K}

theorem HasScoreOf.keeps (h : f.HasScoreOf scores a c) {row : ResultRow}
    {computations : List (ComputationRow K)} (marked : Bool)
    (hcurrent : row.currentAttemptId = f.row.currentAttemptId)
    (hpipeline : row.pipeline = f.row.pipeline) (hreason : row.ungradable = f.row.ungradable)
    (hscore : row.aiTotalScore = f.row.aiTotalScore)
    (hsettled : f.row.status.isSettled = true → row.status.isSettled = true)
    (hinitial : computations.filter (fun c => c.reason = .initial) =
      f.computations.filter fun c => c.reason = .initial) :
    HasScoreOf scores
      { f with row := row, computations := computations, marked := marked } a c where
  current := hcurrent.trans h.current
  pipeline := hpipeline.trans h.pipeline
  settled := hsettled h.settled
  reason := hreason.trans h.reason
  initial := hinitial.trans h.initial
  attempt := h.attempt
  score := hscore.trans h.score
  scored := h.scored
  computed := h.computed

theorem initial_append {c' : ComputationRow K} (h : c'.reason ≠ .initial) :
    (f.computations ++ [c']).filter (fun c => c.reason = .initial) =
      f.computations.filter fun c => c.reason = .initial := by
  rw [List.filter_append, List.filter_cons_of_neg (by simpa using h), List.filter_nil,
    List.append_nil]

theorem Sound.not_graded (hs : f.Sound scores) (h : f.row.status = .aiGrading) :
    ∀ a ∈ f.attempts, a.outcome ≠ some .graded := by
  intro a ha hgraded
  obtain ⟨c, hc⟩ := hs.graded a ha hgraded
  have hsettled := hc.settled
  rw [h] at hsettled
  exact absurd hsettled (by decide)

theorem Sound.not_marked (hs : f.Sound scores) (h : f.row.status ∉ decidedStatuses) :
    f.marked = false :=
  Bool.eq_false_iff.2 fun hm => h (hs.marked hm)

theorem Sound.not_running (hs : f.Sound scores) (h : f.IsGraded) :
    f.row.pipeline = .investigator → ∀ a ∈ f.attempts, a.outcome ≠ none := by
  intro hpipeline a ha houtcome
  obtain ⟨b, hb, _, hgraded⟩ := h
  exact hs.not_graded (hs.running hpipeline a ha houtcome).2 b hb hgraded

theorem foldr_max_range' (n : Nat) : (List.range' 1 n).foldr max 0 = n := by
  induction n with
  | zero => rfl
  | succ n ih =>
    have hswap : ∀ (l : List Nat) (k : Nat), (l ++ [k]).foldr max 0 = max (l.foldr max 0) k := by
      intro l k
      induction l with
      | nil => simp
      | cons b l ih => rw [List.cons_append, List.foldr_cons, ih, List.foldr_cons, max_assoc]
    rw [List.range'_concat, hswap, ih]
    omega

theorem Sound.number (hs : f.Sound scores) (h : f.IsNext a) :
    (f.attempts ++ [a]).map AttemptRow.attemptNo =
      List.range' 1 (f.attempts ++ [a]).length := by
  have hnumber := h.number
  rw [hs.numbers, foldr_max_range'] at hnumber
  rw [List.map_append, hs.numbers, List.map_singleton, hnumber, List.length_append,
    List.length_singleton, List.range'_concat]
  congr 2
  omega

theorem IsNext.ids (h : f.IsNext a) (hs : f.Sound scores) :
    ((f.attempts ++ [a]).map AttemptRow.id).Nodup := by
  rw [List.map_append, List.map_singleton]
  refine List.Nodup.append hs.ids (List.nodup_singleton _) fun id hid hmem => h.fresh ?_
  rwa [← List.mem_singleton.1 hmem]

theorem IsNext.idle_all (h : f.IsNext a) (hs : f.Sound scores)
    (hpipeline : f.row.pipeline = .investigator) : ∀ b ∈ f.attempts, b.outcome ≠ none :=
  fun b hb houtcome => h.idle b hb (hs.running hpipeline b hb houtcome).1 houtcome

theorem IsRunning.cases (h : f.IsRunning a) (hs : f.Sound scores) {g : AttemptRow K → AttemptRow K}
    {b : AttemptRow K} (hb : b ∈ updateRow AttemptRow.id f.attempts a.id g) :
    b = g a ∨ b ∈ f.attempts ∧ b.id ≠ a.id := by
  obtain ⟨b₀, hb₀, rfl⟩ := mem_updateRow.1 hb
  split_ifs with hid
  · exact .inl (congrArg g (List.inj_on_of_nodup_map hs.ids hb₀ h.attempt hid))
  · exact .inr ⟨hb₀, hid⟩

end PaperFile

/-! ## Every move keeps a file sound -/

section Sound

variable {scores : StoredInvestigation K → ScoreCoreOutput K → Prop} {f f' : PaperFile K}

theorem RowMove.keeps {r r' : ResultRow} (h : RowMove r r') :
    r'.currentAttemptId = r.currentAttemptId ∧ r'.pipeline = r.pipeline ∧
      r'.ungradable = r.ungradable ∧ r'.aiTotalScore = r.aiTotalScore := by
  rw [h.row]
  exact ⟨rfl, rfl, rfl, rfl⟩

theorem RowMove.settles {r r' : ResultRow} (h : RowMove r r') (hr : r.status.isSettled = true) :
    r'.status.isSettled = true := by
  rcases h.settled with heq | ⟨_, h'⟩
  · rwa [heq]
  · exact h'

theorem PaperFile.Sound.move (hs : f.Sound scores) {row : ResultRow} {marked : Bool}
    {computations : List (ComputationRow K)} (hmove : RowMove f.row row)
    (hteacher : marked = true → f.marked = true ∨ row.status ∈ decidedStatuses)
    (hinitial : computations.filter (fun c => c.reason = .initial) =
      f.computations.filter fun c => c.reason = .initial)
    (hungraded : computations ≠ f.computations → f.IsGraded) :
    PaperFile.Sound scores
      { f with row := row, computations := computations, marked := marked } := by
  obtain ⟨hcurrent, hpipeline, hreason, hscore⟩ := hmove.keeps
  refine ⟨hs.ids, hs.numbers, fun hp a ha houtcome => ?_, fun a ha hgraded => ?_, fun hnot => ?_,
    fun hm => ?_⟩
  · obtain ⟨hcurrent', hstatus⟩ := hs.running (hpipeline.symm.trans hp) a ha houtcome
    refine ⟨hcurrent.trans hcurrent', ?_⟩
    rcases hmove.settled with heq | ⟨hsettled, _⟩
    · exact heq.trans hstatus
    · rw [hstatus] at hsettled
      cases hsettled
  · obtain ⟨c, hc⟩ := hs.graded a ha hgraded
    exact ⟨c, hc.keeps marked hcurrent hpipeline hreason hscore hmove.settles hinitial⟩
  · obtain ⟨hcomputations, hscore'⟩ := hs.ungraded hnot
    refine ⟨?_, fun hp => hscore.trans (hscore' (hpipeline.symm.trans hp))⟩
    by_contra hne
    obtain ⟨a, ha, _, hgraded⟩ := hungraded fun heq => hne (heq.trans hcomputations)
    exact hnot a ha hgraded
  · rcases hteacher hm with hm | hdecided
    · exact hmove.decided (hs.marked hm)
    · exact hdecided

theorem ruleLayer_of_decided {r : ResultRow} (auto : Bool) (h : r.status ∈ decidedStatuses) :
    r.ruleLayer auto = r := by
  have hnot : ∀ t ∈ [ResultStatus.autoApproved, .auditPending, .flaggedForReview], r.status ≠ t := by
    intro t ht heq
    rw [heq] at h
    revert ht h
    cases t <;> decide
  rw [ResultRow.ruleLayer, if_neg (hnot .autoApproved (by decide)),
    ResultRow.advance_of_not_mem fun hmem =>
      hnot .flaggedForReview (by decide) (List.mem_singleton.1 hmem),
    ResultRow.advance_of_not_mem fun hmem =>
      hnot .auditPending (by decide) (List.mem_singleton.1 hmem), ite_self, ite_self]

theorem PaperFile.Sound.ruleLayer (hs : f.Sound scores) {c : ComputationRow K}
    (hgraded : f.IsGraded) (auto : Bool) (hlater : c.reason ≠ .initial) :
    PaperFile.Sound scores
      { f with row := f.row.ruleLayer auto, computations := f.computations ++ [c] } := by
  have hkeeps {α : Type} {g : ResultRow → α}
      (hg : ∀ (r : ResultRow) (status : ResultStatus) (flagged sampled : Bool),
        g { r with status := status, flagForReview := flagged, auditSampled := sampled } = g r) :
      g (f.row.ruleLayer auto) = g f.row := by
    rw [ResultRow.ruleLayer]
    split_ifs
    · rfl
    · exact ResultRow.advance_keeps (fun r => hg r _ _ _) f.row
    · exact hg f.row _ _ f.row.auditSampled
    · exact ResultRow.advance_keeps (fun r => hg r _ _ _) f.row
  have hcurrent := hkeeps (g := ResultRow.currentAttemptId) fun _ _ _ _ => rfl
  have hpipeline := hkeeps (g := ResultRow.pipeline) fun _ _ _ _ => rfl
  have hreason := hkeeps (g := ResultRow.ungradable) fun _ _ _ _ => rfl
  have hscore := hkeeps (g := ResultRow.aiTotalScore) fun _ _ _ _ => rfl
  have hstatus : f.row.status.isSettled = true → (f.row.ruleLayer auto).status.isSettled = true := by
    intro hsettled
    rw [ResultRow.ruleLayer]
    split_ifs
    · exact hsettled
    · by_cases hmem : f.row.status ∈ [ResultStatus.flaggedForReview]
      · rw [ResultRow.advance_of_mem hmem]
        rfl
      · rwa [ResultRow.advance_of_not_mem hmem]
    · rfl
    · by_cases hmem : f.row.status ∈ [ResultStatus.auditPending]
      · rw [ResultRow.advance_of_mem hmem]
        rfl
      · rwa [ResultRow.advance_of_not_mem hmem]
  refine ⟨hs.ids, hs.numbers, fun hp a ha houtcome => ?_, fun a ha ha' => ?_, fun hnot => ?_,
    fun hm => ?_⟩
  · exact absurd houtcome (hs.not_running hgraded (hpipeline.symm.trans hp) a ha)
  · obtain ⟨c₀, hc₀⟩ := hs.graded a ha ha'
    exact ⟨c₀, hc₀.keeps f.marked hcurrent hpipeline hreason hscore hstatus
      (PaperFile.initial_append hlater)⟩
  · obtain ⟨a, ha, _, ha'⟩ := hgraded
    exact absurd ha' (hnot a ha)
  · have hm : f.marked = true := hm
    show (f.row.ruleLayer auto).status ∈ decidedStatuses
    rw [ruleLayer_of_decided auto (hs.marked hm)]
    exact hs.marked hm

theorem RowMove.advance {source : List ResultStatus} {target : ResultStatus}
    {extra : ResultRow → ResultRow} (r : ResultRow)
    (hsource : ∀ s ∈ source, s.isSettled = true ∧ (target ∈ sampleStatuses → s ∈ sampleStatuses) ∧
      (s ∈ decidedStatuses → target ∈ decidedStatuses))
    (htarget : target.isSettled = true)
    (hextra : ∀ r : ResultRow, extra r = { r with
      flagForReview := (extra r).flagForReview
      auditSampled := (extra r).auditSampled
      finalizedComputationId := (extra r).finalizedComputationId }) :
    RowMove r (r.advance source target extra) := by
  by_cases hmem : r.status ∈ source
  · rw [ResultRow.advance_of_mem hmem]
    obtain ⟨hsettled, happroved, hdecided⟩ := hsource _ hmem
    have hstatus : (extra { r with status := target }).status = target := by rw [hextra]
    refine ⟨?_, .inr ⟨hsettled, ?_⟩, fun h => happroved ?_, fun h => ?_⟩
    · rw [hstatus]
      exact hextra _
    · rwa [hstatus]
    · rwa [hstatus] at h
    · rw [hstatus]
      exact hdecided h
  · rw [ResultRow.advance_of_not_mem hmem]
    exact ⟨rfl, .inl rfl, fun h => h, fun h => h⟩

theorem ResultRow.reviewed_rowMove (r : ResultRow) : RowMove r r.reviewed :=
  .advance r (by decide) rfl fun _ => rfl

theorem FileMove.sound (h : FileMove scores f f') (hs : f.Sound scores) : f'.Sound scores := by
  cases h with
  | moved move teacher => exact hs.move move teacher rfl fun h => absurd rfl h
  | @oneShot row pipeline keys status unapproved =>
    refine ⟨hs.ids, hs.numbers, fun hp => ?_, fun a ha hgraded => ?_, fun hnot => ?_, fun hm => ?_⟩
    · have hp : row.pipeline = .investigator := hp
      rw [keys.2, pipeline] at hp
      cases hp
    · obtain ⟨c, hc⟩ := hs.graded a ha hgraded
      have hp := hc.pipeline
      rw [pipeline] at hp
      cases hp
    · refine ⟨(hs.ungraded hnot).1, fun hp => ?_⟩
      have hp : row.pipeline = .investigator := hp
      rw [keys.2, pipeline] at hp
      cases hp
    · have hdecided := hs.marked hm
      exfalso
      revert status hdecided
      cases f.row.status <;> decide
  | rejudged graded computes computation later =>
    exact hs.ruleLayer graded _ (computation.reason ▸ later)
  | rechecked graded computes computation later editable =>
    exact hs.move f.row.reviewed_rowMove (fun h => .inl h)
      (PaperFile.initial_append (computation.reason ▸ later)) fun _ => graded
  | @opened a next outcome =>
    refine ⟨next.ids hs, hs.number next, fun hp b hb houtcome => ?_, fun b hb hgraded => ?_,
      fun hnot => ?_, fun hm => ?_⟩
    · rcases List.mem_append.1 hb with hb | hb
      · exact absurd houtcome (next.idle_all hs hp b hb)
      · rw [List.mem_singleton.1 hb]
        exact ⟨rfl, next.status⟩
    · rcases List.mem_append.1 hb with hb | hb
      · exact absurd hgraded (hs.not_graded next.status b hb)
      · rw [List.mem_singleton.1 hb, outcome] at hgraded
        cases hgraded
    · exact hs.ungraded fun b hb => hnot b (List.mem_append_left _ hb)
    · exact hs.marked hm
  | @scored a stored out c score drawn confidence modelUsed running pipeline computes scored
      computation =>
    have hclosed : a.close .graded none (some stored) =
        { a with outcome := some .graded, ungradable := none, investigation := some stored } :=
      if_pos running.outcome
    have hnone : f.computations = [] := (hs.ungraded (hs.not_graded running.status)).1
    have hscore : c.score = some score := computation.score.trans scored
    refine ⟨?_, ?_, fun hp b hb houtcome => ?_, fun b hb hgraded => ?_, fun hnot => ?_, fun hm => ?_⟩
    · show ((updateRow _ _ _ _).map _).Nodup
      rw [map_updateRow fun b => close_id _ _ _ b]
      exact hs.ids
    · show (updateRow _ _ _ _).map _ = List.range' 1 (updateRow _ _ _ _).length
      have hnumber : ∀ b : AttemptRow K,
          (b.close .graded none (some stored)).attemptNo = b.attemptNo := by
        intro b
        rw [AttemptRow.close]
        split_ifs <;> rfl
      rw [map_updateRow hnumber, updateRow, List.length_map]
      exact hs.numbers
    · rcases running.cases hs hb with rfl | ⟨hb, hne⟩
      · rw [hclosed] at houtcome
        cases houtcome
      · have hcurrent := (hs.running hp b hb houtcome).1
        rw [running.current] at hcurrent
        exact absurd (Option.some.inj hcurrent).symm hne
    · rcases running.cases hs hb with rfl | ⟨hb, _⟩
      · refine ⟨c, ⟨?_, pipeline, ?_, rfl, ?_, ?_, ?_, ?_, ?_⟩⟩
        · rw [close_id]
          exact running.current
        · show (if decide (out.outcome = .auto) then if drawn then ResultStatus.auditPending
            else .autoApproved else .flaggedForReview).isSettled = true
          split_ifs <;> rfl
        · show (f.computations ++ [c]).filter _ = _
          rw [hnone, List.nil_append,
            List.filter_cons_of_pos (by simpa using computation.reason), List.filter_nil]
        · rw [close_id, computation.attempt, running.current]
          rfl
        · exact hscore.symm
        · rw [hscore]
          rfl
        · rw [hclosed]
          exact ⟨stored, out, rfl, computes, computation.score, computation.breakdown⟩
      · exact absurd hgraded (hs.not_graded running.status b hb)
    · refine absurd ?_ (hnot (a.close .graded none (some stored)) ?_)
      · rw [hclosed]
      · exact mem_updateRow.2 ⟨a, running.attempt, if_pos rfl⟩
    · have hdecided := hs.marked hm
      rw [running.status] at hdecided
      exact absurd hdecided (by decide)
  | @failed a g u running fails =>
    refine ⟨?_, ?_, fun hp b hb houtcome => ?_, fun b hb hgraded => ?_, fun hnot => ?_, fun hm => ?_⟩
    · show ((updateRow _ _ _ _).map _).Nodup
      rw [map_updateRow fails.id]
      exact hs.ids
    · show (updateRow _ _ _ _).map _ = List.range' 1 (updateRow _ _ _ _).length
      rw [map_updateRow fails.number, updateRow, List.length_map]
      exact hs.numbers
    · rcases running.cases hs hb with rfl | ⟨hb, hne⟩
      · rw [fails.outcome a running.outcome] at houtcome
        cases houtcome
      · have hcurrent := (hs.running hp b hb houtcome).1
        rw [running.current] at hcurrent
        exact absurd (Option.some.inj hcurrent).symm hne
    · rcases running.cases hs hb with rfl | ⟨hb, _⟩
      · rw [fails.outcome a running.outcome] at hgraded
        cases hgraded
      · exact absurd hgraded (hs.not_graded running.status b hb)
    · exact hs.ungraded (hs.not_graded running.status)
    · have hdecided := hs.marked hm
      rw [running.status] at hdecided
      exact absurd hdecided (by decide)
  | @exhausted a u next outcome =>
    refine ⟨next.ids hs, hs.number next, fun hp b hb houtcome => ?_, fun b hb hgraded => ?_,
      fun hnot => ?_, fun hm => ?_⟩
    · rcases List.mem_append.1 hb with hb | hb
      · exact absurd houtcome (next.idle_all hs hp b hb)
      · rw [List.mem_singleton.1 hb, outcome] at houtcome
        cases houtcome
    · rcases List.mem_append.1 hb with hb | hb
      · exact absurd hgraded (hs.not_graded next.status b hb)
      · rw [List.mem_singleton.1 hb, outcome] at hgraded
        cases hgraded
    · exact hs.ungraded fun b hb => hnot b (List.mem_append_left _ hb)
    · have hdecided := hs.marked hm
      rw [next.status] at hdecided
      exact absurd hdecided (by decide)
  | requeued requeuable =>
    obtain ⟨hstatus, hreason, _⟩ := of_decide_eq_true requeuable
    refine ⟨hs.ids, hs.numbers, fun hp a ha houtcome => ?_, fun a ha hgraded => ?_, fun hnot => ?_,
      fun hm => ?_⟩
    · have hgrading := (hs.running hp a ha houtcome).2
      rw [hstatus] at hgrading
      cases hgrading
    · obtain ⟨c, hc⟩ := hs.graded a ha hgraded
      rw [hc.reason] at hreason
      cases hreason
    · exact hs.ungraded hnot
    · have hdecided := hs.marked hm
      rw [hstatus] at hdecided
      exact absurd hdecided (by decide)

/-- What stays of a file: the paper, every attempt that has ended, and the
score of the machine. -/
structure PaperFile.Follows (f f' : PaperFile K) : Prop where
  id : f'.row.id = f.row.id
  pipeline : f'.row.pipeline = f.row.pipeline
  ended : ∀ a ∈ f.attempts, a.outcome ≠ none → a ∈ f'.attempts
  score : f.row.pipeline = .investigator → ∀ score, f.row.aiTotalScore = some score →
    f'.row.aiTotalScore = some score

theorem PaperFile.Follows.refl (f : PaperFile K) : f.Follows f :=
  ⟨rfl, rfl, fun _ h _ => h, fun _ _ h => h⟩

theorem PaperFile.Follows.trans {f'' : PaperFile K} (h : f.Follows f') (h' : f'.Follows f'') :
    f.Follows f'' :=
  ⟨h'.id.trans h.id, h'.pipeline.trans h.pipeline,
    fun a ha houtcome => h'.ended a (h.ended a ha houtcome) houtcome,
    fun hp score hscore => h'.score (h.pipeline.trans hp) score (h.score hp score hscore)⟩

theorem PaperFile.IsRunning.ended {a b : AttemptRow K} (h : f.IsRunning a) (hs : f.Sound scores)
    {g : AttemptRow K → AttemptRow K} (hb : b ∈ f.attempts) (houtcome : b.outcome ≠ none) :
    b ∈ updateRow AttemptRow.id f.attempts a.id g := by
  refine mem_updateRow.2 ⟨b, hb, if_neg fun hid => houtcome ?_⟩
  rw [List.inj_on_of_nodup_map hs.ids hb h.attempt hid]
  exact h.outcome

theorem ResultRow.ruleLayer_keeps (auto : Bool) (r : ResultRow) :
    (r.ruleLayer auto).id = r.id ∧ (r.ruleLayer auto).pipeline = r.pipeline ∧
      (r.ruleLayer auto).aiTotalScore = r.aiTotalScore := by
  rw [ruleLayer]
  split_ifs
  · exact ⟨rfl, rfl, rfl⟩
  · exact ⟨advance_keeps (g := ResultRow.id) (fun _ => rfl) r,
      advance_keeps (g := ResultRow.pipeline) (fun _ => rfl) r,
      advance_keeps (g := ResultRow.aiTotalScore) (fun _ => rfl) r⟩
  · exact ⟨rfl, rfl, rfl⟩
  · exact ⟨advance_keeps (g := ResultRow.id) (fun _ => rfl) r,
      advance_keeps (g := ResultRow.pipeline) (fun _ => rfl) r,
      advance_keeps (g := ResultRow.aiTotalScore) (fun _ => rfl) r⟩

theorem FileMove.follows (h : FileMove scores f f') (hs : f.Sound scores) : f.Follows f' := by
  cases h with
  | @moved row marked move teacher =>
    obtain ⟨_, hpipeline, _, hscore⟩ := move.keeps
    have hid : row.id = f.row.id := by rw [move.row]
    exact ⟨hid, hpipeline, fun _ h _ => h, fun _ score h => hscore.trans h⟩
  | oneShot pipeline keys status unapproved =>
    refine ⟨keys.1, keys.2, fun _ h _ => h, fun hp => ?_⟩
    rw [pipeline] at hp
    cases hp
  | rejudged graded computes computation later =>
    obtain ⟨hid, hpipeline, hscore⟩ := f.row.ruleLayer_keeps _
    exact ⟨hid, hpipeline, fun _ h _ => h, fun _ score h => hscore.trans h⟩
  | rechecked graded computes computation later editable =>
    obtain ⟨_, hpipeline, _, hscore⟩ := f.row.reviewed_rowMove.keeps
    exact ⟨(ResultRow.reviewed_sameHead f.row).id, hpipeline, fun _ h _ => h,
      fun _ score h => hscore.trans h⟩
  | opened next outcome =>
    exact ⟨rfl, rfl, fun b hb _ => List.mem_append_left _ hb, fun _ _ h => h⟩
  | scored drawn confidence modelUsed running pipeline computes scored computation =>
    refine ⟨rfl, rfl, fun b hb houtcome => running.ended hs hb houtcome, fun hp score hscore => ?_⟩
    rw [(hs.ungraded (hs.not_graded running.status)).2 hp] at hscore
    cases hscore
  | failed u running fails =>
    exact ⟨rfl, rfl, fun b hb houtcome => running.ended hs hb houtcome, fun _ _ h => h⟩
  | exhausted u next outcome =>
    exact ⟨rfl, rfl, fun b hb _ => List.mem_append_left _ hb, fun _ _ h => h⟩
  | requeued requeuable => exact ⟨rfl, rfl, fun _ h _ => h, fun _ _ h => h⟩

end Sound

end Cine.Grading
