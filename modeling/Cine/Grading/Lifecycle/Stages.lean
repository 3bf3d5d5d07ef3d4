import Cine.Grading.Lifecycle.GradingRun

/-!
# The stages of a paper

What a move can do to the status of a paper, its place in the sample and the
reason why it was not graded, in one relation: `StageMove`.  Every invariant
of these columns is read off from it.
-/

namespace Cine.Grading

open Cine.Lib

/-! ## Stages -/

structure Stage where
  status : ResultStatus
  auditSampled : Bool
  ungradable : Option Ungradable
deriving DecidableEq

def ResultRow.stage (r : ResultRow) : Stage := ⟨r.status, r.auditSampled, r.ungradable⟩

/-- One change of a paper other than a top-up.  `drawn` says whether the
student is drawn for the sample. -/
inductive StageMove (drawn : Bool) (s : Stage) : Stage → Prop
  | stay : StageMove drawn s s
  | decided (auto : Bool) (status : s.status = .aiGrading) :
      StageMove drawn s
        { status := if auto then if drawn then .auditPending else .autoApproved
            else .flaggedForReview
          auditSampled := if auto && drawn then true else s.auditSampled
          ungradable := none }
  | failed (u : Ungradable) (status : s.status = .aiGrading) :
      StageMove drawn s { s with status := .flaggedForReview, ungradable := some u }
  | oneShotScored (status : s.status = .aiGrading) :
      StageMove drawn s { s with status := .aiGraded }
  | oneShotFlagged (status : s.status = .aiGraded) :
      StageMove drawn s { s with status := .flaggedForReview }
  | promoted (status : s.status = .flaggedForReview) (reason : s.ungradable = none) :
      StageMove drawn s { s with status := .autoApproved }
  | demoted (status : s.status = .autoApproved) :
      StageMove drawn s { s with status := .flaggedForReview }
  | dropped (status : s.status = .auditPending) :
      StageMove drawn s { s with status := .flaggedForReview, auditSampled := false }
  | reviewed (status : s.status ∈ [ResultStatus.autoApproved, .flaggedForReview, .auditPending]) :
      StageMove drawn s { s with status := .teacherReviewed }
  | published (status : s.status ∈ finalizableStatuses) :
      StageMove drawn s { s with status := .finalized }
  | requeued (status : s.status = .flaggedForReview) (reason : s.ungradable.isSome = true) :
      StageMove drawn s { s with status := .aiGrading, ungradable := none }

/-- The columns of a paper that no change touches. -/
structure SameKeys (r r' : ResultRow) : Prop where
  id : r'.id = r.id
  submissionId : r'.submissionId = r.submissionId
  pipeline : r'.pipeline = r.pipeline

theorem SameKeys.refl (r : ResultRow) : SameKeys r r := ⟨rfl, rfl, rfl⟩

theorem SameKeys.trans {r r' r'' : ResultRow} (h : SameKeys r r') (h' : SameKeys r' r'') :
    SameKeys r r'' :=
  ⟨h'.id.trans h.id, h'.submissionId.trans h.submissionId, h'.pipeline.trans h.pipeline⟩

structure PaperMove (drawn : Bool) (r r' : ResultRow) : Prop where
  paper : SameKeys r r'
  stage : StageMove drawn r.stage r'.stage

namespace PaperMove

variable {drawn : Bool} {r : ResultRow}

theorem stay (drawn : Bool) (r : ResultRow) : PaperMove drawn r r := ⟨.refl r, .stay⟩

theorem advance {source : List ResultStatus} {target : ResultStatus}
    {extra : ResultRow → ResultRow}
    (h : r.status ∈ source → PaperMove drawn r (extra { r with status := target })) :
    PaperMove drawn r (r.advance source target extra) := by
  by_cases hmem : r.status ∈ source
  · rw [ResultRow.advance_of_mem hmem]
    exact h hmem
  · rw [ResultRow.advance_of_not_mem hmem]
    exact stay drawn r

theorem ruleLayer (auto : Bool) : PaperMove drawn r (r.ruleLayer auto) := by
  rw [ResultRow.ruleLayer]
  split_ifs with hauto hreason hstatus
  · exact stay drawn r
  · refine advance fun hmem => ⟨⟨rfl, rfl, rfl⟩, .promoted (List.mem_singleton.1 hmem) ?_⟩
    show r.ungradable = none
    simpa using hreason
  · exact ⟨⟨rfl, rfl, rfl⟩, .demoted hstatus⟩
  · exact advance fun hmem => ⟨⟨rfl, rfl, rfl⟩, .dropped (List.mem_singleton.1 hmem)⟩

theorem looked {extra : ResultRow → ResultRow}
    (hextra : ∀ r, SameKeys r (extra r) ∧ (extra r).stage = r.stage) :
    PaperMove drawn r
      (r.advance [.autoApproved, .flaggedForReview] .teacherReviewed extra) := by
  refine advance fun hmem => ?_
  obtain ⟨hkeys, hstage⟩ := hextra { r with status := .teacherReviewed }
  refine ⟨⟨hkeys.id, hkeys.submissionId, hkeys.pipeline⟩, ?_⟩
  rw [hstage]
  refine .reviewed ?_
  show r.status ∈ _
  simp only [List.mem_cons, List.not_mem_nil, or_false] at hmem ⊢
  exact hmem.imp_right .inl

theorem reviewed : PaperMove drawn r r.reviewed := looked fun _ => ⟨⟨rfl, rfl, rfl⟩, rfl⟩

end PaperMove

/-! ## The stages after a change -/

/-- The papers after a change: every old one with a change of its own, and
new ones. -/
def Restaged {K : Type} (env : GradingEnv K) (db db' : Db K) : Prop :=
  ∃ (f : ResultRow → ResultRow) (rows : List ResultRow),
    db'.results = db.results.map f ++ rows ∧
      (∀ r ∈ db.results, PaperMove (db.drawnForAudit env r.id) r (f r)) ∧ ∀ r ∈ rows, r.IsNew

namespace Restaged

variable {K : Type} {env : GradingEnv K} {db db' : Db K}

theorem same (h : db'.results = db.results) : Restaged env db db' :=
  ⟨id, [], by rw [h, List.map_id, List.append_nil], fun _ _ => .stay _ _, fun _ h => absurd h List.not_mem_nil⟩

theorem update {id : String} {f : ResultRow → ResultRow}
    (hrows : db'.results = updateRow ResultRow.id db.results id f)
    (h : ∀ r ∈ db.results, r.id = id → PaperMove (db.drawnForAudit env r.id) r (f r)) :
    Restaged env db db' := by
  refine ⟨fun r => if r.id = id then f r else r, [], ?_, fun r hr => ?_,
    fun _ h => absurd h List.not_mem_nil⟩
  · rw [hrows, List.append_nil]
    rfl
  · dsimp only
    split_ifs with hid
    · exact h r hr hid
    · exact .stay _ _

end Restaged

section Change

variable {K : Type} [Number K] {env : GradingEnv K} {db db' : Db K}

theorem Write.restaged (hl : Linked db) (h : Write env db db') : Restaged env db db' := by
  cases h with
  | edit h => exact .same h.results
  | enlist n ids submissions new =>
    refine ⟨id, _, ?_, fun _ _ => .stay _ _, new⟩
    rw [List.map_id]
  | rejudge n result graded score computation later =>
    exact .update rfl fun q _ _ => .ruleLayer _
  | recheck n result editable graded score computation later =>
    exact .update rfl fun q _ _ => .reviewed
  | manual log result allowed owner => exact .update rfl fun q _ _ => .reviewed
  | accept resultId =>
    refine .update rfl fun q _ _ => .advance fun hmem => ⟨⟨rfl, rfl, rfl⟩, .reviewed ?_⟩
    show q.status ∈ _
    rw [List.mem_singleton.1 hmem]
    decide
  | publish resultId finalizable computationId =>
    refine .update rfl fun q _ _ => .advance fun hmem => ⟨⟨rfl, rfl, rfl⟩, .published ?_⟩
    rw [← List.mem_singleton.1 hmem] at finalizable
    exact finalizable
  | openAttempt n result status idle fresh row =>
    exact .update rfl fun q _ _ => ⟨⟨rfl, rfl, rfl⟩, .stay⟩
  | firstScore n confidence modelUsed running pipeline computes scored computation =>
    refine .update rfl fun q hq hid => ?_
    have hsame := eq_of_result hl.ids running.result hq hid
    rw [hid]
    exact ⟨⟨rfl, rfl, rfl⟩, .decided _ (hsame ▸ running.status)⟩
  | fail u stored running pipeline =>
    refine .update rfl fun q hq hid => ⟨⟨rfl, rfl, rfl⟩, .failed u ?_⟩
    rw [eq_of_result hl.ids running.result hq hid]
    exact running.status
  | exhaust u running =>
    refine .update rfl fun q hq hid => ⟨⟨rfl, rfl, rfl⟩, .failed u ?_⟩
    rw [eq_of_result hl.ids running.result hq hid]
    exact running.status
  | exhaustIdle u n result status idle fresh row =>
    rename_i r a
    have howner : a.gradingResultId = r.id := by rw [row]
    have hrows : ((db.updateResult r.id (ResultRow.failed u)).addAttempt a n).results =
        updateRow ResultRow.id db.results r.id fun q =>
          { q.failed u with currentAttemptId := some a.id } := by
      show updateRow ResultRow.id (updateRow ResultRow.id db.results r.id _) a.gradingResultId _ = _
      rw [howner]
      exact updateRow_updateRow fun _ => rfl
    refine .update hrows fun q hq hid => ⟨⟨rfl, rfl, rfl⟩, .failed u ?_⟩
    rw [eq_of_result hl.ids result hq hid]
    exact status
  | requeue result requeuable =>
    obtain ⟨hstatus, hreason, _⟩ := of_decide_eq_true requeuable
    refine .update rfl fun q hq hid => ?_
    rw [eq_of_result hl.ids result hq hid]
    refine ⟨⟨rfl, rfl, rfl⟩, .requeued hstatus ?_⟩
    obtain ⟨u, hu, _⟩ := Option.map_eq_some_iff.1 hreason
    exact Option.isSome_iff_exists.2 ⟨u, hu⟩

theorem Change.restaged (hl : Linked db) (h : Change env db db') : Restaged env db db' := by
  cases h with
  | write h => exact h.restaged hl
  | oneShotScore resultId score confidence modelUsed =>
    refine .update rfl fun q _ _ => ?_
    rw [ResultRow.oneShotScored]
    split_ifs
    · exact .advance fun hmem => ⟨⟨rfl, rfl, rfl⟩, .oneShotScored (List.mem_singleton.1 hmem)⟩
    · exact .stay _ _
  | oneShotFlag resultId confident =>
    refine .update rfl fun q _ _ => ?_
    rw [ResultRow.oneShotFlagged]
    split_ifs
    · exact .advance fun hmem => ⟨⟨rfl, rfl, rfl⟩, .oneShotFlagged (List.mem_singleton.1 hmem)⟩
    · exact .stay _ _
  | reviewed log result reviewable owner kind =>
    exact .update rfl fun q _ _ => .looked fun _ => ⟨⟨rfl, rfl, rfl⟩, rfl⟩
  | audited resultId =>
    refine .update rfl fun q _ _ => .advance fun hmem => ⟨⟨rfl, rfl, rfl⟩, .reviewed ?_⟩
    show q.status ∈ _
    rw [List.mem_singleton.1 hmem]
    decide
  | breakers keys noError => exact .same rfl

end Change

/-! ## Sound stages -/

namespace Stage

/-- A sampled paper is with the teacher or past it, and an approved one has
a score. -/
structure Sound (s : Stage) : Prop where
  sampled : s.auditSampled = true →
    s.status ∈ [ResultStatus.auditPending, .teacherReviewed, .finalized, .exported]
  approved : s.status ∈ [ResultStatus.autoApproved, .auditPending] → s.ungradable = none

variable {s : Stage}

theorem sound_of_unsampled (h : s.auditSampled = false)
    (happroved : s.status ∈ [ResultStatus.autoApproved, .auditPending] → s.ungradable = none) :
    s.Sound := by
  refine ⟨fun hs => ?_, happroved⟩
  rw [h] at hs
  cases hs

theorem Sound.unsampled (hs : s.Sound)
    (h : s.status ∈ [ResultStatus.aiGrading, .aiGraded, .autoApproved, .flaggedForReview]) :
    s.auditSampled = false := by
  by_contra hsampled
  have hlater := hs.sampled (Bool.eq_true_of_not_eq_false hsampled)
  revert h hlater
  cases s.status <;> decide

end Stage

variable {drawn : Bool} {s s' : Stage}

theorem StageMove.sound (h : StageMove drawn s s') (hs : s.Sound) : s'.Sound := by
  cases h with
  | stay => exact hs
  | decided auto status =>
    have hunsampled := hs.unsampled (by simp [status])
    cases auto with
    | false => exact Stage.sound_of_unsampled hunsampled fun _ => rfl
    | true =>
      cases drawn with
      | false => exact Stage.sound_of_unsampled hunsampled fun _ => rfl
      | true => exact ⟨fun _ => by simp, fun _ => rfl⟩
  | failed u status =>
    exact Stage.sound_of_unsampled (hs.unsampled (by simp [status])) (by simp)
  | oneShotScored status =>
    exact Stage.sound_of_unsampled (hs.unsampled (by simp [status])) (by simp)
  | oneShotFlagged status =>
    exact Stage.sound_of_unsampled (hs.unsampled (by simp [status])) (by simp)
  | promoted status reason =>
    exact Stage.sound_of_unsampled (hs.unsampled (by simp [status])) fun _ => reason
  | demoted status =>
    exact Stage.sound_of_unsampled (hs.unsampled (by simp [status])) (by simp)
  | dropped status => exact Stage.sound_of_unsampled rfl (by simp)
  | reviewed status => exact ⟨fun _ => by simp, by simp⟩
  | published status => exact ⟨fun _ => by simp, by simp⟩
  | requeued status reason =>
    exact Stage.sound_of_unsampled (hs.unsampled (by simp [status])) (by simp)

theorem sound_drawn {r : ResultRow} (h : r.stage.Sound) : r.drawn.stage.Sound := by
  by_cases hauto : r.status = .autoApproved
  · rw [drawn_of_auto hauto]
    refine ⟨fun _ => by simp [ResultRow.stage], fun _ => h.approved ?_⟩
    simp [ResultRow.stage, hauto]
  · rw [drawn_of_ne hauto]
    exact h

/-! ## The papers after a change -/

section Restaged

variable {K : Type} {env : GradingEnv K} {db db' : Db K}

theorem sound_of_new {r : ResultRow} (h : r.IsNew) : r.stage.Sound :=
  Stage.sound_of_unsampled h.unsampled fun _ => h.reason

theorem Restaged.sound (h : Restaged env db db') (hsound : ∀ r ∈ db.results, r.stage.Sound) :
    ∀ r ∈ db'.results, r.stage.Sound := by
  obtain ⟨f, rows, hrows, hmove, hnew⟩ := h
  intro r hr
  rw [hrows] at hr
  rcases List.mem_append.1 hr with hr | hr
  · obtain ⟨r₀, hr₀, rfl⟩ := List.mem_map.1 hr
    exact (hmove r₀ hr₀).stage.sound (hsound r₀ hr₀)
  · exact sound_of_new (hnew r hr)

theorem Restaged.result (h : Restaged env db db') (hl : Linked db') {id : String} {r : ResultRow}
    (hr : db.result id = some r) :
    ∃ r', db'.result id = some r' ∧ PaperMove (db.drawnForAudit env r.id) r r' := by
  obtain ⟨f, rows, hrows, hmove, _⟩ := h
  have hmem := mem_of_rowOf hr
  have hmoved := hmove r hmem
  refine ⟨f r, ?_, hmoved⟩
  have hid : (f r).id = id := hmoved.paper.id.trans (rowOf_key hr)
  rw [← hid]
  refine result_of_mem hl.ids ?_
  rw [hrows]
  exact List.mem_append_left rows (List.mem_map_of_mem hmem)

end Restaged

theorem linked_of_new {K : Type} {db : Db K} (hids : (db.results.map ResultRow.id).Nodup)
    (hsubmissions : (db.results.map ResultRow.submissionId).Nodup)
    (hpapers : (db.submissions.map SubmissionRow.id).Nodup)
    (hnew : ∀ r ∈ db.results, r.IsNew) (hattempts : db.attempts = [])
    (hcomputations : db.computations = []) (hreviews : db.reviews = []) : Linked db := by
  refine ⟨hids, hsubmissions, hpapers, fun r hr id hid => ?_, fun a ha => ?_, fun c hc => ?_,
    fun id hm => ?_⟩
  · rw [(hnew r hr).attempt] at hid
    cases hid
  · rw [hattempts] at ha
    cases ha
  · rw [hcomputations] at hc
    cases hc
  · rw [Db.hasManualScore, hreviews] at hm
    cases hm

end Cine.Grading
