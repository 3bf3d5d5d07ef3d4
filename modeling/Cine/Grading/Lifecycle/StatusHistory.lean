import Cine.Grading.Lifecycle.AttemptHistory
import Mathlib.Logic.Relation

/-!
# The history of the statuses

Every update of a status in the services names the statuses it may start from.
In whatever order the moves come, what they do to a paper is a path in the
table of `grading-transitions.ts`: `statuses_follow_table`.

`StageMove.leadsTo` is the step, up to three edges of the table, and
`Advances` what a run keeps of it.
-/

namespace Cine.Grading

open Cine.Lib Relation

/-- There is a path in the table. -/
def LeadsTo : ResultStatus → ResultStatus → Prop := ReflTransGen fun s t => canTransition s t = true

theorem leadsTo_edge {s t : ResultStatus} (h : canTransition s t = true) : LeadsTo s t := .single h

/-- A set of statuses that no edge leaves. -/
theorem LeadsTo.closed {statuses : List ResultStatus}
    (hclosed : ∀ s ∈ statuses, ∀ t, canTransition s t = true → t ∈ statuses) {s t : ResultStatus}
    (h : LeadsTo s t) (hs : s ∈ statuses) : t ∈ statuses := by
  induction h with
  | refl => exact hs
  | tail _ hedge ih => exact hclosed _ ih _ hedge

theorem LeadsTo.decided {s t : ResultStatus} (h : LeadsTo s t) (hs : s ∈ decidedStatuses) :
    t ∈ decidedStatuses :=
  h.closed (fun s hs t => by revert s hs; cases t <;> decide) hs

theorem LeadsTo.published {s t : ResultStatus} (h : LeadsTo s t) (hs : s.isPublished = true) :
    t.isPublished = true := by
  have hmem : ∀ u : ResultStatus,
      u.isPublished = true ↔ u ∈ [ResultStatus.finalized, .exported] := by
    intro u
    cases u <;> decide
  rw [hmem] at hs ⊢
  exact h.closed (fun s hs t => by revert s hs; cases t <;> decide) hs

/-- One change of a paper is a path of at most three edges. -/
theorem StageMove.leadsTo {drawn : Bool} {s s' : Stage} (h : StageMove drawn s s') :
    LeadsTo s.status s'.status := by
  cases h with
  | stay => exact .refl
  | decided auto status =>
    rw [status]
    apply (leadsTo_edge (t := .aiGraded) (by decide)).trans
    cases auto with
    | false => exact leadsTo_edge (t := .flaggedForReview) (by decide)
    | true =>
      have happroved : LeadsTo .aiGraded .autoApproved := leadsTo_edge (by decide)
      cases drawn with
      | false => exact happroved
      | true => exact happroved.trans (leadsTo_edge (t := .auditPending) (by decide))
  | failed u status =>
    rw [status]
    exact leadsTo_edge (t := .flaggedForReview) (by decide)
  | oneShotScored status =>
    rw [status]
    exact leadsTo_edge (t := .aiGraded) (by decide)
  | oneShotFlagged status =>
    rw [status]
    exact leadsTo_edge (t := .flaggedForReview) (by decide)
  | promoted status reason =>
    rw [status]
    exact leadsTo_edge (t := .autoApproved) (by decide)
  | demoted status =>
    rw [status]
    exact leadsTo_edge (t := .flaggedForReview) (by decide)
  | dropped status =>
    rw [status]
    exact leadsTo_edge (t := .flaggedForReview) (by decide)
  | reviewed status =>
    apply leadsTo_edge (t := .teacherReviewed)
    revert status
    cases s.status <;> decide
  | published status =>
    apply leadsTo_edge (t := .finalized)
    revert status
    cases s.status <;> decide
  | requeued status reason =>
    rw [status]
    exact leadsTo_edge (t := .aiGrading) (by decide)

/-- What a new paper has, and no change of a paper breaks. -/
structure Stage.Kept (P : Stage → Prop) : Prop where
  new : ∀ r : ResultRow, r.IsNew → P r.stage
  move : ∀ {drawn s s'}, StageMove drawn s s' → P s → P s'
  drawn : ∀ {r : ResultRow}, P r.stage → P r.drawn.stage

/-- The papers stay, their statuses follow the table, and what every change keeps is kept. -/
structure Advances (rows rows' : List ResultRow) : Prop where
  papers : ∀ r ∈ rows, ∃ r' ∈ rows', SameKeys r r' ∧ LeadsTo r.status r'.status
  kept : ∀ P, Stage.Kept P → (∀ r ∈ rows, P r.stage) → ∀ r ∈ rows', P r.stage

section Steps

theorem Advances.refl (rows : List ResultRow) : Advances rows rows :=
  ⟨fun r hr => ⟨r, hr, .refl r, .refl⟩, fun _ _ h => h⟩

theorem Advances.trans {rows rows' rows'' : List ResultRow} (h : Advances rows rows')
    (h' : Advances rows' rows'') : Advances rows rows'' := by
  constructor
  · intro r hr
    obtain ⟨r', hr', hkeys, hpath⟩ := h.papers r hr
    obtain ⟨r'', hr'', hkeys', hpath'⟩ := h'.papers r' hr'
    exact ⟨r'', hr'', hkeys.trans hkeys', hpath.trans hpath'⟩
  · intro P hP hall
    exact h'.kept P hP (h.kept P hP hall)

variable {K : Type} {env : GradingEnv K} {db db' : Db K}

theorem Restaged.advances (h : Restaged env db db') : Advances db.results db'.results := by
  obtain ⟨f, rows, hrows, hmove, hnew⟩ := h
  constructor
  · intro r hr
    refine ⟨f r, ?_, (hmove r hr).paper, (hmove r hr).stage.leadsTo⟩
    rw [hrows]
    exact List.mem_append_left _ (List.mem_map_of_mem hr)
  · intro P hP hall r hr
    rw [hrows] at hr
    rcases List.mem_append.1 hr with hr | hr
    · obtain ⟨r₀, hr₀, rfl⟩ := List.mem_map.1 hr
      exact hP.move (hmove r₀ hr₀).stage (hall r₀ hr₀)
    · exact hP.new r (hnew r hr)

theorem advances_toppedUp (db : Db K) (sessionId : String) :
    Advances db.results (db.toppedUp env sessionId).results := by
  have hdrawn : ∀ r : ResultRow, SameKeys r r.drawn ∧ LeadsTo r.status r.drawn.status := by
    intro r
    by_cases hauto : r.status = .autoApproved
    · rw [drawn_of_auto hauto]
      refine ⟨⟨rfl, rfl, rfl⟩, ?_⟩
      rw [hauto]
      exact leadsTo_edge (t := .auditPending) (by decide)
    · rw [drawn_of_ne hauto]
      exact ⟨.refl r, .refl⟩
  constructor
  · intro r hr
    refine ⟨_, List.mem_map_of_mem hr, ?_⟩
    split_ifs
    · exact hdrawn r
    · exact ⟨.refl r, .refl⟩
  · intro P hP hall r hr
    obtain ⟨r₀, hr₀, rfl⟩ := List.mem_map.1 hr
    split_ifs
    · exact hP.drawn (hall r₀ hr₀)
    · exact hall r₀ hr₀

variable [Number K]

theorem Changes.advances (hl : Linked db) (h : Changes env db db') :
    Advances db.results db'.results := by
  induction h with
  | refl => exact .refl _
  | tail hchanges hc ih => exact ih.trans (hc.restaged (Changes.linked hchanges hl)).advances

end Steps

/-! ## Runs -/

variable {K : Type} [Number K] {env : GradingEnv K} {trips : Nat → Nat → Bool}

/-- What a run from one state to a later one keeps. -/
def HasAdvanced (s s' : AuditDb K) : Prop :=
  Linked s'.db ∧ Advances s.db.results s'.db.results

theorem Move.advances (m : Move K) {s : AuditDb K} (hl : Linked s.db) :
    HasAdvanced s (m.run env trips s) := by
  have hchanges (m : Move K) (hm : m.samples = false) : HasAdvanced s (m.run env trips s) :=
    ⟨(Move.changes hl hm).linked hl, (Move.changes hl hm).advances hl⟩
  have htopUp (s : AuditDb K) (hl : Linked s.db) (sessionId : String) :
      HasAdvanced s ((Move.topUp sessionId).run env trips s) := by
    rw [run_topUp hl]
    exact ⟨hl.view.toppedUp env sessionId, advances_toppedUp s.view sessionId⟩
  cases hm : m.samples with
  | false => exact hchanges m hm
  | true =>
    cases m with
    | topUp sessionId => exact htopUp s hl sessionId
    | operation op =>
      cases op with
      | finishAttempt resultId attemptId stored =>
        -- The end of an attempt is its conclusion and, at times, a top-up behind it.
        have hview : ∀ s' x : AuditDb K, s'.view = x.view → HasAdvanced s x → HasAdvanced s s' := by
          intro s' x hsame hx
          have hlinked : Linked s'.view := hsame ▸ hx.1.view
          have hrows : s'.view.results = x.view.results := by rw [hsame]
          exact ⟨hlinked.breakers _ _, hrows ▸ hx.2⟩
        obtain ⟨hl₁, hconclude⟩ := hchanges (.concludeAttempt resultId attemptId stored) rfl
        rcases @run_finishAttempt _ _ env trips s hl resultId attemptId stored
          with hsame | ⟨sessionId, htop⟩
        · exact hview _ _ hsame ⟨hl₁, hconclude⟩
        · obtain ⟨hl₂, htopped⟩ := htopUp _ hl₁ sessionId
          exact hview _ _ htop ⟨hl₂, hconclude.trans htopped⟩
      | _ => cases hm
    | _ => cases hm

/-- Moves in any order lead from one state to another. -/
abbrev MovesTo (env : GradingEnv K) (trips : Nat → Nat → Bool) (s s' : AuditDb K) : Prop :=
  Reach (fun s m => Move.run env trips s m) (fun _ _ => True) s s'

theorem Reach.advances {start s : AuditDb K} (hl : Linked start.db)
    (h : MovesTo env trips start s) : HasAdvanced start s := by
  induction h with
  | start => exact ⟨hl, .refl _⟩
  | move m _ _ ih =>
    obtain ⟨hl', hnext⟩ := m.advances ih.1
    exact ⟨hl', ih.2.trans hnext⟩

/-- From one state of a run to a later one no paper is lost, its status follows the table, and
what the teacher has decided or what is published stays so. -/
theorem statuses_follow_table {start s s' : AuditDb K} (hstart : Linked start.db)
    (hrun : MovesTo env trips start s) (hlater : MovesTo env trips s s') :
    ∀ r ∈ s.db.results, ∃ r' ∈ s'.db.results, SameKeys r r' ∧ LeadsTo r.status r'.status ∧
      (r.status ∈ decidedStatuses → r'.status ∈ decidedStatuses) ∧
        (r.status.isPublished = true → r'.status.isPublished = true) := by
  intro r hr
  have hlinked := (Reach.advances hstart hrun).1
  obtain ⟨r', hr', hkeys, hpath⟩ := (Reach.advances hlinked hlater).2.papers r hr
  exact ⟨r', hr', hkeys, hpath, hpath.decided, hpath.published⟩

theorem abandonedJob_follows_table :
    (historyAfter abandonedJob).db.results.map ResultRow.status =
      [.auditPending, .autoApproved] ∧
    ∀ r ∈ (noAudits oneStudent).db.results, ∃ r' ∈ (historyAfter abandonedJob).db.results,
      SameKeys r r' ∧ LeadsTo r.status r'.status ∧
        (r.status ∈ decidedStatuses → r'.status ∈ decidedStatuses) ∧
          (r.status.isPublished = true → r'.status.isPublished = true) :=
  ⟨by decide +kernel, statuses_follow_table oneStudent_linked .start
    (reach_foldl (by simp [AllAllowed, abandonedJob, FirstRun.latePaper]))⟩

/-- A paper is sampled just when it waits for the audit, until the teacher decides. -/
structure Stage.Audited (s : Stage) : Prop extends s.Sound where
  pending : s.status = .auditPending → s.auditSampled = true

theorem audited_kept : Stage.Kept Stage.Audited where
  new r hr := ⟨sound_of_new hr, fun h => by simp [ResultRow.stage, hr.status] at h⟩
  move h hs := by
    refine ⟨h.sound hs.toSound, ?_⟩
    cases h with
    | stay => exact hs.pending
    | decided auto status =>
      cases auto with
      | false => simp
      | true => split_ifs <;> simp_all
    | _ => simp
  drawn {r} h := by
    refine ⟨sound_drawn h.toSound, ?_⟩
    by_cases hauto : r.status = .autoApproved
    · rw [drawn_of_auto hauto]
      exact fun _ => rfl
    · rw [drawn_of_ne hauto]
      exact h.pending

theorem Reach.audited {start s : AuditDb K} (hstart : start.db.Enlisted)
    (hrun : MovesTo env trips start s) : ∀ r ∈ s.db.results, r.stage.Audited :=
  (Reach.advances hstart.linked hrun).2.kept _ audited_kept fun r hr =>
    audited_kept.new r (hstart.new r hr)

/-- In every state of a run a paper that waits for the audit is sampled, a sampled one waits or
has been decided by the teacher, and an approved one has no reason why it was not graded. -/
theorem sampled_papers_reviewed {start s : AuditDb K} (hstart : start.db.Enlisted)
    (hrun : MovesTo env trips start s) :
    ∀ r ∈ s.db.results,
      (r.auditSampled = true → r.status = .auditPending ∨ r.status ∈ decidedStatuses) ∧
        (r.status = .auditPending → r.auditSampled = true) ∧
          (r.status ∈ sampleStatuses → r.ungradable = none) := by
  intro r hr
  have haudited := Reach.audited hstart hrun r hr
  refine ⟨fun hsampled => ?_, haudited.pending, haudited.approved⟩
  have hlater := haudited.sampled hsampled
  simpa [decidedStatuses, ResultRow.stage] using hlater

theorem abandonedJob_sampled_reviewed :
    (historyAfter abandonedJob).db.results.map ResultRow.auditSampled = [true, false] ∧
    ∀ r ∈ (historyAfter abandonedJob).db.results,
      (r.auditSampled = true → r.status = .auditPending ∨ r.status ∈ decidedStatuses) ∧
        (r.status = .auditPending → r.auditSampled = true) ∧
          (r.status ∈ sampleStatuses → r.ungradable = none) :=
  ⟨by decide +kernel, sampled_papers_reviewed oneStudent_enlisted
    (reach_foldl (by simp [AllAllowed, abandonedJob, FirstRun.latePaper]))⟩

end Cine.Grading
