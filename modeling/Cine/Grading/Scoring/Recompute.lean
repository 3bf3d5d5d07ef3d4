import Cine.Grading.Scoring.UpToDate

/-!
# A recomputation brings its scope up to date

`recomputeOne_spec` says what one recomputation writes.  The loop of
`recomputeForTeacher` excuses the papers that are still to come:
`recomputeForTeacher_consistent` starts with the stale papers inside the
scope and ends with none.

The moves of the status that follow a recomputation are `Quiet`.
-/

namespace Cine.Grading

open Cine.Lib

variable {K : Type}

/-! ## Quiet steps -/

/-- A step that only moves the status of papers. -/
structure Quiet (db db' : Db K) : Prop where
  tables : db' = { db with results := db'.results }
  ids : db'.results.map ResultRow.id = db.results.map ResultRow.id
  submissions : db'.results.map ResultRow.submissionId = db.results.map ResultRow.submissionId
  moves : ∀ r' ∈ db'.results, ∃ r ∈ db.results, QuietMove r r'

namespace Quiet

variable {db db' db'' : Db K}

theorem refl (db : Db K) : Quiet db db := ⟨rfl, rfl, rfl, fun r hr => ⟨r, hr, .refl r⟩⟩

theorem trans (h : Quiet db db') (h' : Quiet db' db'') : Quiet db db'' := by
  refine ⟨?_, h'.ids.trans h.ids, h'.submissions.trans h.submissions, fun r'' hr'' => ?_⟩
  · have htables := h'.tables
    rw [h.tables] at htables
    exact htables
  · obtain ⟨r', hr', hmove'⟩ := h'.moves r'' hr''
    obtain ⟨r, hr, hmove⟩ := h.moves r' hr'
    exact ⟨r, hr, hmove.trans hmove'⟩

theorem tidy (h : Quiet db db') (htidy : Tidy db) : Tidy db' := by
  rw [h.tables]
  exact ⟨htidy.ruleKeys, htidy.rowIds, htidy.uses, htidy.rowRules⟩

theorem samePaper (h : Quiet db db') {r r' : ResultRow} (hmove : QuietMove r r') :
    SamePaper db db' r r' := by
  rw [h.tables]
  exact ⟨hmove, rfl, rfl, fun hm => hm, rfl, rfl, fun _ _ _ => rfl, fun _ _ _ => rfl⟩

end Quiet

section Status

variable {db : Db K} {resultId : String}

theorem result_of_mem (hids : (db.results.map ResultRow.id).Nodup) {r : ResultRow}
    (hr : r ∈ db.results) : db.result r.id = some r :=
  rowOf_of_mem hids hr

theorem advanceStatus_quiet (hids : (db.results.map ResultRow.id).Nodup)
    {source : List ResultStatus} {target : ResultStatus} {extra : ResultRow → ResultRow}
    (hmove : ∀ r, r.status ∈ source → QuietMove r (extra { r with status := target })) :
    Ensures (advanceStatus resultId source target extra) db fun _ db' => Quiet db db' := by
  rw [advanceStatus]
  refine ensures_bind (ensures_get ?_)
  refine ensures_ite (fun hstatus => ?_) fun _ => ensures_pure (.refl db)
  refine ensures_bind (ensures_set (ensures_pure ?_))
  have hrow : ∀ r ∈ db.results, QuietMove r
      (if r.id = resultId then extra { r with status := target } else r) := by
    intro r hr
    split_ifs with hid
    · refine hmove r ?_
      rw [← hid, result_of_mem hids hr] at hstatus
      simpa using hstatus
    · exact .refl r
  refine ⟨rfl, ?_, ?_, fun r' hr' => ?_⟩
  · show (updateRow _ _ _ _).map _ = _
    rw [updateRow, List.map_map]
    exact List.map_congr_left fun r hr => (hrow r hr).id_eq
  · show (updateRow _ _ _ _).map _ = _
    rw [updateRow, List.map_map]
    refine List.map_congr_left fun r hr => ?_
    rw [Function.comp_apply, (hrow r hr).row]
  · obtain ⟨r, hr, rfl⟩ := mem_updateRow.1 hr'
    exact ⟨r, hr, hrow r hr⟩

theorem quietMove_of_settled {r r' : ResultRow} {source : List ResultStatus}
    (hrow : r' = { r with
      status := r'.status
      flagForReview := r'.flagForReview
      auditSampled := r'.auditSampled
      finalizedComputationId := r'.finalizedComputationId })
    (hstatus : r.status ∈ source) (htarget : r'.status.isSettled = true)
    (hsource : ∀ s ∈ source, s.isPublished = false) : QuietMove r r' := by
  refine ⟨hrow, fun _ => htarget, fun hp => ?_⟩
  rw [hsource _ hstatus] at hp
  cases hp

theorem drawIntoAudit_quiet (hids : (db.results.map ResultRow.id).Nodup) :
    Ensures (drawIntoAudit resultId) db fun _ db' => Quiet db db' := by
  rw [drawIntoAudit]
  refine (advanceStatus_quiet hids fun r hr => ?_).bind fun _ db' h' => ensures_pure h'
  exact quietMove_of_settled rfl hr rfl (by decide)

theorem ruleLayerTransition_quiet [Number K] (hids : (db.results.map ResultRow.id).Nodup)
    (out : ScoreCoreOutput K) :
    Ensures (ruleLayerTransition resultId out) db fun _ db' => Quiet db db' := by
  rw [ruleLayerTransition]
  refine ensures_ite (fun _ => ?_) fun _ => ?_
  · refine ensures_bind (ensures_get ?_)
    refine ensures_ite (fun _ => ensures_pure (.refl db)) fun _ => ?_
    refine (advanceStatus_quiet hids fun r hr => ?_).bind fun _ db' h' => ensures_pure h'
    exact quietMove_of_settled rfl hr rfl (by decide)
  · refine (advanceStatus_quiet hids fun r hr => ?_).bind fun demoted db₁ h₁ => ?_
    · exact quietMove_of_settled rfl hr rfl (by decide)
    · refine ensures_ite (fun _ => ensures_pure h₁) fun _ => ?_
      have hids₁ : (db₁.results.map ResultRow.id).Nodup := h₁.ids ▸ hids
      refine (advanceStatus_quiet hids₁ fun r hr => ?_).bind fun _ db' h' =>
        ensures_pure (h₁.trans h')
      exact quietMove_of_settled rfl hr rfl (by decide)

theorem topUpSessionAudit_quiet (env : GradingEnv K) (sessionId : String)
    (hids : (db.results.map ResultRow.id).Nodup) :
    Ensures (topUpSessionAudit env sessionId) db fun _ db' => Quiet db db' := by
  rw [topUpSessionAudit]
  refine ensures_ite (fun _ => ensures_pure (.refl db)) fun _ => ?_
  refine ensures_bind (ensures_get ?_)
  refine ensures_ite (fun _ => ensures_pure (.refl db)) fun _ => ?_
  refine ensures_forM (I := fun _ db' => Quiet db db') (fun p rest db' h' => ?_) _ (.refl db)
  exact (drawIntoAudit_quiet (h'.ids ▸ hids)).mono fun _ db'' h'' => h'.trans h''

end Status

section Consistency

variable [Number K] {env : GradingEnv K} {db db' : Db K} {stale stale' : String → Prop}

theorem PaperOk.mono {p q : Prop} {r : ResultRow} (h : PaperOk env p db r)
    (hpq : db.IsOpen r → p → q) : PaperOk env q db r :=
  ⟨h.owner, h.settled, h.ruler, fun hopen hq => h.upToDate hopen fun hp => hq (hpq hopen hp)⟩

theorem Consistent.quiet (h : Consistent env stale db) (hq : Quiet db db') :
    Consistent env stale db' := by
  refine ⟨hq.tidy h.tidy, hq.ids ▸ h.ids, hq.submissions ▸ h.submissions, fun r' hr' => ?_⟩
  obtain ⟨r, hr, hmove⟩ := hq.moves r' hr'
  rw [hmove.id_eq]
  refine (h.papers r hr).carry (hq.samePaper hmove) ?_ fun _ hstale => ⟨hstale, ?_⟩
  · intro id a _ ha _
    rw [hq.tables]
    exact ha
  · refine keepsView_of_table h.tidy (hq.tidy h.tidy) ?_ ?_
    · intro rubric _
      rw [hq.tables]
      rfl
    · rw [hq.tables]
      rfl

/-! ## One recomputation -/

/-- What one recomputation of `resultId` reads and writes. -/
structure Recomputed (env : GradingEnv K) (resultId : String) (out : ScoreCoreOutput K)
    (r : ResultRow) (c : ComputationRow K) (db db' : Db K) : Prop where
  result : db.result resultId = some r
  input : ∃ session rubric stored, db.PaperRows r session rubric stored ∧
    (db.paperInput env r session rubric stored (db.firstCases session.id)).computeScore = .ok out
  owner : c.gradingResultId = resultId
  view : c.view = out.view
  tables : db' = { db with computations := db.computations ++ [c], drawnIds := db'.drawnIds }

omit [Number K] in
theorem insertComputation_spec (ctx : ScoreContext K) (reason : ComputationReason)
    (out : ScoreCoreOutput K) :
    Ensures (insertComputation env ctx reason out) db fun _ db' =>
      ∃ c : ComputationRow K, c.gradingResultId = ctx.resultId ∧ c.view = out.view ∧
        db' = { db with computations := db.computations ++ [c], drawnIds := db'.drawnIds } := by
  rw [insertComputation]
  refine (freshId_spec env _ db).bind fun id db₁ h₁ => ?_
  obtain ⟨_, rfl⟩ := h₁
  exact ensures_bind (ensures_modify (ensures_pure ⟨_, rfl, rfl, rfl⟩))

theorem compute_spec {ctx : ScoreContext K} {out : ScoreCoreOutput K}
    (h : db.compute env ctx id = .ok out) : ∃ stored, ctx.stored = some stored ∧
      (db.scoreInput env ctx stored (db.snapshots ctx.rubricName)).computeScore = .ok out := by
  rw [Db.compute] at h
  split at h
  · cases h
  · rename_i stored hstored
    refine ⟨stored, hstored, ?_⟩
    split at h
    · rename_i hout
      cases h
      exact hout
    · cases h

theorem recomputeOne_spec (resultId : String) (reason : ComputationReason) :
    Ensures (recomputeOne env resultId reason) db fun out db' =>
      ∃ r c, Recomputed env resultId out r c db db' := by
  rw [recomputeOne]
  refine ensures_bind (ensures_get ?_)
  refine ensures_bind (ensures_lift fun ctx hctx => ?_)
  obtain ⟨r, session, rubric, hr, hsession, hrubric, rfl⟩ := rows_of_loadScoreContext hctx
  refine ensures_bind (ensures_lift fun out hout => ?_)
  obtain ⟨stored, hstored, hscore⟩ := compute_spec hout
  refine (insertComputation_spec _ reason out).bind fun _ db' h' => ensures_pure ?_
  obtain ⟨c, howner, hview, htables⟩ := h'
  have hresult : r.id = resultId := rowOf_key hr
  have hinvestigation : db.gradedInvestigation r = some stored := by
    have hcontext : (none : Option (StoredInvestigation K)).or (db.gradedInvestigation r) =
      some stored := hstored
    rwa [Option.none_or] at hcontext
  exact ⟨r, c, hr, ⟨session, rubric, stored, ⟨hsession, hrubric, hinvestigation⟩, hscore⟩,
    howner.trans hresult, hview, htables⟩

omit [Number K] in
theorem latestComputation_append {c : ComputationRow K} {n : Nat} (resultId : String) :
    Db.latestComputation
        { db with computations := db.computations ++ [c], drawnIds := n } resultId =
      if c.gradingResultId = resultId then some c else db.latestComputation resultId := by
  rw [Db.latestComputation, Db.latestComputation, List.filter_append]
  split_ifs with h
  · simp [h]
  · simp [h]

theorem Consistent.recomputed (h : Consistent env stale db) {resultId : String}
    {out : ScoreCoreOutput K} {r : ResultRow} {c : ComputationRow K}
    (hstep : Recomputed env resultId out r c db db') :
    Consistent env (fun id => stale id ∧ id ≠ resultId) db' := by
  obtain ⟨hresult, ⟨session, rubric, stored, hrows, hout⟩, howner, hview, htables⟩ := hstep
  rw [htables]
  have htidy := h.tidy
  refine ⟨⟨htidy.ruleKeys, htidy.rowIds, htidy.uses, htidy.rowRules⟩, h.ids, h.submissions,
    fun r' hr' => ?_⟩
  have hok := h.papers r' hr'
  by_cases hid : r'.id = resultId
  · -- The recomputed paper: its newest computation is the new one.
    have hsame : r' = r := by
      rw [← hid, result_of_mem h.ids hr'] at hresult
      exact Option.some.inj hresult
    have hopen : ∀ {n : Nat}, Db.IsOpen
        { db with computations := db.computations ++ [c], drawnIds := n } r' → db.IsOpen r' :=
      fun h => ⟨h.pipeline, h.graded, h.unpublished, h.unmarked⟩
    refine ⟨hok.owner, hok.settled, fun h => hok.ruler (hopen h), fun h _ => ?_⟩
    have hruler := hok.ruler (hopen h) session (hsame ▸ hrows.session)
    refine ⟨session, rubric, stored, out, c, hsame ▸ ⟨hrows.session, hrows.rubric, hrows.stored⟩,
      ?_, ?_, hview⟩
    · rw [← hout, ← hsame, ← hruler]
      rfl
    · rw [latestComputation_append, if_pos (howner.trans hid.symm)]
  · have hne : c.gradingResultId ≠ r'.id := fun heq => hid (heq.symm.trans howner)
    refine hok.carry ⟨.refl r', rfl, ?_, fun hm => hm, rfl, rfl, fun _ _ _ => rfl,
      fun _ _ _ => rfl⟩ (fun _ _ _ ha _ => ha) fun _ hstale => ⟨fun hs => hstale ⟨hs, hid⟩, ?_⟩
    · rw [latestComputation_append, if_neg hne]
    · exact keepsView_of_table htidy ⟨htidy.ruleKeys, htidy.rowIds, htidy.uses, htidy.rowRules⟩
        (fun _ _ => rfl) rfl

/-! ## The recomputation of a scope -/

theorem isRecomputable_of_isOpen {p : Prop} {r : ResultRow} (h : PaperOk env p db r)
    (hopen : db.IsOpen r) : db.isRecomputable r = true := by
  have hstatus : r.status ∈ recomputedStatuses := by
    have hsettled := (h.settled hopen.graded).1
    have hunpublished := hopen.unpublished
    revert hsettled hunpublished
    cases r.status <;> decide
  obtain ⟨a, ha, houtcome⟩ := hopen.graded
  have hattempt : (r.currentAttemptId.bind db.attempt).any
      (fun a => decide (a.outcome = some .graded)) = true := by
    show Option.any _ (db.currentAttempt r) = true
    rw [ha, Option.any_some]
    exact decide_eq_true houtcome
  rw [Db.isRecomputable]
  exact decide_eq_true ⟨hopen.pipeline, hstatus, hattempt, hopen.unmarked⟩

theorem recomputeForTeacher_consistent {scope : RecomputeScope} (h : Consistent env stale db)
    (hscope : ∀ r ∈ db.results, db.IsOpen r → stale r.id → db.inScope scope r = true)
    (reason : ComputationReason) :
    Ensures (recomputeForTeacher env reason scope) db fun _ db' =>
      Consistent env (fun _ => False) db' := by
  rw [recomputeForTeacher]
  refine ensures_bind (ensures_get ?_)
  set ids := (sortByKey ResultRow.id
    (db.results.filter fun r => db.isRecomputable r ∧ db.inScope scope r)).map ResultRow.id
    with hids
  have hstart : Consistent env (fun id => id ∈ ids) db := by
    refine ⟨h.tidy, h.ids, h.submissions, fun r hr => (h.papers r hr).mono fun hopen hstale => ?_⟩
    rw [hids]
    refine List.mem_map_of_mem (mem_sortByKey.2 (List.mem_filter.2 ⟨hr, ?_⟩))
    exact decide_eq_true
      ⟨isRecomputable_of_isOpen (h.papers r hr) hopen, hscope r hr hopen hstale⟩
  refine (ensures_forM (I := fun rest db' => Consistent env (fun id => id ∈ rest) db')
    (fun id rest db₁ h₁ => ?_) ids hstart).mono fun _ db' h' => ?_
  · refine (recomputeOne_spec id reason).bind fun out db₂ h₂ => ?_
    obtain ⟨r, c, hstep⟩ := h₂
    have h₂ := h₁.recomputed hstep
    refine (ruleLayerTransition_quiet h₂.ids out).mono fun _ db₃ hquiet => ?_
    have h₃ := h₂.quiet hquiet
    refine ⟨h₃.tidy, h₃.ids, h₃.submissions, fun r' hr' => (h₃.papers r' hr').mono fun _ hstale => ?_⟩
    rcases List.mem_cons.1 hstale.1 with heq | hrest
    · exact absurd heq hstale.2
    · exact hrest
  · exact ⟨h'.tidy, h'.ids, h'.submissions, fun r hr =>
      (h'.papers r hr).mono fun _ hmem => absurd hmem List.not_mem_nil⟩

end Consistency

end Cine.Grading
