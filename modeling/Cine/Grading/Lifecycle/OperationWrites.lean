import Cine.Grading.Lifecycle.RuleWrites

/-!
# The operations on papers as writes

The operations of a teacher on a paper and on a session, and those on an
attempt.

`finishAttempt` ends with the sample of its session, which is not a write of
this kind: `concludeAttempt` is everything before it.
-/

namespace Cine.Grading

open Cine.Lib

variable {K : Type} [Number K] {env : GradingEnv K} {db : Db K} {resultId : String}

/-! ## The operations of a teacher on papers -/

omit [Number K] in
theorem lockEditable_row (resultId : String) (alsoAllowed : List ResultStatus) :
    Ensures (lockEditable resultId alsoAllowed) db fun row db' =>
      db' = db ∧ db.result resultId = some row ∧ row.status ∈ editableStatuses ++ alsoAllowed := by
  rw [lockEditable]
  refine (findResultForOwner_spec resultId).bind fun row db₁ h₁ => ?_
  obtain ⟨rfl, hrow⟩ := h₁
  refine ensures_ite (fun _ => ensures_bind ensures_throw) fun hallowed => ?_
  refine ensures_pure ⟨rfl, hrow, ?_⟩
  rw [List.mem_append]
  by_contra hneither
  exact hallowed (not_or.1 hneither)

theorem setErrorException_writes (h : Linked db) (resultId ruleId : String)
    (direction : ErrorException) :
    Ensures (setErrorException env resultId ruleId direction) db fun _ db' =>
      Writes env db db' := by
  rw [setErrorException]
  refine (findResultForOwner_spec resultId).bind fun _ db₁ h₁ => ?_
  obtain ⟨rfl, _⟩ := h₁
  refine (ownedRule_spec ruleId).bind fun _ db₂ h₂ => ?_
  obtain ⟨rfl, _⟩ := h₂
  refine (lockEditable_row resultId []).bind fun row db₃ h₃ => ?_
  obtain ⟨rfl, hrow, heditable⟩ := h₃
  refine ensures_ite (fun _ => ensures_bind ensures_throw) fun _ => ?_
  refine ensures_bind (ensures_get ?_)
  refine ensures_ite (fun _ => ensures_bind ensures_throw) fun _ => ?_
  rw [writeReview]
  refine ensures_bind (ensures_modify ?_)
  set exception : ReviewRow := ⟨resultId, .errorException, none, some ruleId, some direction⟩
    with hexception
  have hedit : Edit db₃ { db₃ with reviews := db₃.reviews ++ [exception] } := by
    refine Edit.reviews db₃ fun t ht => ?_
    rw [List.mem_singleton.1 ht]
    rintro ⟨⟩
  refine (recomputeOne_row resultId _).bind fun out db₄ h₄ => ?_
  obtain ⟨r, stored, c, n, rfl, hr, hgraded, hscore, hc, rfl⟩ := h₄
  have hids : (({ db₃ with reviews := db₃.reviews ++ [exception] } : Db K).addComputation c
      n |>.results.map ResultRow.id).Nodup := h.ids
  refine (markReviewed_row hids).bind fun _ db₅ h₅ => ensures_pure ?_
  have hsame : r = row := by
    have hr' : db₃.result r.id = some r := hr
    rw [hrow] at hr'
    exact (Option.some.inj hr').symm
  rw [List.append_nil] at heditable
  rw [h₅]
  refine Relation.ReflTransGen.head (.edit hedit) (.single ?_)
  exact .recheck n hr (hsame ▸ heditable) hgraded hscore hc (by rintro ⟨⟩)

variable {r : ResultRow} {a : AttemptRow K}

omit [Number K] in
theorem reviewed_of_published (h : r.status ∈ publishedStatuses) : r.reviewed = r := by
  refine ResultRow.advance_of_not_mem fun hmem => ?_
  revert h hmem
  cases r.status <;> decide

theorem setManualScore_writes (h : Linked db) (resultId : String) (hundredths : Int) :
    Ensures (setManualScore resultId hundredths) db fun _ db' => Writes env db db' := by
  rw [setManualScore]
  refine (findResultForOwner_spec resultId).bind fun _ db₁ h₁ => ?_
  obtain ⟨rfl, _⟩ := h₁
  refine (lockEditable_row resultId publishedStatuses).bind fun row db₂ h₂ => ?_
  obtain ⟨rfl, hrow, hallowed⟩ := h₂
  have hid : row.id = resultId := rowOf_key hrow
  subst hid
  set review : ReviewRow := ⟨row.id, .manualScore, some hundredths, none, none⟩ with hreview
  refine ensures_bind (ensures_get ?_)
  refine ensures_ite (fun _ => ensures_bind ensures_throw) fun _ => ?_
  refine ensures_ite (fun hpublished => ?_) fun _ => ?_
  · refine ensures_bind (ensures_lift fun before _ => ?_)
    rw [writeReview]
    refine ensures_bind (ensures_modify (ensures_modify ?_))
    set logged : Db K := { db₂ with
      reviews := db₂.reviews ++ [review]
      auditLog := db₂.auditLog ++ [⟨"grading_result.manual_score_after_finalize", row.id,
        before.value, some hundredths⟩] } with hlogged
    have hwrite : Write env db₂ (logged.updateResult row.id ResultRow.reviewed) :=
      .manual _ hrow hallowed rfl
    rw [updateResult_eq_self fun r hr hid => ?_] at hwrite
    · exact .single hwrite
    · rw [eq_of_result h.ids hrow hr hid]
      exact reviewed_of_published hpublished
  · rw [writeReview]
    refine ensures_bind (ensures_modify ?_)
    have hids : (({ db₂ with reviews := db₂.reviews ++ [review] } : Db K).results.map
        ResultRow.id).Nodup := h.ids
    refine (markReviewed_row hids).mono fun _ db' h' => ?_
    rw [h']
    exact .single (.manual db₂.auditLog hrow hallowed rfl)

theorem pin_writes (sessionId bundleId : String) :
    Ensures (pin sessionId bundleId) db fun _ db' => Writes env db db' := by
  rw [pin]
  refine ensures_bind (ensures_get ?_)
  split
  · exact ensures_throw
  · refine ensures_ite (fun _ => ensures_bind ensures_throw) fun _ => ?_
    split
    · exact ensures_throw
    · refine ensures_ite (fun _ => ensures_bind ensures_throw) fun _ => ?_
      rw [setProblemTestBundle]
      refine ensures_bind (ensures_get ?_)
      split
      · exact ensures_throw
      · refine ensures_bind (ensures_modify ?_)
        have hproblems : ∀ problems, Edit db { db with problems := problems } :=
          fun problems => Edit.around db problems _ _ _ _ _
        refine ensures_ite (fun _ => ensures_modify (.single (.edit ?_))) fun _ =>
          ensures_pure (.single (.edit (hproblems _)))
        refine (hproblems _).trans ⟨rfl, fun _ => rfl, fun _ rule hr => ⟨rule, hr, rfl⟩, ?_⟩
        intro id
        show (rowOf SessionRow.id (updateRow SessionRow.id db.sessions sessionId _) id).map _ = _
        rw [rowOf_updateRow (f := fun s : SessionRow => { s with testBundleId := some bundleId })
          fun _ => rfl, Option.map_map]
        refine Option.map_congr fun s _ => ?_
        rw [Function.comp_apply]
        split_ifs
        · rfl
        · rfl

/-! ## Publishing -/

theorem finalizeOne_writes (h : Linked db) (r : ResultRow) (computationId : Option String) :
    Ensures (finalizeOne r computationId) db fun _ db' => Writes env db db' := by
  rw [finalizeOne]
  split
  · refine ensures_ite (fun _ => ensures_pure .refl) fun hstatus => ?_
    refine (advanceOrConflict_row h.ids _ _ _).bind fun _ db' h' => ensures_pure ?_
    rw [h'.2]
    exact .single (.publish r.id (not_not.1 hstatus) fun _ => computationId)
  · have hpublish : ∀ db₁ : Db K, Linked db₁ → Ensures
        (advanceOrConflict r.id [.teacherReviewed] .finalized id) db₁ fun _ db' =>
          Write env db₁ db' := by
      intro db₁ hl
      refine (advanceOrConflict_row hl.ids _ _ _).mono fun _ db' h' => ?_
      rw [h'.2]
      exact .publish r.id (List.mem_cons_of_mem _ List.mem_cons_self) id
    refine ensures_ite (fun _ => ?_) fun _ => ensures_ite (fun _ => ?_) fun _ =>
      ensures_pure .refl
    · rw [writeReview]
      refine ensures_bind (ensures_modify ?_)
      set accepted : Db K := { db with reviews := db.reviews ++
        [⟨r.id, .bulkAccept, some (r.aiTotalScore.getD 0), none, none⟩] } with haccepted
      have hedit : Edit db accepted := by
        refine Edit.reviews db fun t ht => ?_
        rw [List.mem_singleton.1 ht]
        rintro ⟨⟩
      have hl := hedit.linked h
      refine (advanceOrConflict_row hl.ids _ _ _).bind fun _ db₁ h₁ => ?_
      have haccept : Write env accepted db₁ := by
        rw [h₁.2]
        exact .accept r.id
      refine (hpublish db₁ (haccept.linked hl)).bind fun _ db₂ h₂ => ensures_pure ?_
      exact Relation.ReflTransGen.head (.edit hedit)
        (Relation.ReflTransGen.head haccept (.single h₂))
    · exact (hpublish db h).bind fun _ db' h' => ensures_pure (.single h')

theorem finalizeAll_writes (h : Linked db) (papers : List (ResultRow × Option String)) :
    Ensures (finalizeAll papers) db fun _ db' => Writes env db db' := by
  induction papers generalizing db with
  | nil => exact ensures_pure .refl
  | cons p rest ih =>
    rw [finalizeAll]
    have hone : Ensures (finalizeOne p.1 p.2) db fun _ db' => Writes env db db' :=
      finalizeOne_writes h p.1 p.2
    refine hone.bind fun one db₁ h₁ => ?_
    exact (ih (h₁.linked h)).bind fun others db₂ h₂ => ensures_pure (h₁.trans h₂)

theorem finalizeGrades_writes (h : Linked db) (sessionId : String) :
    Ensures (finalizeGrades sessionId) db fun _ db' => Writes env db db' := by
  rw [finalizeGrades]
  refine ensures_bind (ensures_get ?_)
  refine ensures_ite (fun _ => ensures_bind ensures_throw) fun _ => ?_
  refine ensures_ite (fun _ => ensures_bind ensures_throw) fun _ => ?_
  refine ensures_ite (fun _ => ensures_bind ensures_throw) fun _ => ?_
  exact finalizeAll_writes h _

/-! ## The operations on attempts -/

theorem startAttempt_writes (resultId : String) :
    Ensures (startAttempt env resultId) db fun _ db' => Writes env db db' := by
  rw [startAttempt]
  refine ensures_bind (ensures_get ?_)
  split
  · exact ensures_pure .refl
  · rename_i row hrow
    refine ensures_ite (fun _ => ensures_pure .refl) fun hstatus => ?_
    split
    · exact ensures_pure .refl
    · rename_i hidle
      have hid : row.id = resultId := rowOf_key hrow
      subst hid
      rw [insertAttempt]
      refine ensures_bind (ensures_bind ?_)
      refine (freshId_spec env _ db).mono fun id db₁ h₁ => ?_
      obtain ⟨hfresh, rfl⟩ := h₁
      refine ensures_bind (ensures_modify (ensures_bind (ensures_modify (ensures_pure
        (ensures_pure ?_)))))
      exact .single (.openAttempt (a := ⟨id, row.id, db.nextAttemptNo row.id, none, none, none⟩)
        _ hrow (not_not.1 hstatus) hidle hfresh rfl)

theorem requeue_writes (resultId : String) :
    Ensures (requeue resultId) db fun _ db' => Writes env db db' := by
  rw [requeue]
  refine ensures_bind (ensures_get ?_)
  refine ensures_ite (fun hrequeuable => ?_) fun _ => ensures_pure .refl
  refine ensures_bind (ensures_set (ensures_pure ?_))
  obtain ⟨r, hr, hr'⟩ := (Option.any_eq_true _ _).1 hrequeuable
  have hid : r.id = resultId := rowOf_key hr
  subst hid
  exact .single (.requeue hr hr')

omit [Number K] in
theorem isRunning_of_runningAttempt (h : Linked db) {attemptId : String}
    (hr : db.result r.id = some r) (hstatus : r.status = .aiGrading)
    (hrunning : db.runningAttempt r = some attemptId) :
    ∃ a, a.id = attemptId ∧ db.IsRunning r a := by
  obtain ⟨hcurrent, houtcome⟩ := runningAttempt_spec hrunning
  obtain ⟨a, ha, _⟩ := h.current r (mem_of_rowOf hr) attemptId hcurrent
  have hid : a.id = attemptId := rowOf_key ha
  subst hid
  exact ⟨a, rfl, hr, hstatus, hcurrent, ha, houtcome a ha⟩

theorem markUngradable_writes (h : Linked db) (submissionId reason : String) :
    Ensures (markUngradable env submissionId reason) db fun _ db' => Writes env db db' := by
  rw [markUngradable]
  refine ensures_bind (ensures_get ?_)
  refine ensures_ite (fun _ => ensures_pure .refl) fun hgrading => ?_
  refine ensures_bind (ensures_set ?_)
  cases hrow : db.resultOfSubmission submissionId with
  | none => exact ensures_throw
  | some r =>
    have hr : db.result r.id = some r := result_of_mem h.ids (mem_of_rowOf hrow)
    have hstatus : r.status = .aiGrading := by
      simpa [hrow] using hgrading
    rw [updateRow_submission h.submissions hrow h.ids]
    cases hrunning : db.runningAttempt r with
    | some attemptId =>
      obtain ⟨a, rfl, ha⟩ := isRunning_of_runningAttempt h hr hstatus hrunning
      simp only [hrunning]
      exact ensures_bind (ensures_modify (ensures_pure (.single (.exhaust ⟨.system, reason⟩ ha))))
    | none =>
      simp only [hrunning]
      rw [insertAttempt]
      refine ensures_bind (ensures_bind ?_)
      refine (freshId_spec env _ _).mono fun id db₁ h₁ => ?_
      obtain ⟨hfresh, rfl⟩ := h₁
      refine ensures_bind (ensures_modify (ensures_bind (ensures_modify (ensures_pure
        (ensures_pure ?_)))))
      exact .single (.exhaustIdle (a := ⟨id, r.id, db.nextAttemptNo r.id, some .ungradable,
        some ⟨.system, reason⟩, none⟩) _ _ hr hstatus hrunning hfresh rfl)

omit [Number K] in
theorem lockRunning_running (h : Linked db) {attemptId : String}
    (stored : Option (StoredInvestigation K)) :
    Ensures (lockRunning resultId attemptId stored) db fun ctx db' =>
      db' = db ∧ ∃ r a session rubric, r.id = resultId ∧ a.id = attemptId ∧ db.IsRunning r a ∧
        r.pipeline = .investigator ∧ db.sessionOf r = some session ∧
        db.rubric r.rubricIdVersion = some rubric ∧ ctx = db.contextOf r session rubric stored := by
  rw [lockRunning]
  refine ensures_bind (ensures_get ?_)
  split
  · exact ensures_throw
  · rename_i r hr
    refine ensures_ite (fun _ => ensures_bind ensures_throw) fun hchecked => ?_
    simp only [not_or, not_not] at hchecked
    obtain ⟨hpipeline, hstatus, hcurrent, houtcome⟩ := hchecked
    refine ensures_lift fun ctx hctx => ⟨rfl, ?_⟩
    obtain ⟨r', session, rubric, hr', hsession, hrubric, hcontext⟩ := rows_of_loadScoreContext hctx
    have hsame : r' = r := by
      rw [hr] at hr'
      exact (Option.some.inj hr').symm
    subst hsame
    have hid : r'.id = resultId := rowOf_key hr
    subst hid
    obtain ⟨a, ha, _⟩ := h.current r' (mem_of_rowOf hr) attemptId hcurrent
    have haid : a.id = attemptId := rowOf_key ha
    subst haid
    rw [ha, Option.bind_some] at houtcome
    exact ⟨r', a, session, rubric, rfl, rfl, ⟨hr, hstatus, hcurrent, ha, by simpa using houtcome⟩,
      hpipeline, hsession, hrubric, hcontext⟩

omit [Number K] in
theorem closeUngradable_row (u : Ungradable) (stored : Option (StoredInvestigation K)) :
    Ensures (closeUngradable r.id a.id u stored) db fun _ db' =>
      db' = (db.updateAttempt a.id (AttemptRow.close .ungradable (some u) stored)).updateResult r.id
        (ResultRow.failed u) := by
  rw [closeUngradable, closeAttempt]
  exact ensures_bind (ensures_modify (leaveAiGrading_spec (ResultRow.failed u)))

theorem closeUngradable_writes (hrunning : db.IsRunning r a)
    (hpipeline : r.pipeline = .investigator) (u : Ungradable)
    (stored : Option (StoredInvestigation K)) :
    Ensures (closeUngradable r.id a.id u stored) db fun _ db' => Writes env db db' := by
  refine (closeUngradable_row u stored).mono fun _ db' h' => ?_
  rw [h']
  exact .single (.fail u stored hrunning hpipeline)

theorem finishUngradable_writes (h : Linked db) (resultId attemptId : String) (u : Ungradable) :
    Ensures (finishUngradable resultId attemptId u) db fun _ db' => Writes env db db' := by
  rw [finishUngradable]
  refine (lockRunning_running h none).bind fun ctx db₁ h₁ => ?_
  obtain ⟨rfl, r, a, _, _, rfl, rfl, hrunning, hpipeline, _⟩ := h₁
  exact closeUngradable_writes hrunning hpipeline u none

/-- `writeInitial` without the sample of the session. -/
def writeDecision (env : GradingEnv K) (ctx : ScoreContext K) (stored : StoredInvestigation K)
    (out : ScoreCoreOutput K) (scoreHundredths : Int) : DbTx K FinishOutcome := do
  let computationId ← insertComputation env ctx .initial out
  let models := sliceFront ("+".intercalate stored.result.investigation.modelsUsed) 100
  leaveAiGrading ctx.resultId fun r =>
    { r with
      status := .aiGraded
      aiTotalScore := some scoreHundredths
      confidence := out.breakdown.confidence.map (Number.toFixed · 3)
      modelUsed := if models = "" then none else some models
      ungradable := none }
  let outcome := if out.outcome = .auto then Outcome.auto else .flagged
  let target : ResultStatus := if outcome = .auto then .autoApproved else .flaggedForReview
  let _ ← advanceStatus ctx.resultId [.aiGraded] target fun r =>
    { r with flagForReview := target = .flaggedForReview }
  let db ← get
  if target = .autoApproved ∧ db.drawnForAudit env ctx.resultId then
    drawIntoAudit ctx.resultId
  return .scored outcome scoreHundredths computationId

theorem writeInitial_eq (ctx : ScoreContext K) (stored : StoredInvestigation K)
    (out : ScoreCoreOutput K) (score : Int) :
    writeInitial env ctx stored out score = (do
      let o ← writeDecision env ctx stored out score
      topUpSessionAudit env ctx.sessionId
      return o) := by
  have hlast : ∀ (c : Prop) [Decidable c] (draw topUp : DbTx K Unit) (o : FinishOutcome),
      (if c then draw >>= fun _ => topUp >>= fun _ => pure o else topUp >>= fun _ => pure o) =
        (if c then draw >>= fun _ => pure o else pure o) >>= fun o => topUp >>= fun _ => pure o := by
    intro c _ draw topUp o
    split_ifs
    · simp only [bind_assoc, pure_bind]
    · simp only [pure_bind]
  rw [writeInitial, writeDecision]
  simp only [bind_assoc]
  refine bind_congr fun computationId => bind_congr fun _ => bind_congr fun _ =>
    bind_congr fun db => ?_
  exact hlast _ _ _ _

omit [Number K] in
theorem drawnForAudit_updateResult {f : ResultRow → ResultRow}
    (hf : ∀ r, ResultRow.SameHead r (f r)) (id : String) :
    (db.updateResult id f).drawnForAudit env id = db.drawnForAudit env id := by
  have hlookup : (db.updateResult id f).result id = (db.result id).map fun r =>
      if r.id = id then f r else r := rowOf_updateRow (fun r => (hf r).id) id
  rw [Db.drawnForAudit, Db.drawnForAudit, hlookup]
  cases hr : db.result id with
  | none => rfl
  | some r =>
    rw [Option.map_some, if_pos (rowOf_key hr), Option.any_some, Option.any_some,
      (hf r).submissionId]
    rfl

/-- The row of a paper between its score and its first decision. -/
def ResultRow.graded (score : Int) (confidence modelUsed : Option String) (r : ResultRow) :
    ResultRow :=
  { r with
    status := .aiGraded
    aiTotalScore := some score
    confidence := confidence
    modelUsed := modelUsed
    ungradable := none }

theorem ResultRow.graded_sameHead (score : Int) (confidence modelUsed : Option String)
    (r : ResultRow) : SameHead r (r.graded score confidence modelUsed) :=
  ⟨rfl, rfl, rfl⟩

/-- The decision on a row that has just got its score. -/
def ResultRow.decide (target : ResultStatus) : ResultRow → ResultRow :=
  advance [.aiGraded] target fun r => { r with flagForReview := target = .flaggedForReview }

theorem ResultRow.decide_sameHead (target : ResultStatus) (r : ResultRow) :
    SameHead r (r.decide target) :=
  advance_sameHead (fun _ => ⟨rfl, rfl, rfl⟩) r

theorem decided_eq (score : Int) (confidence modelUsed : Option String) (auto drawn : Bool)
    (r : ResultRow) :
    (if auto && drawn then ResultRow.drawn else id) (ResultRow.decide
      (if auto then .autoApproved else .flaggedForReview) (r.graded score confidence modelUsed)) =
        r.decided auto drawn score confidence modelUsed := by
  cases auto <;> cases drawn <;> rfl

/-- The tables after the first decision on the paper `r`, whose attempt `a`
ends with the investigation `stored`. -/
def Db.FirstDecision (db : Db K) (env : GradingEnv K) (r : ResultRow) (a : AttemptRow K)
    (stored : StoredInvestigation K) (out : ScoreCoreOutput K) (score : Int) (db' : Db K) : Prop :=
  ∃ c n confidence modelUsed, ComputationOf r .initial out c ∧
    db' = ((db.updateAttempt a.id (AttemptRow.close .graded none (some stored))).addComputation
      c n).updateResult r.id (ResultRow.decided (out.outcome = .auto)
        (db.drawnForAudit env r.id) score confidence modelUsed)

theorem writeDecision_row {session : SessionRow} {rubric : RubricRow}
    {stored : StoredInvestigation K} {out : ScoreCoreOutput K} (h : Linked db)
    (hrunning : db.IsRunning r a) (score : Int) :
    Ensures (writeDecision env (db.contextOf r session rubric (some stored)) stored out score)
      (db.updateAttempt a.id (AttemptRow.close .graded none (some stored))) fun _ db' =>
        db.FirstDecision env r a stored out score db' := by
  set closed := db.updateAttempt a.id (AttemptRow.close .graded none (some stored)) with hclosed
  rw [writeDecision]
  refine (insertComputation_row _ _ _ (r := r) rfl rfl).bind fun computationId db₁ h₁ => ?_
  obtain ⟨c, n, hc, rfl⟩ := h₁
  have hl : Linked (closed.addComputation c n) := by
    refine (h.close _ _ _ _).addComputation ?_ n
    exact hc.owner ▸ Linked.hasResult_of_result hrunning.result
  set confidence := out.breakdown.confidence.map (Number.toFixed · 3) with hconfidence
  set models := sliceFront ("+".intercalate stored.result.investigation.modelsUsed) 100
    with hmodels
  set modelUsed := if models = "" then none else some models with hmodelUsed
  refine (leaveAiGrading_spec (ResultRow.graded score confidence modelUsed)).bind
    fun _ db₂ h₂ => ?_
  have hl₂ : Linked db₂ := by
    rw [h₂]
    exact hl.updateResult (ResultRow.graded_sameHead _ _ _)
  set target : ResultStatus :=
    if (if out.outcome = .auto then Outcome.auto else .flagged) = .auto then .autoApproved
      else .flaggedForReview with htarget
  refine (advanceStatus_row hl₂.ids [.aiGraded] target _).bind fun _ db₃ h₃ => ?_
  have hdb₃ : db₃ = (closed.addComputation c n).updateResult r.id
      (ResultRow.decide target ∘ ResultRow.graded score confidence modelUsed) := by
    rw [h₃.2, h₂]
    exact updateResult_updateResult fun r => (ResultRow.graded_sameHead _ _ _ r).id
  have hhead : ∀ r, ResultRow.SameHead r
      ((ResultRow.decide target ∘ ResultRow.graded score confidence modelUsed) r) := by
    intro r
    have h' := ResultRow.decide_sameHead target (r.graded score confidence modelUsed)
    exact ⟨h'.id, h'.submissionId, h'.currentAttemptId⟩
  have hdrawn : db₃.drawnForAudit env r.id = db.drawnForAudit env r.id := by
    rw [hdb₃]
    exact drawnForAudit_updateResult hhead r.id
  have hauto : target = if decide (out.outcome = .auto) then .autoApproved else .flaggedForReview := by
    rw [htarget]
    by_cases hout : out.outcome = .auto
    · rw [if_pos hout, if_pos rfl, if_pos (decide_eq_true hout)]
    · rw [if_neg hout, if_neg (fun heq => nomatch heq), if_neg (by simpa using hout)]
  have hwrite : db.FirstDecision env r a stored out score (db₃.updateResult r.id
      (if decide (out.outcome = .auto) && db.drawnForAudit env r.id then ResultRow.drawn else id)) := by
    refine ⟨c, n, confidence, modelUsed, hc, ?_⟩
    rw [hdb₃, updateResult_updateResult fun r => (hhead r).id]
    congr 1
    funext r
    rw [← decided_eq, hauto]
    rfl
  have hcondition : (target = .autoApproved ∧ db₃.drawnForAudit env r.id = true) ↔
      (decide (out.outcome = .auto) && db.drawnForAudit env r.id) = true := by
    rw [hdrawn, hauto, Bool.and_eq_true]
    cases decide (out.outcome = .auto) <;> simp
  refine ensures_bind (ensures_get ?_)
  refine ensures_ite (fun hdraw => ?_) fun hdraw => ensures_pure ?_
  · rw [if_pos (hcondition.1 hdraw)] at hwrite
    have hids₃ : (db₃.results.map ResultRow.id).Nodup := by
      rw [hdb₃]
      exact (hl.updateResult hhead).ids
    refine (drawIntoAudit_row hids₃).bind fun _ db₄ h₄ => ensures_pure ?_
    rw [h₄]
    exact hwrite
  · have hself : db₃.updateResult r.id id = db₃ := updateResult_eq_self fun _ _ _ => rfl
    rw [if_neg fun hboth => hdraw (hcondition.2 hboth), hself] at hwrite
    exact hwrite

/-- The first half of `finishAttempt`: what the investigation comes to. -/
def judgeAttempt (env : GradingEnv K) (resultId attemptId : String)
    (stored : StoredInvestigation K) :
    DbTx K (ScoreContext K × Except Ungradable (ScoreCoreOutput K × Int)) := do
  let ctx ← lockRunning resultId attemptId (some stored)
  recordMissingRules env ((stored.result.verdict.map Verdict.missingRules).getD [])
    resultId ctx.sessionId ctx.rubricName
  let db ← get
  let judged ← liftM (db.judge env ctx stored)
  return (ctx, judged)

/-- What is written of it, without the sample of the session.  A score names
the session whose sample is due. -/
def settleAttempt (env : GradingEnv K) (resultId attemptId : String)
    (stored : StoredInvestigation K) (ctx : ScoreContext K) :
    Except Ungradable (ScoreCoreOutput K × Int) → DbTx K (Option String × FinishOutcome)
  | .error u => do
    closeUngradable resultId attemptId u (some stored)
    return (none, .ungradable u)
  | .ok (out, score) => do
    closeAttempt attemptId .graded none (some stored)
    let o ← writeDecision env ctx stored out score
    return (some ctx.sessionId, o)

/-- `finishAttempt` without the sample of the session. -/
def concludeAttempt (env : GradingEnv K) (resultId attemptId : String)
    (stored : StoredInvestigation K) : DbTx K (Option String × FinishOutcome) := do
  let p ← judgeAttempt env resultId attemptId stored
  settleAttempt env resultId attemptId stored p.1 p.2

/-- The first decision approves the paper, if the attempt ends now. -/
def Db.decidesAuto (db : Db K) (env : GradingEnv K) (resultId attemptId : String)
    (stored : StoredInvestigation K) : Bool :=
  match judgeAttempt env resultId attemptId stored db with
  | .ok ((_, .ok (out, _)), _) => out.outcome = .auto
  | _ => false

theorem judge_scored {ctx : ScoreContext K} {stored : StoredInvestigation K}
    {out : ScoreCoreOutput K} {score : Int}
    (h : db.judge env ctx stored = .ok (.ok (out, score))) :
    db.compute env ctx id = .ok out ∧ out.scoreHundredths = some score := by
  refine ⟨judge_spec h, ?_⟩
  rw [Db.judge] at h
  split_ifs at h
  · cases h
  · split at h
    · cases h
    · split at h
      · cases h
      · cases h
      · rename_i hscore _
        cases h
        exact hscore

/-- The paper and the attempt that end, and what the investigation comes to
by the tables of then. -/
structure Db.Judged (db : Db K) (env : GradingEnv K) (resultId attemptId : String)
    (stored : StoredInvestigation K) (db₁ : Db K) (r : ResultRow) (a : AttemptRow K) : Prop where
  result : r.id = resultId
  attempt : a.id = attemptId
  edit : Edit db db₁
  linked : Linked db₁
  running : db₁.IsRunning r a
  pipeline : r.pipeline = .investigator

theorem judgeAttempt_spec (h : Linked db) (resultId attemptId : String)
    (stored : StoredInvestigation K) :
    Ensures (judgeAttempt env resultId attemptId stored) db fun p db₁ =>
      ∃ r a session rubric, db.Judged env resultId attemptId stored db₁ r a ∧
        p.1 = db₁.contextOf r session rubric (some stored) ∧
        ∀ out score, p.2 = .ok (out, score) →
          db₁.Computes env r stored out ∧ out.scoreHundredths = some score := by
  rw [judgeAttempt]
  refine (lockRunning_running h _).bind fun ctx db₁ h₁ => ?_
  obtain ⟨rfl, r, a, session, rubric, rfl, rfl, hrunning, hpipeline, hsession, hrubric, rfl⟩ := h₁
  refine (recordMissingRules_edit _ _ _ _).bind fun _ db₂ h₂ => ?_
  obtain ⟨hedit, htables⟩ := h₂
  have hrunning₂ : db₂.IsRunning r a := by
    refine ⟨?_, hrunning.status, hrunning.current, ?_, hrunning.outcome⟩
    · rw [Db.result, hedit.results]
      exact hrunning.result
    · rw [Db.attempt, hedit.attempts]
      exact hrunning.attempt
  have hctx : db₁.contextOf r session rubric (some stored) =
      db₂.contextOf r session rubric (some stored) := by
    rw [htables]
    rfl
  rw [hctx]
  refine ensures_bind (ensures_get ?_)
  refine ensures_bind (ensures_lift fun judged hjudged => ensures_pure ?_)
  refine ⟨r, a, session, rubric, ⟨rfl, rfl, hedit, hedit.linked h, hrunning₂, hpipeline⟩, rfl, ?_⟩
  rintro out score rfl
  obtain ⟨hout, hscored⟩ := judge_scored hjudged
  obtain ⟨stored', hstored, hscore⟩ := compute_spec hout
  have hsame : stored = stored' := Option.some.inj hstored
  subst hsame
  refine ⟨⟨session, rubric, ?_, ?_, hscore⟩, hscored⟩
  · rw [htables]
    exact hsession
  · rw [htables]
    exact hrubric

theorem concludeAttempt_row (h : Linked db) (resultId attemptId : String)
    (stored : StoredInvestigation K) :
    Ensures (concludeAttempt env resultId attemptId stored) db fun _ db' =>
      ∃ db₁ r a, db.Judged env resultId attemptId stored db₁ r a ∧
        ((∃ u, db' = (db₁.updateAttempt a.id (AttemptRow.close .ungradable (some u)
            (some stored))).updateResult r.id (ResultRow.failed u)) ∨
          ∃ out score, db₁.Computes env r stored out ∧ out.scoreHundredths = some score ∧
            db₁.FirstDecision env r a stored out score db' ∧
              (out.outcome = .auto → db.decidesAuto env resultId attemptId stored = true)) := by
  rw [concludeAttempt]
  refine (judgeAttempt_spec h resultId attemptId stored).run.bind fun p db₁ h₁ => ?_
  obtain ⟨⟨r, a, session, rubric, hjudged, hctx, hscore⟩, hrun⟩ := h₁
  obtain ⟨ctx, judged⟩ := p
  have hctx' : ctx = db₁.contextOf r session rubric (some stored) := hctx
  subst hctx'
  rw [← hjudged.result, ← hjudged.attempt]
  cases judged with
  | error u =>
    rw [settleAttempt]
    refine (closeUngradable_row u (some stored)).bind fun _ db' h' => ensures_pure ?_
    exact ⟨db₁, r, a, hjudged.result ▸ hjudged.attempt ▸ hjudged, .inl ⟨u, h'⟩⟩
  | ok q =>
    obtain ⟨out, score⟩ := q
    obtain ⟨hcomputes, hscored⟩ := hscore out score rfl
    rw [settleAttempt, closeAttempt]
    refine ensures_bind (ensures_modify ?_)
    refine (writeDecision_row hjudged.linked hjudged.running score).bind fun _ db' h' =>
      ensures_pure ?_
    refine ⟨db₁, r, a, hjudged.result ▸ hjudged.attempt ▸ hjudged,
      .inr ⟨out, score, hcomputes, hscored, h', fun hauto => ?_⟩⟩
    rw [Db.decidesAuto, hjudged.result, hjudged.attempt, hrun]
    exact decide_eq_true hauto

theorem concludeAttempt_writes (h : Linked db) (resultId attemptId : String)
    (stored : StoredInvestigation K) :
    Ensures (concludeAttempt env resultId attemptId stored) db fun _ db' => Writes env db db' := by
  refine (concludeAttempt_row h resultId attemptId stored).mono fun _ db' h' => ?_
  obtain ⟨db₁, r, a, hjudged, ⟨u, rfl⟩ | ⟨out, score, hcomputes, hscored, hdecided, _⟩⟩ := h'
  · exact Relation.ReflTransGen.head (.edit hjudged.edit)
      (.single (.fail u (some stored) hjudged.running hjudged.pipeline))
  · obtain ⟨c, n, confidence, modelUsed, hc, rfl⟩ := hdecided
    exact Relation.ReflTransGen.head (.edit hjudged.edit) (.single
      (.firstScore n confidence modelUsed hjudged.running hjudged.pipeline hcomputes hscored hc))

theorem finishAttempt_eq (resultId attemptId : String) (stored : StoredInvestigation K) :
    finishAttempt env resultId attemptId stored = (do
      let p ← concludeAttempt env resultId attemptId stored
      p.1.forM (topUpSessionAudit env)
      return p.2) := by
  rw [finishAttempt, concludeAttempt, judgeAttempt]
  simp only [bind_assoc, pure_bind]
  refine bind_congr fun ctx => bind_congr fun _ => bind_congr fun db => bind_congr fun judged => ?_
  cases judged with
  | error u => simp only [settleAttempt, bind_assoc, pure_bind, Option.forM]
  | ok p => simp only [settleAttempt, bind_assoc, pure_bind, Option.forM, writeInitial_eq]

end Cine.Grading
