import Cine.Grading.Lifecycle.Writes

/-!
# The operations on rules as writes

Every operation on a linked database is a sequence of `Write`s.  An
operation on rules is an `Edit` of the tables around the papers and a
recomputation after it.  No foreign key is asked for beyond `Linked`, so the
edits are walked through once more without the rule tables in order.
-/

namespace Cine.Grading

open Cine.Lib

variable {K : Type} {env : GradingEnv K} {db : Db K} {resultId : String} {r : ResultRow}

/-! ## Linked databases -/

namespace Linked

variable {f : ResultRow → ResultRow}

theorem hasResult_updateResult (hid : ∀ r, (f r).id = r.id) (id : String) :
    (db.updateResult resultId f).HasResult id ↔ db.HasResult id := by
  rw [Db.HasResult, Db.HasResult, updateResult_ids hid]

theorem mapResults (h : Linked db) (hf : ∀ r, ResultRow.SameHead r (f r)) :
    Linked { db with results := db.results.map f } := by
  have hids : (db.results.map f).map ResultRow.id = db.results.map ResultRow.id := by
    rw [List.map_map]
    exact List.map_congr_left fun r _ => (hf r).id
  have hhas (id : String) :
      Db.HasResult { db with results := db.results.map f } id ↔ db.HasResult id := by
    rw [Db.HasResult, Db.HasResult, hids]
  refine ⟨hids ▸ h.ids, ?_, h.papers, fun r hr id hid => ?_,
    fun a ha => (hhas _).2 (h.attempts a ha), fun c hc => (hhas _).2 (h.computations c hc),
    fun id hm => (hhas _).2 (h.manual id hm)⟩
  · rw [List.map_map]
    have hsame : ResultRow.submissionId ∘ f = ResultRow.submissionId :=
      funext fun r => (hf r).submissionId
    rw [hsame]
    exact h.submissions
  · obtain ⟨r₀, hr₀, rfl⟩ := List.mem_map.1 hr
    rw [(hf r₀).currentAttemptId] at hid
    rw [(hf r₀).id]
    exact h.current r₀ hr₀ id hid

theorem updateResult (h : Linked db) (hf : ∀ r, ResultRow.SameHead r (f r)) :
    Linked (db.updateResult resultId f) := by
  refine h.mapResults fun r => ?_
  split_ifs
  · exact hf r
  · exact .refl r

theorem addComputation (h : Linked db) {c : ComputationRow K}
    (howner : db.HasResult c.gradingResultId) (n : Nat) : Linked (db.addComputation c n) := by
  refine ⟨h.ids, h.submissions, h.papers, h.current, h.attempts, fun c' hc' => ?_, h.manual⟩
  rcases List.mem_append.1 hc' with hold | hnew
  · exact h.computations c' hold
  · rw [List.mem_singleton.1 hnew]
    exact howner

theorem updateAttempt (h : Linked db) (id : String) {g : AttemptRow K → AttemptRow K}
    (hid : ∀ a, (g a).id = a.id) (howner : ∀ a, (g a).gradingResultId = a.gradingResultId) :
    Linked (db.updateAttempt id g) := by
  refine ⟨h.ids, h.submissions, h.papers, fun r hr id' hid' => ?_, fun a ha => ?_,
    h.computations, h.manual⟩
  · obtain ⟨a, ha, hown⟩ := h.current r hr id' hid'
    refine ⟨if a.id = id then g a else a, ?_, ?_⟩
    · show rowOf _ (updateRow _ _ _ _) _ = _
      rw [rowOf_updateRow hid]
      show Option.map _ (db.attempt id') = _
      rw [ha, Option.map_some]
    · split_ifs
      · rw [howner]
        exact hown
      · exact hown
  · obtain ⟨a₀, ha₀, rfl⟩ := mem_updateRow.1 ha
    split_ifs
    · rw [howner]
      exact h.attempts a₀ ha₀
    · exact h.attempts a₀ ha₀

theorem close (h : Linked db) (id : String) (outcome : AttemptOutcome) (u : Option Ungradable)
    (stored : Option (StoredInvestigation K)) :
    Linked (db.updateAttempt id (AttemptRow.close outcome u stored)) :=
  h.updateAttempt id (close_id _ _ _) (close_gradingResultId _ _ _)

theorem attempt_concat {a : AttemptRow K} (fresh : a.id ∉ db.attempts.map AttemptRow.id) :
    rowOf AttemptRow.id (db.attempts ++ [a]) a.id = some a := by
  have hnone : rowOf AttemptRow.id db.attempts a.id = none :=
    rowOf_eq_none.2 fun b hb hk => fresh (hk ▸ List.mem_map_of_mem hb)
  rw [rowOf_append, hnone, Option.none_or, rowOf]
  simp

theorem addAttempt (h : Linked db) {a : AttemptRow K}
    (fresh : a.id ∉ db.attempts.map AttemptRow.id) (howner : db.HasResult a.gradingResultId)
    (n : Nat) : Linked (db.addAttempt a n) := by
  have hids : ∀ r : ResultRow, ({ r with currentAttemptId := some a.id } : ResultRow).id = r.id :=
    fun _ => rfl
  have hhas : ∀ id, (db.addAttempt a n).HasResult id ↔ db.HasResult id := fun id => by
    show id ∈ (updateRow _ _ _ _).map _ ↔ _
    rw [map_updateRow hids, Db.HasResult]
  refine ⟨?_, ?_, h.papers, fun r hr id hid => ?_, fun b hb => (hhas _).2 ?_,
    fun c hc => (hhas _).2 (h.computations c hc), fun id hm => (hhas _).2 (h.manual id hm)⟩
  · show ((updateRow _ _ _ _).map _).Nodup
    rw [map_updateRow hids]
    exact h.ids
  · show ((updateRow _ _ _ _).map _).Nodup
    rw [map_updateRow (f := fun r : ResultRow => { r with currentAttemptId := some a.id })
      fun _ => rfl]
    exact h.submissions
  · obtain ⟨r₀, hr₀, rfl⟩ := mem_updateRow.1 hr
    split_ifs at hid ⊢ with hown
    · cases hid
      exact ⟨a, attempt_concat fresh, hown.symm⟩
    · obtain ⟨b, hb, hown'⟩ := h.current r₀ hr₀ id hid
      exact ⟨b, rowOf_append_of_some _ hb, hown'⟩
  · rcases List.mem_append.1 hb with hold | hnew
    · exact h.attempts b hold
    · rw [List.mem_singleton.1 hnew]
      exact howner

theorem enlist (h : Linked db) {rows : List ResultRow} (n : Nat)
    (ids : ((db.results ++ rows).map ResultRow.id).Nodup)
    (submissions : ((db.results ++ rows).map ResultRow.submissionId).Nodup)
    (new : ∀ r ∈ rows, r.IsNew) :
    Linked { db with results := db.results ++ rows, drawnIds := n } := by
  have hhas : ∀ id, db.HasResult id → id ∈ (db.results ++ rows).map ResultRow.id := fun id hid => by
    rw [List.map_append]
    exact List.mem_append_left _ hid
  refine ⟨ids, submissions, h.papers, fun r hr id hid => ?_, fun a ha => hhas _ (h.attempts a ha),
    fun c hc => hhas _ (h.computations c hc), fun id hm => hhas _ (h.manual id hm)⟩
  rcases List.mem_append.1 hr with hold | hnew
  · exact h.current r hold id hid
  · rw [(new r hnew).attempt] at hid
    cases hid

theorem hasResult_of_result (hr : db.result resultId = some r) : db.HasResult r.id :=
  List.mem_map_of_mem (mem_of_rowOf hr)

theorem addReview (h : Linked db) {row : ReviewRow} (howner : db.HasResult row.gradingResultId)
    (log : List AuditRow) :
    Linked { db with reviews := db.reviews ++ [row], auditLog := log } := by
  refine ⟨h.ids, h.submissions, h.papers, h.current, h.attempts, h.computations, fun id hm => ?_⟩
  have hany : (db.reviews ++ [row]).any
      (fun t => decide (t.gradingResultId = id ∧ t.kind = .manualScore)) = true := hm
  rw [List.any_append, Bool.or_eq_true] at hany
  rcases hany with hold | hnew
  · exact h.manual id hold
  · obtain ⟨t, ht, hmatch⟩ := List.any_eq_true.1 hnew
    rw [List.mem_singleton.1 ht] at hmatch
    exact (of_decide_eq_true hmatch).1 ▸ howner

end Linked

theorem ResultRow.decided_sameHead (auto drawn : Bool) (score : Int)
    (confidence modelUsed : Option String) (r : ResultRow) :
    SameHead r (r.decided auto drawn score confidence modelUsed) :=
  ⟨rfl, rfl, rfl⟩

theorem ResultRow.failed_sameHead (u : Ungradable) (r : ResultRow) : SameHead r (r.failed u) :=
  ⟨rfl, rfl, rfl⟩

theorem AttemptRow.exhausted_id (u : Ungradable) (a : AttemptRow K) : (a.exhausted u).id = a.id :=
  rfl

theorem AttemptRow.exhausted_gradingResultId (u : Ungradable) (a : AttemptRow K) :
    (a.exhausted u).gradingResultId = a.gradingResultId :=
  rfl

theorem Write.linked [Number K] {db' : Db K} (h : Write env db db') (hl : Linked db) :
    Linked db' := by
  cases h with
  | edit h => exact h.linked hl
  | enlist n ids submissions new => exact hl.enlist n ids submissions new
  | rejudge n result _ _ computation =>
    refine (hl.addComputation ?_ n).updateResult (ResultRow.ruleLayer_sameHead _)
    exact computation.owner ▸ Linked.hasResult_of_result result
  | recheck n result _ _ _ computation =>
    refine (hl.addComputation ?_ n).updateResult ResultRow.reviewed_sameHead
    exact computation.owner ▸ Linked.hasResult_of_result result
  | manual log result _ owner =>
    refine (hl.addReview ?_ log).updateResult ResultRow.reviewed_sameHead
    exact owner ▸ Linked.hasResult_of_result result
  | accept =>
    exact hl.updateResult (ResultRow.advance_sameHead fun _ => ⟨rfl, rfl, rfl⟩)
  | publish =>
    exact hl.updateResult (ResultRow.advance_sameHead fun _ => ⟨rfl, rfl, rfl⟩)
  | openAttempt n result _ _ fresh row =>
    refine hl.addAttempt fresh ?_ n
    rw [row]
    exact Linked.hasResult_of_result result
  | firstScore n _ _ running _ _ _ computation =>
    refine ((hl.close _ _ _ _).addComputation ?_ n).updateResult
      (ResultRow.decided_sameHead _ _ _ _ _)
    exact computation.owner ▸ Linked.hasResult_of_result running.result
  | fail => exact (hl.close _ _ _ _).updateResult fun _ => ⟨rfl, rfl, rfl⟩
  | exhaust u =>
    exact (hl.updateResult (ResultRow.failed_sameHead u)).updateAttempt _
      (AttemptRow.exhausted_id u) (AttemptRow.exhausted_gradingResultId u)
  | exhaustIdle u n result _ _ fresh row =>
    refine Linked.addAttempt (hl.updateResult (ResultRow.failed_sameHead u)) fresh ?_ n
    rw [row]
    refine (Linked.hasResult_updateResult (fun r => (ResultRow.failed_sameHead u r).id) _).2 ?_
    exact Linked.hasResult_of_result result
  | requeue => exact hl.updateResult fun _ => ⟨rfl, rfl, rfl⟩

theorem Writes.linked [Number K] {db' : Db K} (h : Writes env db db') (hl : Linked db) :
    Linked db' := by
  induction h with
  | refl => exact hl
  | tail _ hw ih => exact hw.linked ih

/-! ## Edits -/

namespace Edit

theorem around (db : Db K) (problems : List ProblemRow) (rubricErrors : List RubricErrorRow)
    (priceVersions : List PriceVersionRow) (waivers : List WaiverRow)
    (sightings : List SightingRow) (n : Nat) :
    Edit db { db with
      problems := problems, rubricErrors := rubricErrors, priceVersions := priceVersions
      waivers := waivers, sightings := sightings, drawnIds := n } :=
  ⟨rfl, fun _ => rfl, fun _ rule h => ⟨rule, h, rfl⟩, fun _ => rfl⟩

theorem newRule (db : Db K) (rule : ErrorRuleRow) (n : Nat) :
    Edit db { db with rules := db.rules ++ [rule], drawnIds := n } :=
  ⟨rfl, fun _ => rfl, fun _ rule h => ⟨rule, rowOf_append_of_some _ h, rfl⟩, fun _ => rfl⟩

theorem updateRule (db : Db K) (id : String) (f : ErrorRuleRow → ErrorRuleRow)
    (hid : ∀ r, (f r).id = r.id) (hkey : ∀ r, (f r).ruleKey = r.ruleKey) (n : Nat) :
    Edit db { db.updateRule id f with drawnIds := n } := by
  refine ⟨rfl, fun _ => rfl, fun id' rule hrule => ?_, fun _ => rfl⟩
  refine ⟨if rule.id = id then f rule else rule, ?_, ?_⟩
  · show rowOf _ (updateRow _ _ _ _) _ = _
    rw [rowOf_updateRow hid]
    show Option.map _ (db.rule id') = _
    rw [hrule, Option.map_some]
  · split_ifs
    · exact hkey rule
    · rfl

theorem reviews (db : Db K) {rows : List ReviewRow} (h : ∀ t ∈ rows, t.kind ≠ .manualScore) :
    Edit db { db with reviews := db.reviews ++ rows } := by
  refine ⟨rfl, fun id => ?_, fun _ rule hrule => ⟨rule, hrule, rfl⟩, fun _ => rfl⟩
  rw [Db.hasManualScore, Db.hasManualScore, List.any_append]
  have hnone : rows.any (fun t => decide (t.gradingResultId = id ∧ t.kind = .manualScore)) =
      false := by
    refine List.any_eq_false.2 fun t ht hmatch => ?_
    exact h t ht (of_decide_eq_true hmatch).2
  rw [hnone, Bool.or_false]

end Edit

theorem insertRule_edit (ruleKey name description : String) (predicate : Option RulePredicate) :
    Ensures (insertRule env ruleKey name description predicate) db fun _ db' => Edit db db' := by
  rw [insertRule]
  refine (freshId_spec env _ db).bind fun id db₁ h₁ => ?_
  obtain ⟨_, rfl⟩ := h₁
  refine (freshId_spec env _ _).bind fun revisionId db₂ h₂ => ?_
  obtain ⟨_, rfl⟩ := h₂
  exact ensures_bind (ensures_modify (ensures_pure (Edit.newRule _ _ _)))

theorem chooseRuleKey_same (input : NewRuleInput) :
    Ensures (chooseRuleKey env input) db fun _ db' => db' = db := by
  rw [chooseRuleKey]
  refine ensures_bind (ensures_get ?_)
  split
  · exact ensures_ite (fun _ => ensures_throw) fun _ => ensures_pure rfl
  · exact (uniqueRuleKey_spec _).mono fun _ db' h => h.1

theorem ruleToUse_edit (target : AssignTarget) :
    Ensures (ruleToUse env target) db fun _ db' => Edit db db' := by
  cases target with
  | new input =>
    rw [ruleToUse, createRule]
    refine (chooseRuleKey_same input).bind fun ruleKey db₁ h₁ => ?_
    subst h₁
    exact (insertRule_edit _ _ _ _).bind fun _ db₂ h₂ => ensures_pure h₂
  | existing ruleId changes =>
    rw [ruleToUse, adoptRule]
    refine (ownedRule_spec ruleId).bind fun rule db₁ h₁ => ?_
    obtain ⟨rfl, _⟩ := h₁
    refine ensures_ite (fun _ => ensures_bind ensures_throw) fun _ => ?_
    refine ensures_ite (fun _ => ensures_bind ensures_throw) fun _ => ?_
    refine ensures_ite (fun _ => ensures_pure (.refl _)) fun _ => ?_
    split
    · refine ensures_bind (ensures_modify (ensures_pure ?_))
      refine Edit.updateRule db₁ rule.id (fun r => { r with state := .active }) ?_ ?_ _
      · exact fun _ => rfl
      · exact fun _ => rfl
    · refine (freshId_spec env _ db₁).bind fun revisionId db₂ h₂ => ?_
      obtain ⟨_, rfl⟩ := h₂
      refine ensures_bind (ensures_modify (ensures_pure ?_))
      refine Edit.updateRule db₁ rule.id
        (fun r => { r with state := .active, current := _ }) ?_ ?_ _
      · exact fun _ => rfl
      · exact fun _ => rfl

theorem useRule_edit (rubricName ruleId criterionKey : String) :
    Ensures (useRule env rubricName ruleId criterionKey) db fun _ db' => Edit db db' := by
  rw [useRule]
  refine ensures_bind (ensures_get ?_)
  split
  · refine ensures_ite (fun _ => ?_) fun _ => ensures_pure (.refl db)
    exact ensures_bind (ensures_set (ensures_pure (Edit.around db _ _ _ _ _ _)))
  · refine (freshId_spec env _ db).bind fun id db₁ h₁ => ?_
    obtain ⟨_, rfl⟩ := h₁
    exact ensures_bind (ensures_modify (ensures_pure (Edit.around db _ _ _ _ _ _)))

theorem writeNextPriceVersion_edit (changes : List PriceRow) :
    Ensures (writeNextPriceVersion env changes) db fun _ db' => Edit db db' := by
  rw [writeNextPriceVersion]
  refine (freshId_spec env _ db).bind fun id db₁ h₁ => ?_
  obtain ⟨_, rfl⟩ := h₁
  exact ensures_bind (ensures_modify (ensures_pure (Edit.around db _ _ _ _ _ _)))

theorem copyRows_edit (toRubricName : String) (targetKeys : List String)
    (sources : List CopySource) :
    Ensures (copyRows env toRubricName targetKeys sources) db fun _ db' => Edit db db' := by
  induction sources generalizing db with
  | nil => exact ensures_pure (.refl db)
  | cons src rest ih =>
    rw [copyRows]
    refine ensures_ite (fun _ => ih.bind fun _ db' h' => ensures_pure h') fun _ => ?_
    refine (useRule_edit _ _ _).bind fun o db₁ h₁ => ?_
    cases o with
    | none => exact ih.bind fun _ db' h' => ensures_pure (h₁.trans h')
    | some id => exact ih.bind fun _ db' h' => ensures_pure (h₁.trans h')

theorem proposeRule_edit (ruleKey text : String) :
    Ensures (proposeRule env ruleKey text) db fun _ db' =>
      Edit db db' ∧ db' = { db with rules := db'.rules, drawnIds := db'.drawnIds } := by
  rw [proposeRule]
  refine ensures_bind (ensures_get ?_)
  refine ensures_ite (fun _ => ensures_pure ⟨.refl db, rfl⟩) fun _ => ?_
  refine (freshId_spec env _ db).bind fun id db₁ h₁ => ?_
  obtain ⟨_, rfl⟩ := h₁
  refine (freshId_spec env _ _).bind fun revisionId db₂ h₂ => ?_
  obtain ⟨_, rfl⟩ := h₂
  exact ensures_modify ⟨Edit.newRule db _ _, rfl⟩

theorem recordMissingRules_edit (missing : List String) (resultId sessionId rubricName : String) :
    Ensures (recordMissingRules env missing resultId sessionId rubricName) db fun _ db' =>
      Edit db db' ∧ db' = { db with
        rules := db'.rules, sightings := db'.sightings, drawnIds := db'.drawnIds } := by
  rw [recordMissingRules]
  refine ensures_forM (I := fun _ db' => Edit db db' ∧ db' = { db with
    rules := db'.rules, sightings := db'.sightings, drawnIds := db'.drawnIds })
    (fun entry rest db₁ h₁ => ?_) _ ⟨.refl db, rfl⟩
  obtain ⟨hedit, htables⟩ := h₁
  refine (proposeRule_edit _ _).bind fun _ db₂ h₂ => ensures_modify ?_
  obtain ⟨hedit₂, htables₂⟩ := h₂
  refine ⟨(hedit.trans hedit₂).trans (Edit.around db₂ _ _ _ _ _ _), ?_⟩
  rw [htables] at htables₂
  rw [htables₂]

/-! ## Recomputations -/

theorem insertComputation_row (ctx : ScoreContext K) (reason : ComputationReason)
    (out : ScoreCoreOutput K) {r : ResultRow} (hid : ctx.resultId = r.id)
    (hattempt : ctx.attemptId = r.currentAttemptId) :
    Ensures (insertComputation env ctx reason out) db fun _ db' =>
      ∃ c n, ComputationOf r reason out c ∧ db' = db.addComputation c n := by
  rw [insertComputation]
  refine (freshId_spec env _ db).bind fun id db₁ h₁ => ?_
  obtain ⟨_, rfl⟩ := h₁
  refine ensures_bind (ensures_modify (ensures_pure ⟨_, db.drawnIds + 1, ?_, rfl⟩))
  exact ⟨hid, congrArg (fun o => o.getD "") hattempt, rfl, rfl, rfl⟩

variable [Number K]

theorem recomputeOne_row (resultId : String) (reason : ComputationReason) :
    Ensures (recomputeOne env resultId reason) db fun out db' =>
      ∃ r stored c n, r.id = resultId ∧ db.result r.id = some r ∧
        db.gradedInvestigation r = some stored ∧ db.Computes env r stored out ∧
        ComputationOf r reason out c ∧ db' = db.addComputation c n := by
  rw [recomputeOne]
  refine ensures_bind (ensures_get ?_)
  refine ensures_bind (ensures_lift fun ctx hctx => ?_)
  obtain ⟨r, session, rubric, hr, hsession, hrubric, rfl⟩ := rows_of_loadScoreContext hctx
  refine ensures_bind (ensures_lift fun out hout => ?_)
  obtain ⟨stored, hstored, hscore⟩ := compute_spec hout
  have hid : r.id = resultId := rowOf_key hr
  refine (insertComputation_row _ reason out (r := r) rfl rfl).bind fun _ db' h' =>
    ensures_pure ?_
  obtain ⟨c, n, hc, hdb⟩ := h'
  have hgraded : db.gradedInvestigation r = some stored := by
    have hcontext : (none : Option (StoredInvestigation K)).or (db.gradedInvestigation r) =
      some stored := hstored
    rwa [Option.none_or] at hcontext
  exact ⟨r, stored, c, n, hid, hid ▸ hr, hgraded, ⟨session, rubric, hsession, hrubric, hscore⟩,
    hc, hdb⟩

theorem rejudge_row (h : Linked db) (id : String) (reason : ComputationReason) :
    Ensures (recomputeOne env id reason >>= fun out => ruleLayerTransition id out) db
      fun _ db' => ∃ r stored out c n, r.id = id ∧ db.result r.id = some r ∧
        db.gradedInvestigation r = some stored ∧ db.Computes env r stored out ∧
          ComputationOf r reason out c ∧ db' = (db.addComputation c n).updateResult r.id
            (ResultRow.ruleLayer (out.outcome = .auto)) := by
  refine (recomputeOne_row id reason).bind fun out db₁ h₁ => ?_
  obtain ⟨r, stored, c, n, rfl, hr, hgraded, hscore, hc, rfl⟩ := h₁
  have hids : ((db.addComputation c n).results.map ResultRow.id).Nodup := h.ids
  refine (ruleLayerTransition_row hids out).mono fun _ db' h' => ?_
  exact ⟨r, stored, out, c, n, rfl, hr, hgraded, hscore, hc, h'⟩

theorem rejudge_writes (h : Linked db) (id : String) {reason : ComputationReason}
    (hreason : reason ≠ .initial) :
    Ensures (recomputeOne env id reason >>= fun out => ruleLayerTransition id out) db
      fun _ db' => Writes env db db' := by
  refine (rejudge_row h id reason).mono fun _ db' h' => ?_
  obtain ⟨r, stored, out, c, n, rfl, hr, hgraded, hscore, hc, rfl⟩ := h'
  exact .single (.rejudge n hr hgraded hscore hc hreason)

theorem recomputeForTeacher_writes (h : Linked db) {reason : ComputationReason}
    (hreason : reason ≠ .initial) (scope : RecomputeScope) :
    Ensures (recomputeForTeacher env reason scope) db fun _ db' => Writes env db db' := by
  rw [recomputeForTeacher]
  refine ensures_bind (ensures_get ?_)
  refine ensures_forM (I := fun _ db' => Writes env db db') (fun id rest db₁ h₁ => ?_) _ .refl
  exact (rejudge_writes (h₁.linked h) id hreason).mono fun _ db₂ h₂ => h₁.trans h₂

/-! ## The operations on rules -/

theorem Edit.recompute {db₁ : Db K} (hedit : Edit db db₁) (h : Linked db)
    (reason : ComputationReason) (scope : RecomputeScope)
    (hreason : reason ≠ .initial := by decide) :
    Ensures (recomputeForTeacher env reason scope) db₁ fun _ db' => Writes env db db' := by
  refine (recomputeForTeacher_writes (hedit.linked h) hreason scope).mono fun _ db' h' => ?_
  exact Relation.ReflTransGen.head (.edit hedit) h'

theorem Edit.recomputeRubric {db₁ : Db K} (hedit : Edit db db₁) (h : Linked db)
    (rubricName : String) :
    Ensures (recomputeRubric env rubricName) db₁ fun _ db' => Writes env db db' :=
  hedit.recompute h _ _

theorem assign_writes (h : Linked db) (input : AssignInput) :
    Ensures (assign env input) db fun _ db' => Writes env db db' := by
  rw [assign]
  refine (assertRubricCriterion_spec _ _).bind fun _ db₀ h₀ => ?_
  subst h₀
  refine (ruleToUse_edit _).bind fun p db₁ h₁ => ?_
  refine (useRule_edit _ _ _).bind fun o db₂ h₂ => ?_
  have hedit := h₁.trans h₂
  cases o with
  | none => exact ensures_throw
  | some id =>
    have hrecompute : ∀ db₃, Edit db₀ db₃ → Ensures (do
        if isMachineChecked p.2 then Grading.recomputeRubric env input.rubricName
        return (id, p.1)) db₃ fun _ db' => Writes env db₀ db' := by
      intro db₃ h₃
      refine ensures_ite (fun _ => ?_) fun _ => ensures_pure (.single (.edit h₃))
      exact (h₃.recomputeRubric h _).bind fun _ db' h' => ensures_pure h'
    cases hdeduction : input.deduction with
    | none => exact hrecompute db₂ hedit
    | some deduction =>
      exact (writeNextPriceVersion_edit _).bind fun _ db₃ h₃ => hrecompute db₃ (hedit.trans h₃)

theorem move_writes (h : Linked db) (rubricErrorId criterionKey : String) :
    Ensures (move env rubricErrorId criterionKey) db fun _ db' => Writes env db db' := by
  rw [move]
  refine (ownedRubricError_spec rubricErrorId).bind fun row db₁ h₁ => ?_
  obtain ⟨rfl, _⟩ := h₁
  refine (assertRubricCriterion_spec _ _).bind fun _ db₂ h₂ => ?_
  subst h₂
  exact ensures_bind (ensures_modify ((Edit.around db₂ _ _ _ _ _ _).recomputeRubric h _))

theorem remove_writes (h : Linked db) (rubricErrorId : String) :
    Ensures (remove env rubricErrorId) db fun _ db' => Writes env db db' := by
  rw [remove]
  refine (ownedRubricError_spec rubricErrorId).bind fun row db₁ h₁ => ?_
  obtain ⟨rfl, _⟩ := h₁
  exact ensures_bind (ensures_modify ((Edit.around db₁ _ _ _ _ _ _).recomputeRubric h _))

theorem copy_writes (h : Linked db) (fromRubricName toRubricName : String) :
    Ensures (copy env fromRubricName toRubricName) db fun _ db' => Writes env db db' := by
  rw [copy]
  refine ensures_ite (fun _ => ensures_bind ensures_throw) fun _ => ?_
  refine (assertRubricExists_spec _).bind fun _ db₁ h₁ => ?_
  subst h₁
  refine (assertRubricExists_spec _).bind fun target db₂ h₂ => ?_
  subst h₂
  refine ensures_bind (ensures_get ?_)
  refine (copyRows_edit _ _ _).bind fun tally db₃ h₃ => ?_
  refine ensures_ite (fun _ => ?_) fun _ => ensures_pure (.single (.edit h₃))
  refine (writeNextPriceVersion_edit _).bind fun _ db₄ h₄ => ?_
  exact ((h₃.trans h₄).recomputeRubric h _).bind fun _ db' h' => ensures_pure h'

theorem revise_writes (h : Linked db) (ruleId : String) (changes : RuleChanges) :
    Ensures (revise env ruleId changes) db fun _ db' => Writes env db db' := by
  rw [revise]
  refine (ownedRule_spec ruleId).bind fun rule db₁ h₁ => ?_
  obtain ⟨rfl, _⟩ := h₁
  refine (freshId_spec env _ db₁).bind fun revisionId db₂ h₂ => ?_
  obtain ⟨_, rfl⟩ := h₂
  refine ensures_bind (ensures_modify ?_)
  have hedit : ∀ next, Edit db₁ { db₁.updateRule rule.id (fun r => { r with current := next }) with
      drawnIds := db₁.drawnIds + 1 } :=
    fun next => Edit.updateRule db₁ rule.id (fun r => { r with current := next }) (fun _ => rfl)
      (fun _ => rfl) _
  refine ensures_ite (fun _ => ?_) fun _ => ensures_pure (.single (.edit (hedit _)))
  exact ((hedit _).recompute h _ _).bind fun _ db' h' => ensures_pure h'

theorem setState_writes (h : Linked db) (ruleId : String) (state : EndState) :
    Ensures (setState env ruleId state) db fun _ db' => Writes env db db' := by
  rw [setState]
  refine (ownedRule_spec ruleId).bind fun rule db₁ h₁ => ?_
  obtain ⟨rfl, _⟩ := h₁
  have hedit : Edit db₁ { db₁.updateRule rule.id (fun r => { r with state := state.toRuleState }) with
      drawnIds := db₁.drawnIds } :=
    Edit.updateRule db₁ rule.id (fun r => { r with state := state.toRuleState }) (fun _ => rfl)
      (fun _ => rfl) _
  exact ensures_bind (ensures_modify (hedit.recompute h _ _))

theorem setPrice_writes (h : Linked db) (rubricErrorId : String) (deduction : Option Int) :
    Ensures (setPrice env rubricErrorId deduction) db fun _ db' => Writes env db db' := by
  rw [setPrice]
  refine (ownedRubricError_spec rubricErrorId).bind fun row db₁ h₁ => ?_
  obtain ⟨rfl, _⟩ := h₁
  refine (writeNextPriceVersion_edit _).bind fun _ db₂ h₂ => ?_
  exact (h₂.recompute h _ _).bind fun _ db' h' => ensures_pure h'

omit [Number K] in
theorem copiedExceptions_kind {rubricName ruleId newRuleId : String} {t : ReviewRow}
    (ht : t ∈ db.copiedExceptions rubricName ruleId newRuleId) : t.kind ≠ .manualScore := by
  obtain ⟨g, _, hcopied⟩ := List.mem_filterMap.1 ht
  obtain ⟨direction, _, rfl⟩ := Option.map_eq_some_iff.1 hcopied
  exact fun heq => nomatch heq

theorem split_writes (h : Linked db) (ruleId rubricName : String) (changes : RuleChanges) :
    Ensures (split env ruleId rubricName changes) db fun _ db' => Writes env db db' := by
  rw [split]
  refine (ownedRule_spec ruleId).bind fun rule db₁ h₁ => ?_
  obtain ⟨rfl, _⟩ := h₁
  refine ensures_bind (ensures_get ?_)
  split
  · exact ensures_throw
  · refine ensures_ite (fun _ => ensures_bind ensures_throw) fun _ => ?_
    refine (uniqueRuleKey_spec _).bind fun ruleKey db₂ h₂ => ?_
    obtain ⟨rfl, _, _⟩ := h₂
    refine (insertRule_edit _ _ _ _).bind fun newRuleId db₃ h₃ => ?_
    refine ensures_bind (ensures_modify (ensures_bind (ensures_modify ?_)))
    have hrow : ∀ rows, Edit db₂ { db₃ with rubricErrors := rows } :=
      fun rows => h₃.trans (Edit.around db₃ _ rows _ _ _ _)
    refine (((hrow _).trans (Edit.reviews _ fun t ht => ?_)).recomputeRubric h _).bind
      fun _ db' h' => ensures_pure h'
    exact copiedExceptions_kind ht

theorem setWaiver_writes (h : Linked db) (rubricId criterionKey : String) :
    Ensures (setWaiver env rubricId criterionKey) db fun _ db' => Writes env db db' := by
  rw [setWaiver]
  refine (ownedRubric_spec rubricId _).bind fun rubric db₁ h₁ => ?_
  subst h₁
  refine ensures_ite (fun _ => ensures_bind ensures_throw) fun _ => ?_
  refine ensures_bind (ensures_get ?_)
  split
  · exact ensures_pure .refl
  · refine (freshId_spec env _ db₁).bind fun id db₂ h₂ => ?_
    obtain ⟨_, rfl⟩ := h₂
    refine ensures_bind (ensures_modify ?_)
    exact ((Edit.around db₁ _ _ _ _ _ _).recompute h _ _).bind
      fun _ db' h' => ensures_pure h'

theorem revokeWaiver_writes (h : Linked db) (waiverId : String) :
    Ensures (revokeWaiver env waiverId) db fun _ db' => Writes env db db' := by
  rw [revokeWaiver]
  refine ensures_bind (ensures_get ?_)
  split
  · exact ensures_throw
  · refine (ownedRubric_spec _ _).bind fun rubric db₁ h₁ => ?_
    subst h₁
    refine ensures_ite (fun _ => ensures_bind ensures_throw) fun _ => ?_
    exact ensures_bind (ensures_set
      ((Edit.around db₁ _ _ _ _ _ _).recompute h _ _))

end Cine.Grading
