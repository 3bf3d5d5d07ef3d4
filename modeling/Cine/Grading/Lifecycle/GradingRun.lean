import Cine.Grading.Audit.AuditReview
import Cine.Grading.OneShot.GradeOne
import Cine.Grading.Review.TeacherReview
import Cine.Grading.Sampling.TopUp
import Cine.Grading.Scoring.NoStaleScores
import Cine.Grading.Start.OwnQuestion
import Cine.Lib.Machine

/-!
# The moves of a run

Everything that moves the papers of a teacher: the start of grading, the
operations on rules and papers, the writes of the one-shot pipeline, the
reviews, and the reset of a breaker.  Each of them is one transaction or one
statement.

`finishAttempt` ends with the sample of its session.  `Move` has the two
halves as moves of their own as well, so that a statement about the sample
can name the state in which it is taken: `run_finishAttempt`.

A move other than a top-up is a sequence of `Change`s.
-/

namespace Cine.Grading

open Cine.Lib

variable {K : Type}

/-! ## Moves -/

inductive Move (K : Type)
  | startGrading (t : IntakeTables) (sessionId : String)
  | operation (op : Operation K)
  | concludeAttempt (resultId attemptId : String) (stored : StoredInvestigation K)
  | topUp (sessionId : String)
  | writeOneShotScore (resultId : String) (score : Int) (confidence modelUsed : Option String)
  | writeOneShotFlag (resultId : String) (confident : Bool)
  | review (resultId : String) (dto : List ReviewCriterion)
  | recordAudit (now : Nat) (resultId : String) (pickedRuleIds extraErrors : List String)
  | reset (now : Nat) (breakerId : String)

/-- The end of an attempt with the sample of its session. -/
def Operation.isFinish : Operation K → Bool
  | .finishAttempt .. => true
  | _ => false

/-- A move that may take the sample of a session. -/
def Move.samples : Move K → Bool
  | .topUp _ => true
  | .operation op => op.isFinish
  | _ => false

/-- The tables after a move, which leaves no trace when it throws. -/
def Move.run [Number K] (env : GradingEnv K) (trips : Nat → Nat → Bool) (s : AuditDb K) :
    Move K → AuditDb K
  | .startGrading t sessionId =>
    { s with db := (Grading.startGrading env t sessionId s.db []).2.1 }
  | .operation op => { s with db := op.run env s.view }
  | .concludeAttempt resultId attemptId stored =>
    commit (onDb (Grading.concludeAttempt env resultId attemptId stored)) s
  | .topUp sessionId => commit (onDb (topUpSessionAudit env sessionId)) s
  | .writeOneShotScore resultId score confidence modelUsed =>
    commit (onDb (Grading.writeOneShotScore resultId score confidence modelUsed)) s
  | .writeOneShotFlag resultId confident =>
    commit (onDb (Grading.writeOneShotFlag resultId confident)) s
  | .review resultId dto => commit (onDb (Grading.review resultId dto)) s
  | .recordAudit now resultId pickedRuleIds extraErrors =>
    commit (Grading.recordAudit env trips now resultId pickedRuleIds extraErrors) s
  | .reset now breakerId => commit (Grading.reset now breakerId) s

/-! ## Changes -/

namespace ResultRow

/-- The score of a one-shot paper on its row. -/
def oneShotScored (score : Int) (confidence modelUsed : Option String) (r : ResultRow) :
    ResultRow :=
  if r.pipeline = .oneShot then
    r.advance [.aiGrading] .aiGraded fun r =>
      { r with aiTotalScore := some score, confidence := confidence, modelUsed := modelUsed }
  else r

/-- The flag of a one-shot paper on its row. -/
def oneShotFlagged (confident : Bool) (r : ResultRow) : ResultRow :=
  if r.pipeline = .oneShot then
    r.advance [.aiGraded] .flaggedForReview fun r => { r with flagForReview := !confident }
  else r

/-- The review of a sampled paper on its row. -/
def audited : ResultRow → ResultRow :=
  advance [.auditPending] .teacherReviewed fun r => { r with flagForReview := false }

theorem oneShotScored_sameHead (score : Int) (confidence modelUsed : Option String)
    (r : ResultRow) : SameHead r (r.oneShotScored score confidence modelUsed) := by
  rw [oneShotScored]
  split_ifs
  · exact advance_sameHead (fun _ => ⟨rfl, rfl, rfl⟩) r
  · exact .refl r

theorem oneShotFlagged_sameHead (confident : Bool) (r : ResultRow) :
    SameHead r (r.oneShotFlagged confident) := by
  rw [oneShotFlagged]
  split_ifs
  · exact advance_sameHead (fun _ => ⟨rfl, rfl, rfl⟩) r
  · exact .refl r

theorem audited_sameHead (r : ResultRow) : SameHead r r.audited :=
  advance_sameHead (fun _ => ⟨rfl, rfl, rfl⟩) r

end ResultRow

/-- What a move other than a top-up does, step by step. -/
inductive Change [Number K] (env : GradingEnv K) (db : Db K) : Db K → Prop
  | write {db' : Db K} (h : Write env db db') : Change env db db'
  | oneShotScore (resultId : String) (score : Int) (confidence modelUsed : Option String) :
      Change env db (db.updateResult resultId
        (ResultRow.oneShotScored score confidence modelUsed))
  | oneShotFlag (resultId : String) (confident : Bool) :
      Change env db (db.updateResult resultId (ResultRow.oneShotFlagged confident))
  /-- A teacher has reviewed a one-shot paper. -/
  | reviewed {r : ResultRow} {row : ReviewRow} (log : List AuditRow)
      (result : db.result r.id = some r) (reviewable : r.isReviewable = true)
      (owner : row.gradingResultId = r.id) (kind : row.kind ≠ .manualScore) :
      Change env db
        (Db.updateResult { db with reviews := db.reviews ++ [row], auditLog := log } r.id
          (ResultRow.advance [.autoApproved, .flaggedForReview] .teacherReviewed id))
  /-- A teacher has reviewed a sampled paper. -/
  | audited (resultId : String) : Change env db (db.updateResult resultId ResultRow.audited)
  /-- The breakers as they are read now. -/
  | breakers (keys : List String) (noError : Bool) :
      Change env db { db with openBreakerRuleKeys := keys, noErrorBreakerOpen := noError }

abbrev Changes [Number K] (env : GradingEnv K) : Db K → Db K → Prop :=
  Relation.ReflTransGen (Change env)

/-- The rules stay, and so does what is shown of the breakers. -/
structure KeepsBreakers (db db' : Db K) : Prop where
  ruleKeys : KeepsRuleKeys db db'
  keys : db'.openBreakerRuleKeys = db.openBreakerRuleKeys
  noError : db'.noErrorBreakerOpen = db.noErrorBreakerOpen

/-- Changes under the same breakers. -/
abbrev Steps [Number K] (env : GradingEnv K) : Db K → Db K → Prop :=
  Relation.ReflTransGen fun db db' => Change env db db' ∧ KeepsBreakers db db'

/-! ## Linked tables -/

namespace Linked

variable {db : Db K}

theorem breakers (hl : Linked db) (keys : List String) (noError : Bool) :
    Linked { db with openBreakerRuleKeys := keys, noErrorBreakerOpen := noError } :=
  ⟨hl.ids, hl.submissions, hl.papers, hl.current, hl.attempts, hl.computations, hl.manual⟩

theorem view {s : AuditDb K} (hl : Linked s.db) : Linked s.view := hl.breakers _ _

theorem review (hl : Linked db) {row : ReviewRow} (log : List AuditRow)
    (hkind : row.kind ≠ .manualScore) :
    Linked { db with reviews := db.reviews ++ [row], auditLog := log } := by
  refine ⟨hl.ids, hl.submissions, hl.papers, hl.current, hl.attempts, hl.computations, ?_⟩
  intro id hm
  refine hl.manual id ?_
  rw [Db.hasManualScore, List.any_append, Bool.or_eq_true] at hm
  refine hm.resolve_right fun hrow => hkind ?_
  simp only [List.any_cons, List.any_nil, Bool.or_false, decide_eq_true_eq] at hrow
  exact hrow.2

end Linked

section Changes

variable [Number K] {env : GradingEnv K} {db db' : Db K}

theorem Writes.changes (h : Writes env db db') : Changes env db db' := by
  induction h with
  | refl => exact .refl
  | tail _ hw ih => exact ih.tail (.write hw)

theorem Steps.changes (h : Steps env db db') : Changes env db db' :=
  Relation.ReflTransGen.mono (fun _ _ hstep => hstep.1) _ _ h

omit [Number K] in
theorem KeepsBreakers.papers (results : List ResultRow) (reviews : List ReviewRow)
    (log : List AuditRow) :
    KeepsBreakers db { db with results := results, reviews := reviews, auditLog := log } :=
  ⟨fun _ rule hrule => ⟨rule, hrule, rfl⟩, rfl, rfl⟩

theorem Change.linked (h : Change env db db') (hl : Linked db) : Linked db' := by
  cases h with
  | write h => exact h.linked hl
  | oneShotScore => exact hl.updateResult (ResultRow.oneShotScored_sameHead _ _ _)
  | oneShotFlag => exact hl.updateResult (ResultRow.oneShotFlagged_sameHead _)
  | reviewed log _ _ _ hkind =>
    exact (hl.review log hkind).updateResult
      (ResultRow.advance_sameHead fun _ => ⟨rfl, rfl, rfl⟩)
  | audited => exact hl.updateResult ResultRow.audited_sameHead
  | breakers keys noError => exact hl.breakers keys noError

theorem Changes.linked (h : Changes env db db') (hl : Linked db) : Linked db' := by
  induction h with
  | refl => exact hl
  | tail _ hc ih => exact hc.linked ih

/-! ## The moves, one by one -/

omit [Number K] in
theorem startGrading_enlists (hl : Linked db) (t : IntakeTables) (sessionId : String)
    (queue : List GradeSubmissionJob) :
    (startGrading env t sessionId db queue).2.1 = db ∨
      ∃ rows n, ((db.results ++ rows).map ResultRow.id).Nodup ∧
        ((db.results ++ rows).map ResultRow.submissionId).Nodup ∧ (∀ r ∈ rows, r.IsNew) ∧
          (startGrading env t sessionId db queue).2.1 =
            { db with results := db.results ++ rows, drawnIds := n } := by
  rcases h : startGrading env t sessionId db queue with ⟨answer, db', queue'⟩
  cases answer with
  | error e => exact .inl (startGrading_error h).1
  | ok a =>
    obtain ⟨plan, hplan, hids, hdb⟩ := startGrading_ok h
    obtain ⟨_, _, _, _, _, htodo, _⟩ := planStart_cases hplan
    refine .inr ⟨_, _, hids, ?_, ?_, hdb⟩
    · have hpapers : (db.newResults env t sessionId plan).map ResultRow.submissionId =
          plan.todo.map SubmissionRow.id := by
        refine List.ext_getElem? fun i => ?_
        rw [Db.newResults, List.getElem?_map, List.getElem?_mapIdx, Option.map_map,
          List.getElem?_map]
        rfl
      rw [List.map_append, hpapers, htodo]
      refine List.Nodup.append hl.submissions ?_ fun id hold hnew => ?_
      · exact hl.papers.sublist ((List.filter_sublist.trans List.filter_sublist).map _)
      · obtain ⟨paper, hpaper, rfl⟩ := List.mem_map.1 hnew
        obtain ⟨r, hr, hid⟩ := List.mem_map.1 hold
        have hgraded : db.isGraded paper = true :=
          List.any_eq_true.2 ⟨r, hr, decide_eq_true hid⟩
        rw [(mem_todo hpaper).2.2] at hgraded
        cases hgraded
    · intro r hr
      rw [Db.newResults] at hr
      obtain ⟨i, hi, rfl⟩ := List.mem_mapIdx.1 hr
      exact ⟨rfl, rfl, rfl, rfl, rfl⟩

theorem startGrading_writes (hl : Linked db) (t : IntakeTables) (sessionId : String)
    (queue : List GradeSubmissionJob) :
    Writes env db (startGrading env t sessionId db queue).2.1 := by
  rcases (startGrading_enlists hl t sessionId queue :
      (startGrading env t sessionId db queue).2.1 = db ∨ _) with
    hsame | ⟨rows, n, hids, hsubmissions, hnew, hdb⟩
  · rw [hsame]
  · rw [hdb]
    exact .single (.enlist n hids hsubmissions hnew)

theorem Operation.writes (hl : Linked db) {op : Operation K} (hop : op.isFinish = false) :
    Writes env db (op.run env db) := by
  cases op with
  | startAttempt resultId => exact commit_of_ensures (startAttempt_writes resultId) .refl
  | finishAttempt => cases hop
  | finishUngradable resultId attemptId u =>
    exact commit_of_ensures (finishUngradable_writes hl resultId attemptId u) .refl
  | markUngradable submissionId reason =>
    exact commit_of_ensures (markUngradable_writes hl submissionId reason) .refl
  | requeue resultId => exact commit_of_ensures (requeue_writes resultId) .refl
  | assign input => exact commit_of_ensures (assign_writes hl input) .refl
  | move rubricErrorId criterionKey =>
    exact commit_of_ensures (move_writes hl rubricErrorId criterionKey) .refl
  | remove rubricErrorId => exact commit_of_ensures (remove_writes hl rubricErrorId) .refl
  | copy fromRubricName toRubricName =>
    exact commit_of_ensures (copy_writes hl fromRubricName toRubricName) .refl
  | revise ruleId changes => exact commit_of_ensures (revise_writes hl ruleId changes) .refl
  | split ruleId rubricName changes =>
    exact commit_of_ensures (split_writes hl ruleId rubricName changes) .refl
  | setState ruleId state => exact commit_of_ensures (setState_writes hl ruleId state) .refl
  | setPrice rubricErrorId deduction =>
    exact commit_of_ensures (setPrice_writes hl rubricErrorId deduction) .refl
  | setWaiver rubricId criterionKey =>
    exact commit_of_ensures (setWaiver_writes hl rubricId criterionKey) .refl
  | revokeWaiver waiverId => exact commit_of_ensures (revokeWaiver_writes hl waiverId) .refl
  | setErrorException resultId ruleId direction =>
    exact commit_of_ensures (setErrorException_writes hl resultId ruleId direction) .refl
  | setManualScore resultId hundredths =>
    exact commit_of_ensures (setManualScore_writes hl resultId hundredths) .refl
  | pin sessionId bundleId => exact commit_of_ensures (pin_writes sessionId bundleId) .refl
  | finalizeGrades sessionId => exact commit_of_ensures (finalizeGrades_writes hl sessionId) .refl

end Changes

section Moves

variable [Number K] {env : GradingEnv K} {trips : Nat → Nat → Bool} {s : AuditDb K} {db : Db K}

omit [Number K] in
theorem ensures_onDb {α : Type} {m : DbTx K α} {Q : α → AuditDb K → Prop}
    (h : Ensures m s.view fun a db' => Q a { s with db := db' }) : Ensures (onDb m) s Q := by
  intro a s' hrun
  rw [onDb] at hrun
  cases hm : m s.view with
  | error e =>
    rw [hm] at hrun
    cases hrun
  | ok p =>
    rw [hm] at hrun
    cases hrun
    exact h p.1 p.2 hm

theorem onDb_changes {α : Type} {m : DbTx K α}
    (h : Ensures m s.view fun _ db' => Changes env s.view db') :
    Ensures (onDb m) s fun _ s' => Changes env s.db s'.db :=
  ensures_onDb (h.mono fun _ _ h' => .head (.breakers _ _) h')

theorem commit_onDb_changes {α : Type} {m : DbTx K α}
    (h : Ensures m s.view fun _ db' => Changes env s.view db') :
    Changes env s.db (commit (onDb m) s).db :=
  commit_of_ensures (P := fun s' : AuditDb K => Changes env s.db s'.db) (onDb_changes h) .refl

theorem writeOneShotScore_steps (hl : Linked db) (resultId : String) (score : Int)
    (confidence modelUsed : Option String) :
    Ensures (writeOneShotScore resultId score confidence modelUsed) db fun _ db' =>
      Steps env db db' := by
  rw [writeOneShotScore]
  refine ensures_bind (ensures_get ?_)
  refine ensures_ite (fun hpipeline => ?_) fun _ => ensures_pure .refl
  refine (advanceStatus_row hl.ids _ _ _).mono fun _ db' h' => ?_
  have hsame : db' = db.updateResult resultId
      (ResultRow.oneShotScored score confidence modelUsed) := by
    refine h'.2.trans (updateResult_congr fun r hr hid => ?_)
    rw [status_of_result hl.ids hr hid] at hpipeline
    rw [ResultRow.oneShotScored, if_pos (of_decide_eq_true hpipeline)]
  rw [hsame]
  exact .single ⟨.oneShotScore resultId score confidence modelUsed, .papers _ _ _⟩

theorem writeOneShotFlag_steps (hl : Linked db) (resultId : String) (confident : Bool) :
    Ensures (writeOneShotFlag resultId confident) db fun _ db' => Steps env db db' := by
  rw [writeOneShotFlag]
  refine ensures_bind (ensures_get ?_)
  refine ensures_ite (fun hpipeline => ?_) fun _ => ensures_pure .refl
  refine (advanceStatus_row hl.ids _ _ _).mono fun _ db' h' => ?_
  have hsame : db' = db.updateResult resultId (ResultRow.oneShotFlagged confident) := by
    refine h'.2.trans (updateResult_congr fun r hr hid => ?_)
    rw [status_of_result hl.ids hr hid] at hpipeline
    rw [ResultRow.oneShotFlagged, if_pos (of_decide_eq_true hpipeline)]
  rw [hsame]
  exact .single ⟨.oneShotFlag resultId confident, .papers _ _ _⟩

theorem reviewWithin_steps (hl : Linked db) {r : ResultRow} (hr : db.result r.id = some r)
    (hreviewable : r.isReviewable = true) (dto : List ReviewCriterion) {kind : ReviewKind}
    (hkind : kind ≠ .manualScore) :
    Ensures (reviewWithin r dto kind) db fun _ db' => Steps env db db' := by
  rw [reviewWithin]
  refine ensures_bind (ensures_get ?_)
  refine ensures_bind (ensures_lift fun finalScore _ => ?_)
  rw [writeReview]
  set row : ReviewRow := ⟨r.id, kind, some finalScore, none, none⟩ with hrow
  refine ensures_bind (ensures_modify ?_)
  set db₀ : Db K := { db with reviews := db.reviews ++ [row] } with hdb₀
  have hids : (db₀.results.map ResultRow.id).Nodup := hl.ids
  refine (advanceStatus_row hids _ _ _).bind fun _ db₁ h₁ => ?_
  refine ensures_ite (fun _ => ensures_bind (ensures_modify (ensures_pure ?_))) fun _ =>
    ensures_pure ?_
  · rw [h₁.2]
    exact .single ⟨.reviewed (r := r)
      (db.auditLog ++ [⟨"grading_result.score_edited_after_finalize", r.id,
        if r.status ∈ publishedStatuses then db.currentFinalScore r else none, some finalScore⟩])
      hr hreviewable rfl hkind, .papers _ _ _⟩
  · rw [h₁.2]
    exact .single ⟨.reviewed db.auditLog hr hreviewable rfl hkind, .papers _ _ _⟩

theorem review_steps (hl : Linked db) (resultId : String) (dto : List ReviewCriterion) :
    Ensures (review resultId dto) db fun _ db' => Steps env db db' := by
  rw [review]
  refine (findResultForOwner_spec resultId).bind fun r db₁ h₁ => ?_
  obtain ⟨rfl, hr⟩ := h₁
  refine ensures_ite (fun _ => ensures_bind ensures_throw) fun _ => ?_
  refine ensures_ite (fun _ => ensures_bind ensures_throw) fun hreviewable => ?_
  have hid : r.id = resultId := rowOf_key hr
  rw [← hid] at hr
  rw [Bool.not_eq_true', Bool.not_eq_false] at hreviewable
  exact (reviewWithin_steps hl hr hreviewable dto (by decide)).bind fun _ _ h' =>
    ensures_pure h'

/-! ## Breakers -/

omit [Number K] in
theorem trip_spec (now : Nat) (scope : BreakerScope) (counts : Nat × Nat) :
    Ensures (trip env now scope counts) s fun id s' =>
      id ∉ s.breakers.map BreakerRow.id ∧
        s' = { s with
          db := { s.db with drawnIds := s.db.drawnIds + 1 }
          breakers := s.breakers ++ [⟨id, scope, now, counts.1, counts.2, none⟩] } := by
  rw [trip]
  refine ensures_bind (ensures_get ?_)
  refine ensures_ite (fun _ => ensures_bind ensures_throw) fun hfresh => ?_
  exact ensures_bind (ensures_modify (ensures_pure ⟨hfresh, rfl⟩))

theorem evaluate_changes (hl : Linked s.db) (now : Nat) (scope : BreakerScope)
    (counts : AuditDb K → Nat × Nat) (recompute : RecomputeScope) :
    Ensures (evaluate env trips now scope counts recompute) s fun _ s' =>
      Changes env s.db s'.db := by
  rw [evaluate]
  refine ensures_bind (ensures_get ?_)
  refine ensures_ite (fun _ => ensures_pure .refl) fun _ => ?_
  refine ensures_ite (fun _ => ensures_pure .refl) fun _ => ?_
  refine (trip_spec now scope _).bind fun id s₁ h₁ => ?_
  have hedit : Edit s.db s₁.db := by
    rw [h₁.2]
    exact Edit.around s.db _ _ _ _ _ _
  refine (onDb_changes ?_).bind fun _ s' h' => ensures_pure (h'.head (.write (.edit hedit)))
  exact (recomputeForTeacher_writes (hedit.linked hl).view (by decide) recompute).mono
    fun _ _ h' => h'.changes

theorem evaluateRules_changes (hl : Linked s.db) (now : Nat) (resultId : String)
    (ruleIds : List String) :
    Ensures (evaluateRules env trips now resultId ruleIds) s fun _ s' =>
      Changes env s.db s'.db := by
  induction ruleIds generalizing s with
  | nil => exact ensures_pure .refl
  | cons ruleId rest ih =>
    rw [evaluateRules]
    refine (evaluate_changes hl now _ _ _).bind fun _ s₁ h₁ => ?_
    exact (ih (h₁.linked hl)).bind fun _ s' h' => ensures_pure (h₁.trans h')

theorem evaluateScopes_changes (hl : Linked s.db) (now : Nat) (resultId : String)
    (ruleIds : List String) (noErrorClass : Bool) (counts : AuditDb K → Nat × Nat)
    (recompute : RecomputeScope) :
    Ensures (do
      let rules ← evaluateRules env trips now resultId ruleIds
      if noErrorClass then
        let noError ← evaluate env trips now .noError counts recompute
        return rules ++ noError
      else return rules) s fun _ s' => Changes env s.db s'.db := by
  refine (evaluateRules_changes hl now resultId ruleIds).bind fun rules s₁ h₁ => ?_
  refine ensures_ite (fun _ => ?_) fun _ => ensures_pure h₁
  exact (evaluate_changes (h₁.linked hl) now _ _ _).bind fun _ s' h' =>
    ensures_pure (h₁.trans h')

theorem recordLabelsAndEvaluate_changes (hl : Linked s.db) (now : Nat) (resultId : String)
    (cmp : AuditComparison) :
    Ensures (recordLabelsAndEvaluate env trips now resultId cmp) s fun _ s' =>
      Changes env s.db s'.db := by
  rw [recordLabelsAndEvaluate]
  refine ensures_bind (ensures_get ?_)
  refine ensures_bind (ensures_modify ?_)
  refine ensures_ite (fun _ => ensures_bind (ensures_modify ?_)) fun _ => ?_
  · refine evaluateScopes_changes ?_ now resultId _ _ _ _
    exact hl
  · refine evaluateScopes_changes ?_ now resultId _ _ _ _
    exact hl

theorem recordAudit_changes (hl : Linked s.db) (now : Nat) (resultId : String)
    (pickedRuleIds extraErrors : List String) :
    Ensures (recordAudit env trips now resultId pickedRuleIds extraErrors) s fun _ s' =>
      Changes env s.db s'.db := by
  rw [recordAudit]
  refine ensures_ite (fun _ => ensures_bind ensures_throw) fun _ => ?_
  refine ensures_ite (fun _ => ensures_bind ensures_throw) fun _ => ?_
  refine ensures_bind (ensures_get ?_)
  split
  · exact ensures_throw
  · refine ensures_ite (fun _ => ensures_bind ensures_throw) fun _ => ?_
    refine ensures_ite (fun _ => ensures_bind ensures_throw) fun _ => ?_
    refine ensures_ite (fun _ => ensures_bind ensures_throw) fun _ => ?_
    refine ensures_bind (ensures_modify ?_)
    set s₁ : AuditDb K := { s with
      sampleReviews := s.sampleReviews ++
        [⟨resultId, pickedRuleIds.eraseDups, extraErrors.map env.trim⟩] } with hs₁
    have hmove : Ensures (advanceStatus resultId [.auditPending] .teacherReviewed fun r =>
        { r with flagForReview := false }) s₁.view fun _ db' => Changes env s₁.view db' := by
      refine (advanceStatus_row hl.view.ids _ _ _).mono fun _ db' h' => ?_
      rw [h'.2]
      exact .single (.audited resultId)
    refine (onDb_changes hmove).bind fun moved s₂ h₂ => ?_
    refine ensures_ite (fun _ => ensures_bind ensures_throw) fun _ => ?_
    refine ensures_bind (ensures_get ?_)
    refine ensures_bind (ensures_lift fun reveal _ => ?_)
    exact (recordLabelsAndEvaluate_changes (h₂.linked hl) now resultId _).bind fun _ s' h' =>
      ensures_pure (h₂.trans h')

omit [Number K] in
theorem reset_spec (now : Nat) (breakerId : String) :
    Ensures (reset now breakerId) s fun _ s' =>
      s' = { s with breakers := s.breakers.map (BreakerRow.resetBy now breakerId) } := by
  rw [reset]
  refine ensures_bind (ensures_get ?_)
  refine ensures_ite (fun _ => ensures_modify rfl) fun _ => ?_
  exact ensures_ite (fun _ => ensures_throw) fun _ => ensures_throw

/-! ## Every move -/

theorem Move.changes (hl : Linked s.db) {m : Move K} (hm : m.samples = false) :
    Changes env s.db (m.run env trips s).db := by
  cases m with
  | startGrading t sessionId => exact (startGrading_writes hl t sessionId []).changes
  | operation op => exact (Operation.writes hl.view hm).changes.head (.breakers _ _)
  | concludeAttempt resultId attemptId stored =>
    exact commit_onDb_changes ((concludeAttempt_writes hl.view resultId attemptId stored).mono
      fun _ _ h' => h'.changes)
  | topUp => cases hm
  | writeOneShotScore resultId score confidence modelUsed =>
    exact commit_onDb_changes ((writeOneShotScore_steps hl.view _ _ _ _).mono
      fun _ _ h' => h'.changes)
  | writeOneShotFlag resultId confident =>
    exact commit_onDb_changes ((writeOneShotFlag_steps hl.view _ _).mono fun _ _ h' => h'.changes)
  | review resultId dto =>
    exact commit_onDb_changes ((review_steps hl.view _ _).mono fun _ _ h' => h'.changes)
  | recordAudit now resultId pickedRuleIds extraErrors =>
    exact commit_of_ensures (P := fun s' : AuditDb K => Changes env s.db s'.db)
      (recordAudit_changes hl _ _ _ _) .refl
  | reset now breakerId =>
    refine commit_of_ensures (P := fun s' : AuditDb K => Changes env s.db s'.db)
      ((reset_spec now breakerId).mono fun _ s' h' => ?_) .refl
    rw [h']

theorem run_topUp (hl : Linked s.db) (sessionId : String) :
    (Move.topUp sessionId).run env trips s =
      { s with db := s.view.toppedUp env sessionId } := by
  show commit (onDb (topUpSessionAudit env sessionId)) s = _
  rw [commit, onDb, topUpSessionAudit_ok hl.view.ids]

omit [Number K] in
theorem view_toppedUp (s : AuditDb K) (sessionId : String) :
    ({ s with db := s.view.toppedUp env sessionId } : AuditDb K).view =
      ({ s with db := s.db.toppedUp env sessionId } : AuditDb K).view :=
  rfl

theorem run_finishAttempt (hl : Linked s.db) (resultId attemptId : String)
    (stored : StoredInvestigation K) :
    let s₁ := (Move.concludeAttempt resultId attemptId stored).run env trips s
    let s' := (Move.operation (.finishAttempt resultId attemptId stored)).run env trips s
    s'.view = s₁.view ∨
      ∃ sessionId, s'.view = ((Move.topUp sessionId).run env trips s₁).view := by
  intro s₁ s'
  have hs' : s' = { s with db := commit (finishAttempt env resultId attemptId stored) s.view } :=
    rfl
  have hs₁ : s₁ = commit (onDb (Grading.concludeAttempt env resultId attemptId stored)) s := rfl
  rw [finishAttempt_eq] at hs'
  cases hconclude : Grading.concludeAttempt env resultId attemptId stored s.view with
  | error e =>
    rw [commit, onDb, hconclude] at hs₁
    rw [commit_of_error (run_bind_error hconclude)] at hs'
    rw [hs', hs₁]
    exact .inl rfl
  | ok p =>
    obtain ⟨⟨sample, outcome⟩, db₁⟩ := p
    rw [commit, onDb, hconclude] at hs₁
    have hl₁ : Linked db₁ :=
      (concludeAttempt_writes hl.view resultId attemptId stored _ db₁ hconclude).changes.linked
        hl.view
    cases sample with
    | none =>
      rw [commit_of_ok (run_bind_ok hconclude)] at hs'
      rw [hs', hs₁]
      exact .inl rfl
    | some sessionId =>
      refine .inr ⟨sessionId, ?_⟩
      have htop : (Option.forM (some sessionId) (topUpSessionAudit env) >>= fun _ =>
          (pure outcome : DbTx K FinishOutcome)) db₁ =
            .ok (outcome, db₁.toppedUp env sessionId) :=
        run_bind_ok (topUpSessionAudit_ok hl₁.ids)
      rw [commit, run_bind_ok hconclude] at hs'
      simp only [htop] at hs'
      have hl₁' : Linked s₁.db := by
        rw [hs₁]
        exact hl₁
      rw [run_topUp hl₁', view_toppedUp, hs', hs₁]

end Moves

end Cine.Grading
