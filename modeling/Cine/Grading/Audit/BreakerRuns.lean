import Cine.Grading.Audit.OpenBreakers

/-!
# Every run of the breakers

When a breaker opens, the papers of its class are computed again, and the
class that is selected for that is the one that the gate blocks:
`recomputeForTeacher_guards`.  With the gate of every later computation no
approved paper is ever in the class of an open breaker:
`open_breaker_blocks`.
-/

namespace Cine.Grading

open Cine.Lib

variable {K : Type}

/-! ## The class of a breaker -/

def BreakerScope.Has (b : ScoreBreakdown K) : BreakerScope → Prop
  | .rule ruleId => ∃ e ∈ b.errors, e.ruleId = ruleId
  | .noError => b.errors = []

/-- What is computed again when a breaker opens. -/
def BreakerScope.recompute (resultId : String) : BreakerScope → RecomputeScope
  | .rule ruleId => { ruleId := some ruleId, exceptResultId := some resultId }
  | .noError => { noErrors := true, exceptResultId := some resultId }

section Class

variable {isOpen isOpen' : BreakerScope → Bool} {b : ScoreBreakdown K} {scope : BreakerScope}
  {resultId : String} {db : Db K} {r : ResultRow} {c : ComputationRow K}

theorem passes_iff : Passes isOpen b ↔ ∀ t, isOpen t = true → ¬ t.Has b := by
  constructor
  · intro h t hopen hhas
    cases t with
    | rule ruleId =>
      obtain ⟨e, he, rfl⟩ := hhas
      rw [h.rules e he] at hopen
      cases hopen
    | noError => exact h.noError hopen hhas
  · intro h
    exact ⟨fun e he => Bool.eq_false_iff.2 fun hopen => h _ hopen ⟨e, he, rfl⟩, h .noError⟩

theorem inScope_recompute (hne : r.id ≠ resultId)
    (hc : (db.file r).computations.getLast? = some c) (hhas : scope.Has c.breakdown) :
    db.inScope (scope.recompute resultId) r = true := by
  have hlatest : db.latestComputation r.id = some c := hc
  cases scope with
  | rule ruleId =>
    obtain ⟨e, he, hid⟩ := hhas
    refine decide_eq_true ⟨rfl, rfl, ?_, decide_eq_true hne, fun h => nomatch h⟩
    rw [hlatest]
    exact List.any_eq_true.2 ⟨e, he, decide_eq_true hid⟩
  | noError =>
    refine decide_eq_true ⟨rfl, rfl, rfl, decide_eq_true hne, fun _ => ?_⟩
    rw [hlatest]
    exact List.isEmpty_iff.2 hhas

theorem cleared_of_not_recomputable {scores : StoredInvestigation K → ScoreCoreOutput K → Prop}
    (hf : Filed scores db) (hr : r ∈ db.results) (h : db.isRecomputable r = false) :
    (db.file r).Cleared isOpen := by
  intro happroved c hc
  exfalso
  have hs := hf.files r hr
  by_cases hgraded : ∃ a ∈ (db.file r).attempts, a.outcome = some .graded
  · obtain ⟨a, ha, houtcome⟩ := hgraded
    obtain ⟨c₀, hscore⟩ := hs.graded a ha houtcome
    have hattempt : db.attempt a.id = some a := rowOf_of_mem hf.attemptIds (List.mem_filter.1 ha).1
    have hcurrent : r.currentAttemptId = some a.id := hscore.current
    have hmarked : db.hasManualScore r.id = false := by
      refine hs.not_marked ?_
      revert happroved
      cases (db.file r).row.status <;> decide
    have hyes : db.isRecomputable r = true := by
      refine decide_eq_true ⟨hscore.pipeline, ?_, ?_, hmarked⟩
      · have happroved : r.status ∈ sampleStatuses := happroved
        revert happroved
        cases r.status <;> decide
      · rw [hcurrent, Option.bind_some, hattempt]
        exact decide_eq_true houtcome
    rw [h] at hyes
    cases hyes
  · have hnone := (hs.ungraded fun a ha ha' => hgraded ⟨a, ha, ha'⟩).1
    rw [hnone] at hc
    cases hc

theorem cleared_of_not_selected (scope : BreakerScope) (resultId : String)
    {scores : StoredInvestigation K → ScoreCoreOutput K → Prop} (hf : Filed scores db) (hr : r ∈ db.results) (hcleared : (db.file r).Cleared isOpen)
    (hopen : ∀ t, isOpen' t = true → isOpen t = true ∨ t = scope)
    (hreviewed : r.id = resultId → r.status ∉ sampleStatuses)
    (h : ¬ (db.isRecomputable r = true ∧ db.inScope (scope.recompute resultId) r = true)) :
    (db.file r).Cleared isOpen' := by
  cases hrecomputable : db.isRecomputable r with
  | false => exact cleared_of_not_recomputable hf hr hrecomputable
  | true =>
    intro happroved c hc
    refine passes_iff.2 fun t ht hhas => ?_
    rcases hopen t ht with ht | rfl
    · exact passes_iff.1 (hcleared happroved c hc) t ht hhas
    · refine h ⟨hrecomputable, inScope_recompute (fun hid => ?_) hc hhas⟩
      exact hreviewed hid happroved

end Class

/-! ## The recomputation -/

section Recompute

variable [Number K] {env : GradingEnv K} {db db' : Db K} {isOpen isOpen' : BreakerScope → Bool}
  {pending : List String}

theorem rejudge_guards {id : String} (hg : Guarded isOpen (id :: pending) db)
    {reason : ComputationReason} (hreason : reason ≠ .initial) :
    Ensures (recomputeOne env id reason >>= fun out => ruleLayerTransition id out) db
      fun _ db' => Guarded isOpen pending db' := by
  refine (rejudge_row hg.filed.linked id reason).mono fun _ db' h' => ?_
  obtain ⟨r, stored, out, c, n, rfl, hr, hgraded, hscore, hc, rfl⟩ := h'
  have hwrite : Write env db ((db.addComputation c n).updateResult r.id
      (ResultRow.ruleLayer (out.outcome = .auto))) := .rejudge n hr hgraded hscore hc hreason
  have hg' := hwrite.guarded hg
  refine ⟨hg'.filed, hg'.reads, hg'.rules, fun q hq hpending => ?_⟩
  by_cases hid : q.id = r.id
  · obtain ⟨q₀, hq₀, hsame⟩ := mem_updateRow.1 hq
    split_ifs at hsame with hid₀
    · have heq : q₀ = r := eq_of_result hg.filed.linked.ids hr hq₀ hid₀
      rw [← hsame, heq, file_computation n hc.owner fun r => (ResultRow.ruleLayer_keeps _ r).1]
      exact cleared_rejudged (f := db.file r) hc.breakdown (scores_passes hg.reads ⟨r, hscore⟩)
    · exact absurd (hsame ▸ hid) hid₀
  · exact hg'.cleared q hq fun hmem => (List.mem_cons.1 hmem).elim hid hpending

theorem recomputeForTeacher_guards {reason : ComputationReason} (hreason : reason ≠ .initial)
    {scope : RecomputeScope}
    (hg : ∀ pending, (∀ r ∈ db.results, db.isRecomputable r = true → db.inScope scope r = true →
      r.id ∈ pending) → Guarded isOpen pending db) :
    Ensures (recomputeForTeacher env reason scope) db fun _ db' => Guarded isOpen [] db' := by
  rw [recomputeForTeacher]
  refine ensures_bind (ensures_get ?_)
  refine ensures_forM (I := fun ids db' => Guarded isOpen ids db')
    (fun id rest db₁ h₁ => rejudge_guards h₁ hreason) _ (hg _ fun r hr hrecomputable hscope => ?_)
  refine List.mem_map_of_mem (mem_sortByKey.2 (List.mem_filter.2 ⟨hr, ?_⟩))
  exact decide_eq_true ⟨hrecomputable, hscope⟩

end Recompute

/-! ## States -/

/-- No approved paper is in the class of an open breaker. -/
def AuditDb.IsGuarded (s : AuditDb K) : Prop := Guarded s.isOpen [] s.view

/-- The paper is one that a teacher has decided. -/
def AuditDb.Decided (s : AuditDb K) (resultId : String) : Prop :=
  ∃ r, s.db.result resultId = some r ∧ r.status ∈ decidedStatuses

section States

variable {s s' : AuditDb K} {db : Db K} {isOpen : BreakerScope → Bool}

theorem isOpen_iff {scope : BreakerScope} :
    s.isOpen scope = true ↔ ∃ b ∈ s.breakers, b.scope = scope ∧ b.isOpen = true := by
  unfold AuditDb.isOpen
  simp only [List.any_eq_true, Bool.and_eq_true, decide_eq_true_eq]

theorem reads_view (h : ∀ id, s.isOpen (.rule id) = true → ∃ rule, s.db.rule id = some rule) :
    ReadsBreakers s.isOpen s.view := by
  refine ⟨fun id hopen => ?_, fun hopen => hopen⟩
  obtain ⟨rule, hrule⟩ := h id hopen
  obtain ⟨b, hb, hscope, hisOpen⟩ := isOpen_iff.1 hopen
  refine ⟨rule, hrule, ?_⟩
  show rule.ruleKey ∈ s.openBreakerRuleKeys
  unfold AuditDb.openBreakerRuleKeys
  rw [mem_sortByKey]
  refine List.mem_filterMap.2 ⟨b, List.mem_filter.2 ⟨hb, hisOpen⟩, ?_⟩
  rw [BreakerRow.rule, hscope, Option.bind_some, hrule]
  rfl

theorem Filed.reread {scores : StoredInvestigation K → ScoreCoreOutput K → Prop}
    (hf : Filed scores db) (keys : List String) (noError : Bool) (n : Nat) :
    Filed scores
      { db with openBreakerRuleKeys := keys, noErrorBreakerOpen := noError, drawnIds := n } :=
  ⟨⟨hf.linked.ids, hf.linked.submissions, hf.linked.papers, hf.linked.current,
    hf.linked.attempts, hf.linked.computations, hf.linked.manual⟩, hf.attemptIds, hf.files⟩

theorem Guarded.isGuarded (hg : Guarded isOpen [] db)
    (hopen : ∀ t, s.isOpen t = true → isOpen t = true) : ({ s with db := db } : AuditDb K).IsGuarded := by
  refine ⟨hg.filed.reread _ _ db.drawnIds, ?_, hg.rules, fun r hr hpending happroved c hc => ?_⟩
  · refine reads_view fun id hid => ?_
    obtain ⟨rule, hrule, _⟩ := hg.reads.rules id (hopen _ hid)
    exact ⟨rule, hrule⟩
  · refine passes_iff.2 fun t ht => ?_
    exact passes_iff.1 (hg.cleared r hr hpending happroved c hc) t (hopen t ht)

theorem AuditDb.IsGuarded.filed (hg : s.IsGuarded) : Filed (fun _ _ => True) s.db :=
  (Guarded.filed hg).reread s.db.openBreakerRuleKeys s.db.noErrorBreakerOpen s.db.drawnIds

end States

/-! ## The review of a sampled paper -/

section Audit

variable [Number K] {env : GradingEnv K} {trips : Nat → Nat → Bool} {s s' s'' : AuditDb K}
  {resultId : String}

theorem Changes.keepsRules {db db' : Db K} (h : Changes env db db') {id : String}
    (hrule : ∃ rule, db.rule id = some rule) : ∃ rule, db'.rule id = some rule := by
  induction h with
  | refl => exact hrule
  | tail _ hc ih =>
    cases hc with
    | write hw => exact hw.keepsBreakers.rule ih
    | oneShotScore => exact ih
    | oneShotFlag => exact ih
    | reviewed => exact ih
    | audited => exact ih
    | breakers => exact ih

/-- What the evaluation of the scopes keeps after a review. -/
structure Evaluated (env : GradingEnv K) (resultId : String) (s s' : AuditDb K) : Prop where
  guarded : s'.IsGuarded
  changes : Changes env s.db s'.db
  breakers : ∀ b ∈ s.breakers, b ∈ s'.breakers

theorem Evaluated.trans (h : Evaluated env resultId s s') (h' : Evaluated env resultId s' s'') :
    Evaluated env resultId s s'' :=
  ⟨h'.guarded, h.changes.trans h'.changes, fun b hb => h'.breakers b (h.breakers b hb)⟩

theorem Evaluated.decided (h : Evaluated env resultId s s') (hg : s.IsGuarded)
    (hdecided : s.Decided resultId) : s'.Decided resultId := by
  obtain ⟨r, hr, hstatus⟩ := hdecided
  exact h.changes.decided (fun _ _ _ => trivial) hg.filed hr hstatus

omit [Number K] in
theorem AuditDb.IsGuarded.tripped (hg : s.IsGuarded) {b : BreakerRow} (n : Nat)
    (hrule : ∀ id, b.scope = .rule id → ∃ rule, s.db.rule id = some rule)
    (hdecided : s.Decided resultId) {s₁ : AuditDb K}
    (hs₁ : s₁ = { s with db := { s.db with drawnIds := n }, breakers := s.breakers ++ [b] })
    {pending : List String}
    (hpending : ∀ r ∈ s₁.view.results, s₁.view.isRecomputable r = true →
      s₁.view.inScope (b.scope.recompute resultId) r = true → r.id ∈ pending) :
    Guarded s₁.isOpen pending s₁.view := by
  subst hs₁
  set s₁ : AuditDb K :=
    { s with db := { s.db with drawnIds := n }, breakers := s.breakers ++ [b] } with hs₁
  have hopen : ∀ t, s₁.isOpen t = true → s.isOpen t = true ∨ t = b.scope := by
    intro t ht
    obtain ⟨b', hb', hscope, hisOpen⟩ := isOpen_iff.1 ht
    rcases List.mem_append.1 hb' with hb' | hb'
    · exact .inl (isOpen_iff.2 ⟨b', hb', hscope, hisOpen⟩)
    · rw [List.mem_singleton.1 hb'] at hscope
      exact .inr hscope.symm
  have hfiled : Filed (fun _ _ => True) s₁.view := hg.filed.reread _ _ n
  refine ⟨hfiled, ?_, hg.rules, fun r hr hmem => ?_⟩
  · refine reads_view fun id hid => ?_
    rcases hopen _ hid with hid | hid
    · obtain ⟨rule, hrule, _⟩ := hg.reads.rules id hid
      exact ⟨rule, hrule⟩
    · exact hrule id hid.symm
  · have hcleared : (s₁.view.file r).Cleared s.isOpen := hg.cleared r hr List.not_mem_nil
    refine cleared_of_not_selected b.scope resultId hfiled hr hcleared hopen (fun hid => ?_)
      fun hboth => ?_
    · obtain ⟨r', hr', hstatus⟩ := hdecided
      have hsame : r = r' := eq_of_result hg.filed.linked.ids (rowOf_key hr' ▸ hr') hr
        (hid.trans (rowOf_key hr').symm)
      rw [hsame]
      revert hstatus
      cases r'.status <;> decide
    · exact hmem (hpending r hr hboth.1 hboth.2)

theorem evaluate_guards (hg : s.IsGuarded) (now : Nat) (scope : BreakerScope)
    (counts : AuditDb K → Nat × Nat)
    (hrule : ∀ id, scope = .rule id → ∃ rule, s.db.rule id = some rule)
    (hdecided : s.Decided resultId) :
    Ensures (evaluate env trips now scope counts (scope.recompute resultId)) s fun _ s' =>
      Evaluated env resultId s s' := by
  intro ids s' hrun
  have hchanges : Changes env s.db s'.db :=
    evaluate_changes hg.filed.linked now scope counts _ ids s' hrun
  suffices h : s'.IsGuarded ∧ ∀ b ∈ s.breakers, b ∈ s'.breakers from ⟨h.1, hchanges, h.2⟩
  revert ids s'
  suffices h : Ensures (evaluate env trips now scope counts (scope.recompute resultId)) s
      fun _ s' => s'.IsGuarded ∧ ∀ b ∈ s.breakers, b ∈ s'.breakers from
    fun ids s' hrun _ => h ids s' hrun
  rw [evaluate]
  refine ensures_bind (ensures_get ?_)
  refine ensures_ite (fun _ => ensures_pure ⟨hg, fun _ h => h⟩) fun _ => ?_
  refine ensures_ite (fun _ => ensures_pure ⟨hg, fun _ h => h⟩) fun _ => ?_
  refine (trip_spec now scope _).bind fun id s₁ h₁ => ?_
  refine (ensures_onDb ?_).bind fun _ s' h' => ensures_pure h'
  refine (recomputeForTeacher_guards (by decide) fun pending hpending =>
    hg.tripped _ hrule hdecided h₁.2 hpending).mono fun _ db' h' => ?_
  refine ⟨h'.isGuarded fun _ ht => ht, fun b hb => ?_⟩
  rw [h₁.2]
  exact List.mem_append_left _ hb

theorem Evaluated.refl (hg : s.IsGuarded) : Evaluated env resultId s s :=
  ⟨hg, .refl, fun _ h => h⟩

theorem evaluateRules_guards (hg : s.IsGuarded) (now : Nat) (ruleIds : List String)
    (hrules : ∀ id ∈ ruleIds, ∃ rule, s.db.rule id = some rule) (hdecided : s.Decided resultId) :
    Ensures (evaluateRules env trips now resultId ruleIds) s fun _ s' =>
      Evaluated env resultId s s' := by
  induction ruleIds generalizing s with
  | nil => exact ensures_pure (.refl hg)
  | cons ruleId rest ih =>
    rw [evaluateRules]
    refine (evaluate_guards hg now (.rule ruleId) _ (fun id h => ?_) hdecided).bind
      fun _ s₁ h₁ => ?_
    · cases h
      exact hrules ruleId List.mem_cons_self
    · refine (ih h₁.guarded (fun id hid => ?_) (h₁.decided hg hdecided)).bind fun _ s' h' =>
        ensures_pure (h₁.trans h')
      exact h₁.changes.keepsRules (hrules id (List.mem_cons_of_mem ruleId hid))

theorem evaluateScopes_guards (hg : s.IsGuarded) (now : Nat) (ruleIds : List String)
    (noErrorClass : Bool) (hrules : ∀ id ∈ ruleIds, ∃ rule, s.db.rule id = some rule)
    (hdecided : s.Decided resultId) :
    Ensures (do
      let rules ← evaluateRules env trips now resultId ruleIds
      if noErrorClass then
        let noError ← evaluate env trips now .noError (·.countNoErrorLabelsSinceReset)
          { noErrors := true, exceptResultId := some resultId }
        return rules ++ noError
      else return rules) s fun _ s' => s'.IsGuarded ∧ ∀ b ∈ s.breakers, b ∈ s'.breakers := by
  refine (evaluateRules_guards hg now ruleIds hrules hdecided).bind fun rules s₁ h₁ => ?_
  refine ensures_ite (fun _ => ?_) fun _ => ensures_pure ⟨h₁.guarded, h₁.breakers⟩
  refine (evaluate_guards h₁.guarded now .noError _ (fun _ h => nomatch h)
    (h₁.decided hg hdecided)).bind fun _ s' h' => ensures_pure ?_
  exact ⟨(h₁.trans h').guarded, (h₁.trans h').breakers⟩

theorem recordLabelsAndEvaluate_guards (hg : s.IsGuarded) (now : Nat) (cmp : AuditComparison)
    (hrules : ∀ id ∈ cmp.perRule.map Prod.fst, ∃ rule, s.db.rule id = some rule)
    (hdecided : s.Decided resultId) :
    Ensures (recordLabelsAndEvaluate env trips now resultId cmp) s fun _ s' =>
      s'.IsGuarded ∧ ∀ b ∈ s.breakers, b ∈ s'.breakers := by
  rw [recordLabelsAndEvaluate]
  refine ensures_bind (ensures_get ?_)
  refine ensures_bind (ensures_modify ?_)
  refine ensures_ite (fun _ => ensures_bind (ensures_modify ?_)) fun _ => ?_
  · refine evaluateScopes_guards ?_ now _ _ hrules hdecided
    exact hg
  · refine evaluateScopes_guards ?_ now _ _ hrules hdecided
    exact hg

omit [Number K] in
theorem auditComparison_rules (hg : s.IsGuarded) {picked extras : List String} {n : Nat}
    (hpicked : ∀ id ∈ picked, ∃ rule, s.db.rule id = some rule) :
    ∀ id ∈ (s.db.auditComparison resultId picked extras n).perRule.map Prod.fst,
      ∃ rule, s.db.rule id = some rule := by
  intro id hid
  have hid : id ∈ (picked ++ (s.db.keptErrors resultId).map BreakdownError.ruleId).eraseDups := by
    obtain ⟨p, hp, rfl⟩ := List.mem_map.1 hid
    obtain ⟨ruleId, hruleId, rfl⟩ := List.mem_map.1 hp
    exact hruleId
  rcases List.mem_append.1 (List.mem_eraseDups.1 hid) with hid | hid
  · exact hpicked id hid
  · obtain ⟨e, he, rfl⟩ := List.mem_map.1 hid
    obtain ⟨he, _⟩ := List.mem_filter.1 he
    cases hlatest : s.db.latestComputation resultId with
    | none =>
      rw [hlatest] at he
      cases he
    | some c =>
      rw [hlatest] at he
      exact hg.rules c (List.mem_filter.1 (List.mem_of_getLast? hlatest)).1 e he

theorem recordAudit_guards (hg : s.IsGuarded) (now : Nat) (resultId : String)
    (pickedRuleIds extraErrors : List String) :
    Ensures (recordAudit env trips now resultId pickedRuleIds extraErrors) s fun _ s' =>
      s'.IsGuarded ∧ ∀ b ∈ s.breakers, b ∈ s'.breakers := by
  rw [recordAudit]
  refine ensures_ite (fun _ => ensures_bind ensures_throw) fun _ => ?_
  refine ensures_ite (fun _ => ensures_bind ensures_throw) fun _ => ?_
  refine ensures_bind (ensures_get ?_)
  split
  · exact ensures_throw
  · rename_i row hrow
    refine ensures_ite (fun _ => ensures_bind ensures_throw) fun _ => ?_
    refine ensures_ite (fun _ => ensures_bind ensures_throw) fun hstatus => ?_
    refine ensures_ite (fun _ => ensures_bind ensures_throw) fun hpicked => ?_
    refine ensures_bind (ensures_modify ?_)
    set s₁ : AuditDb K := { s with
      sampleReviews := s.sampleReviews ++
        [⟨resultId, pickedRuleIds.eraseDups, extraErrors.map env.trim⟩] } with hs₁
    have hmove : Ensures (advanceStatus resultId [.auditPending] .teacherReviewed fun r =>
        { r with flagForReview := false }) s₁.view fun _ db' =>
          db' = s₁.view.updateResult resultId ResultRow.audited :=
      (advanceStatus_row hg.filed.linked.view.ids _ _ _).mono fun _ _ h' => h'.2
    refine (ensures_onDb (Q := fun _ s₂ => s₂ = { s₁ with
      db := s₁.view.updateResult resultId ResultRow.audited }) ?_).bind fun moved s₂ h₂ => ?_
    · exact hmove.mono fun _ db' h' => congrArg (fun db => ({ s₁ with db := db } : AuditDb K)) h'
    refine ensures_ite (fun _ => ensures_bind ensures_throw) fun _ => ?_
    refine ensures_bind (ensures_get ?_)
    refine ensures_bind (ensures_lift fun reveal _ => ?_)
    have hg₂ : s₂.IsGuarded := by
      have haudited : Change env s₁.view (s₁.view.updateResult resultId ResultRow.audited) :=
        .audited resultId
      rw [h₂]
      exact (haudited.guarded (.papers _ _ _) hg).isGuarded fun _ ht => ht
    have hdecided : s₂.Decided resultId := by
      refine ⟨row.audited, ?_, ?_⟩
      · rw [h₂]
        exact rowOf_updateRow_self (fun r => (ResultRow.audited_sameHead r).id) hrow
      · rw [not_not] at hstatus
        rw [ResultRow.audited, ResultRow.advance_of_mem (List.mem_singleton.2 hstatus)]
        show ResultStatus.teacherReviewed ∈ decidedStatuses
        decide
    refine (recordLabelsAndEvaluate_guards hg₂ now _ (auditComparison_rules hg₂ fun id hid => ?_)
      hdecided).bind fun _ s' h' => ensures_pure ⟨h'.1, fun b hb => h'.2 b ?_⟩
    · rw [h₂]
      have hactive : id ∈ s.db.activeRuleIds := by
        by_contra hnot
        exact hpicked (List.any_eq_true.2 ⟨id, hid, decide_eq_true hnot⟩)
      obtain ⟨rule, hrule, rfl⟩ := List.mem_map.1 hactive
      exact Option.isSome_iff_exists.1 (rowOf_isSome.2 ⟨rule, (List.mem_filter.1 hrule).1, rfl⟩)
    · rw [h₂]
      exact hb

end Audit

/-! ## Every move -/

section Moves

variable [Number K] {env : GradingEnv K} {trips : Nat → Nat → Bool} {s s' : AuditDb K}

/-- What a move keeps that neither opens nor closes a breaker. -/
def KeepsGuard (s s' : AuditDb K) : Prop := s'.IsGuarded ∧ s'.breakers = s.breakers

theorem KeepsGuard.steps {db : Db K} (hg : s.IsGuarded) (h : Steps env s.view db) :
    KeepsGuard s { s with db := db } :=
  ⟨(h.guarded hg).isGuarded fun _ ht => ht, rfl⟩

theorem commit_onDb_keepsGuard (env : GradingEnv K) {α : Type} {m : DbTx K α}
    (hg : s.IsGuarded) (h : Ensures m s.view fun _ db' => Steps env s.view db') :
    KeepsGuard s (commit (onDb m) s) :=
  commit_of_ensures (P := fun s' : AuditDb K => KeepsGuard s s')
    (ensures_onDb (h.mono fun _ _ h' => .steps hg h')) ⟨hg, rfl⟩

theorem Guarded.toppedUp {db : Db K} {isOpen : BreakerScope → Bool} {pending : List String}
    (hg : Guarded isOpen pending db) (sessionId : String) :
    Guarded isOpen pending (db.toppedUp env sessionId) := by
  refine ⟨hg.filed.toppedUp env sessionId, ⟨hg.reads.rules, hg.reads.noError⟩, hg.rules, ?_⟩
  exact (toppedUp_refiled (db.Scores env) db env sessionId).cleared hg.filed
    (fun _ _ _ => trivial) (fun _ _ hscores hauto => scores_passes hg.reads hscores hauto) hg.cleared

theorem keepsGuard_topUp (env : GradingEnv K) (trips : Nat → Nat → Bool) (hg : s.IsGuarded)
    (sessionId : String) :
    KeepsGuard s ((Move.topUp sessionId).run env trips s) := by
  rw [run_topUp hg.filed.linked]
  exact ⟨(Guarded.toppedUp hg sessionId).isGuarded fun _ ht => ht, rfl⟩

theorem keepsGuard_startGrading (hg : s.IsGuarded) (t : IntakeTables) (sessionId : String) :
    KeepsGuard s ((Move.startGrading t sessionId).run env trips s) := by
  show KeepsGuard s { s with db := (startGrading env t sessionId s.db []).2.1 }
  rcases (startGrading_enlists hg.filed.linked t sessionId [] :
      (startGrading env t sessionId s.db []).2.1 = s.db ∨ _) with
    hsame | ⟨rows, n, hids, hsubmissions, hnew, hdb⟩
  · rw [hsame]
    exact ⟨hg, rfl⟩
  · rw [hdb]
    have henlist : Write env s.view
        { s.view with results := s.view.results ++ rows, drawnIds := n } :=
      .enlist n hids hsubmissions hnew
    exact ⟨(henlist.guarded hg).isGuarded fun _ ht => ht, rfl⟩

theorem keepsGuard_operation (hg : s.IsGuarded) (op : Operation K) :
    KeepsGuard s ((Move.operation op).run env trips s) := by
  cases hfinish : op.isFinish with
  | false => exact .steps hg (Operation.writes hg.filed.linked.view hfinish).steps
  | true =>
    cases op with
    | finishAttempt resultId attemptId stored =>
      have hconclude : KeepsGuard s
          ((Move.concludeAttempt resultId attemptId stored).run env trips s) :=
        commit_onDb_keepsGuard env hg ((concludeAttempt_writes hg.filed.linked.view resultId attemptId
          stored).mono fun _ _ h' => h'.steps)
      have hguarded {s₁ : AuditDb K} (hkept : KeepsGuard s s₁) (hview :
          ((Move.operation (.finishAttempt resultId attemptId stored)).run env trips s).view =
            s₁.view) :
          ((Move.operation (.finishAttempt resultId attemptId stored)).run env trips s).IsGuarded := by
        have hopen : s₁.isOpen = s.isOpen := by
          funext t
          rw [AuditDb.isOpen, hkept.2]
          rfl
        have hg₁ : Guarded s.isOpen [] s₁.view := hopen ▸ hkept.1
        rw [← hview] at hg₁
        exact hg₁
      refine ⟨?_, rfl⟩
      rcases @run_finishAttempt _ _ env trips s hg.filed.linked resultId attemptId stored
        with hsame | ⟨sessionId, htop⟩
      · exact hguarded hconclude hsame
      · have hkept := keepsGuard_topUp env trips hconclude.1 sessionId
        exact hguarded ⟨hkept.1, hkept.2.trans hconclude.2⟩ htop
    | _ => cases hfinish

omit [Number K] in
theorem reset_guards (hg : s.IsGuarded) (now : Nat) (breakerId : String) :
    ({ s with breakers := s.breakers.map (BreakerRow.resetBy now breakerId) } :
      AuditDb K).IsGuarded := by
  set s' : AuditDb K := { s with breakers := s.breakers.map (BreakerRow.resetBy now breakerId) }
    with hs'
  have hview : Guarded s.isOpen [] s.view := hg
  suffices h : ∀ t, s'.isOpen t = true → s.isOpen t = true from hview.isGuarded (s := s') h
  intro t ht
  obtain ⟨b', hb', hscope, hisOpen⟩ := isOpen_iff.1 ht
  obtain ⟨b, hb, rfl⟩ := List.mem_map.1 hb'
  rw [BreakerRow.resetBy] at hscope hisOpen
  split_ifs at hscope hisOpen
  · cases hisOpen
  · exact isOpen_iff.2 ⟨b, hb, hscope, hisOpen⟩

theorem Move.guards (hg : s.IsGuarded) (m : Move K) :
    (m.run env trips s).IsGuarded ∧ ∀ b ∈ s.breakers, b.isOpen = true →
      b ∈ (m.run env trips s).breakers ∨ ∃ now, m = .reset now b.id := by
  have hkeeps {s' : AuditDb K} (h : KeepsGuard s s') : s'.IsGuarded ∧ ∀ b ∈ s.breakers,
      b.isOpen = true → b ∈ s'.breakers ∨ ∃ now, m = .reset now b.id :=
    ⟨h.1, fun b hb _ => .inl (h.2 ▸ hb)⟩
  cases m with
  | startGrading t sessionId => exact hkeeps (keepsGuard_startGrading hg t sessionId)
  | operation op => exact hkeeps (keepsGuard_operation hg op)
  | concludeAttempt resultId attemptId stored =>
    exact hkeeps (commit_onDb_keepsGuard env hg ((concludeAttempt_writes hg.filed.linked.view resultId
      attemptId stored).mono fun _ _ h' => h'.steps))
  | topUp sessionId => exact hkeeps (keepsGuard_topUp env trips hg sessionId)
  | writeOneShotScore resultId score confidence modelUsed =>
    exact hkeeps (commit_onDb_keepsGuard env hg
      (writeOneShotScore_steps hg.filed.linked.view _ _ _ _))
  | writeOneShotFlag resultId confident =>
    exact hkeeps (commit_onDb_keepsGuard env hg
      (writeOneShotFlag_steps hg.filed.linked.view _ _))
  | review resultId dto =>
    exact hkeeps (commit_onDb_keepsGuard env hg (review_steps hg.filed.linked.view _ _))
  | recordAudit now resultId pickedRuleIds extraErrors =>
    have haudit : Ensures (Grading.recordAudit env trips now resultId pickedRuleIds extraErrors) s
        fun _ s' => s'.IsGuarded ∧ ∀ b ∈ s.breakers, b ∈ s'.breakers :=
      recordAudit_guards hg now resultId pickedRuleIds extraErrors
    have hcommit := commit_of_ensures
      (P := fun s' : AuditDb K => s'.IsGuarded ∧ ∀ b ∈ s.breakers, b ∈ s'.breakers) haudit
      ⟨hg, fun _ h => h⟩
    exact ⟨hcommit.1, fun b hb _ => .inl (hcommit.2 b hb)⟩
  | reset now breakerId =>
    have hreset := commit_of_ensures
      (P := fun s' : AuditDb K => s' = s ∨
        s' = { s with breakers := s.breakers.map (BreakerRow.resetBy now breakerId) })
      ((reset_spec now breakerId).mono fun _ _ h' => .inr h') (.inl rfl)
    rcases hreset with hsame | hreset
    · have hrun : (Move.reset now breakerId).run env trips s = s := hsame
      rw [hrun]
      exact ⟨hg, fun b hb _ => .inl hb⟩
    · have hrun : (Move.reset now breakerId).run env trips s =
          { s with breakers := s.breakers.map (BreakerRow.resetBy now breakerId) } := hreset
      rw [hrun]
      refine ⟨reset_guards hg now breakerId, fun b hb _ => ?_⟩
      by_cases hid : b.id = breakerId
      · exact .inr ⟨now, by rw [hid]⟩
      · exact .inl (List.mem_map.2 ⟨b, hb, if_neg fun h => hid h.1⟩)

omit [Number K] in
theorem AuditDb.isGuarded_of_enlisted (h : s.db.Enlisted)
    (hrules : ∀ b ∈ s.breakers, ∀ id, b.scope = .rule id → ∃ rule, s.db.rule id = some rule) :
    s.IsGuarded := by
  refine ⟨h.filed.reread _ _ s.db.drawnIds, reads_view fun id hid => ?_, fun c hc => ?_,
    fun r hr _ => ?_⟩
  · obtain ⟨b, hb, hscope, _⟩ := isOpen_iff.1 hid
    exact hrules b hb id hscope
  · have hc : c ∈ s.db.computations := hc
    rw [h.computations] at hc
    cases hc
  · exact PaperFile.cleared_of_not (not_approved .aiGrading (h.new r hr).status)

end Moves

/-- In every order of the moves no approved paper has an error whose rule
has an open breaker, nor no error while the breaker of these is open; and
only a reset closes a breaker. -/
theorem open_breaker_blocks [Number K] {env : GradingEnv K} {trips : Nat → Nat → Bool}
    {start s : AuditDb K} (hstart : start.db.Enlisted)
    (hrules : ∀ b ∈ start.breakers, ∀ id, b.scope = .rule id →
      ∃ rule, start.db.rule id = some rule)
    (hrun : Reach (fun s m => Move.run env trips s m) (fun _ _ => True) start s) :
    (∀ r ∈ s.db.results, r.status ∈ sampleStatuses →
      ∀ c, s.db.latestComputation r.id = some c →
        (∀ e ∈ c.breakdown.errors, s.isOpen (.rule e.ruleId) = false) ∧
          (s.isOpen .noError = true → c.breakdown.errors ≠ [])) ∧
      ∀ m, ∀ b ∈ s.breakers, b.isOpen = true →
        b ∈ (Move.run env trips s m).breakers ∨ ∃ now, m = .reset now b.id := by
  have hg : s.IsGuarded := hrun.invariant (I := AuditDb.IsGuarded)
    (AuditDb.isGuarded_of_enlisted hstart hrules) fun _ m hg _ => (Move.guards hg m).1
  refine ⟨fun r hr happroved c hc => ?_, fun m => (Move.guards hg m).2⟩
  have hpasses := hg.cleared r hr List.not_mem_nil happroved c hc
  exact ⟨hpasses.rules, hpasses.noError⟩

/-! ## A breaker that opens -/

/-- The tables after a list of moves, where one disagreement opens a
breaker. -/
def auditedAfter (moves : List (Move ℚ)) : AuditDb ℚ :=
  moves.foldl (fun s m => Move.run sampledEnv (fun _ disagreements => 0 < disagreements) s m)
    (noAudits oneStudent)

/-- Two sampled papers with one error, and the review of the first one, which
does not name it. -/
def missedRule : List (Move ℚ) :=
  FirstRun.bothPapers ++ [.recordAudit 5 "r1" [] ["typo"]]

/-- The breaker of the rule is open, and the second paper has left the
sample. -/
theorem missedRule_blocks :
    (auditedAfter missedRule).isOpen (.rule "rule") = true ∧
      (∀ r ∈ (auditedAfter missedRule).db.results, r.status ∈ sampleStatuses →
        ∀ c, (auditedAfter missedRule).db.latestComputation r.id = some c →
          (∀ e ∈ c.breakdown.errors, (auditedAfter missedRule).isOpen (.rule e.ruleId) = false) ∧
            ((auditedAfter missedRule).isOpen .noError = true → c.breakdown.errors ≠ [])) ∧
        (auditedAfter missedRule).db.results.map ResultRow.status =
          [.teacherReviewed, .flaggedForReview] :=
  ⟨by decide +kernel, (open_breaker_blocks oneStudent_enlisted (fun _ h => absurd h List.not_mem_nil)
    (reach_foldl (by simp [AllAllowed, missedRule, FirstRun.bothPapers]))).1, by decide +kernel⟩

end Cine.Grading
