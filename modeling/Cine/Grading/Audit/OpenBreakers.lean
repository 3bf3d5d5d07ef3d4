import Cine.Grading.Lifecycle.AttemptHistory

/-!
# Open breakers block

A breaker that is open keeps its class of papers away from automatic
approval.  Here is the half that every computation does: what it approves
passes the open breakers (`scores_passes`), so a change under the same
breakers keeps the approved papers clear of them (`Steps.guarded`).
-/

namespace Cine.Grading

open Cine.Lib

variable {K : Type}

/-! ## The gates of a computation -/

section Gates

variable [Number K] {input : ScoreCoreInput K} {out : ScoreCoreOutput K}

omit [Number K] in
theorem breakdownError_rule {decision : Decision K} {e : DiagnosedError} {b : BreakdownError}
    (h : input.breakdownError decision e = .ok b) :
    ∃ r ∈ input.rules, r.ruleId = b.ruleId ∧ r.ruleKey = b.ruleKey ∧ b.ruleKey = e.ruleKey := by
  rw [ScoreCoreInput.breakdownError] at h
  cases hr : input.byKey.get? e.ruleKey with
  | none =>
    rw [hr] at h
    cases h
  | some r =>
    rw [hr] at h
    cases h
    obtain ⟨r', hr', heq⟩ := List.mem_map.1 (OrderedMap.mem_of_get?_ofList hr)
    obtain ⟨hkey, rfl⟩ := Prod.mk.inj heq
    exact ⟨r', (used_sublist input).subset hr', rfl, rfl, hkey⟩

theorem computeScore_errors (h : input.computeScore = .ok out) :
    out.breakdown.errors = [] ∧ out.outcome = .ungradable ∨
      ∃ s errors, input.decisionInput.floor = none ∧
        out.outcome = (input.decisionInput.decisionOf s).outcome ∧
          out.breakdown.errors = errors ∧
            input.decisionInput.errors.mapM
              (input.breakdownError (input.decisionInput.decisionOf s)) = .ok errors := by
  rw [ScoreCoreInput.computeScore] at h
  obtain ⟨decision, hdecision, h⟩ := bind_eq_ok.1 h
  split_ifs at h with hungradable
  · cases h
    exact .inl ⟨rfl, rfl⟩
  · obtain ⟨errors, herrors, h⟩ := bind_eq_ok.1 h
    obtain ⟨score, _, h⟩ := bind_eq_ok.1 h
    cases h
    rcases decide_cases hdecision with ⟨f, _, rfl⟩ | ⟨s, hfloor, _, rfl⟩
    · exact absurd rfl hungradable
    · exact .inr ⟨s, errors, hfloor, rfl, rfl, herrors⟩

theorem computeScore_rules (h : input.computeScore = .ok out) {e : BreakdownError}
    (he : e ∈ out.breakdown.errors) :
    ∃ r ∈ input.rules, r.ruleId = e.ruleId ∧ r.ruleKey = e.ruleKey := by
  rcases computeScore_errors h with ⟨hnil, _⟩ | ⟨s, errors, _, _, rfl, herrors⟩
  · rw [hnil] at he
    cases he
  · obtain ⟨d, _, hstep⟩ := exists_of_mapM herrors he
    obtain ⟨r, hr, hid, hkey, _⟩ := breakdownError_rule hstep
    exact ⟨r, hr, hid, hkey⟩

theorem computeScore_auto (h : input.computeScore = .ok out) (hauto : out.outcome = .auto) :
    (∀ e ∈ out.breakdown.errors, e.ruleKey ∉ input.autoBlockedRuleKeys.getD []) ∧
      (input.autoNoErrorEnabled = some false → out.breakdown.errors ≠ []) := by
  rcases computeScore_errors h with ⟨_, hungradable⟩ | ⟨s, errors, _, houtcome, rfl, herrors⟩
  · rw [hauto] at hungradable
    cases hungradable
  · rw [houtcome, decisionOf_outcome_auto, decisionOf_flags_eq_nil, ownCaseFlags_eq_nil] at hauto
    obtain ⟨⟨_, _, _, _, _, _, _, hnoError, hrules⟩, _⟩ := hauto
    refine ⟨fun e he => ?_, fun henabled hnil => ?_⟩
    · obtain ⟨d, hd, hstep⟩ := exists_of_mapM herrors he
      obtain ⟨_, _, _, _, hkey⟩ := breakdownError_rule hstep
      rw [hkey]
      exact hrules d hd
    · rw [hnil] at herrors
      have hnone : input.decisionInput.errors = [] :=
        List.forall₂_nil_right_iff.1 (forall₂_of_mapM herrors)
      exact hnoError hnone henabled

end Gates

/-! ## The breakers as the tables show them -/

/-- A breakdown that no open breaker blocks. -/
structure Passes (isOpen : BreakerScope → Bool) (b : ScoreBreakdown K) : Prop where
  rules : ∀ e ∈ b.errors, isOpen (.rule e.ruleId) = false
  noError : isOpen .noError = true → b.errors ≠ []

/-- The tables show every open breaker, and its rule is there. -/
structure ReadsBreakers (isOpen : BreakerScope → Bool) (db : Db K) : Prop where
  rules : ∀ id, isOpen (.rule id) = true →
    ∃ rule, db.rule id = some rule ∧ rule.ruleKey ∈ db.openBreakerRuleKeys
  noError : isOpen .noError = true → db.noErrorBreakerOpen = true

section Scores

variable [Number K] {env : GradingEnv K} {db : Db K} {isOpen : BreakerScope → Bool}
  {stored : StoredInvestigation K} {out : ScoreCoreOutput K}

theorem scores_rules (h : db.Scores env stored out) {e : BreakdownError}
    (he : e ∈ out.breakdown.errors) :
    ∃ rule, db.rule e.ruleId = some rule ∧ rule.ruleKey = e.ruleKey := by
  obtain ⟨_, _, _, _, _, hscore⟩ := h
  obtain ⟨s, hs, hid, hkey⟩ := computeScore_rules hscore he
  obtain ⟨rule, hrule, hsame⟩ := rule_of_snapshot hs
  exact ⟨rule, hid ▸ hrule, hsame.trans hkey⟩

theorem scores_passes (hreads : ReadsBreakers isOpen db) (h : db.Scores env stored out)
    (hauto : out.outcome = .auto) : Passes isOpen out.breakdown := by
  refine ⟨fun e he => ?_, fun hopen => ?_⟩
  · obtain ⟨rule, hrule, hkey⟩ := scores_rules h he
    obtain ⟨_, _, _, _, _, hscore⟩ := h
    refine Bool.eq_false_iff.2 fun hopen => ?_
    obtain ⟨rule', hrule', hblocked⟩ := hreads.rules e.ruleId hopen
    cases hrule.symm.trans hrule'
    refine (computeScore_auto hscore hauto).1 e he ?_
    rw [← hkey]
    exact List.mem_append_right env.autoBlockedKeys hblocked
  · obtain ⟨_, _, _, _, _, hscore⟩ := h
    refine (computeScore_auto hscore hauto).2 ?_
    show some (env.autoNoErrorEnabled && !db.noErrorBreakerOpen) = some false
    rw [hreads.noError hopen, Bool.not_true, Bool.and_false]

end Scores

/-! ## Files -/

section Files

variable {scores : StoredInvestigation K → ScoreCoreOutput K → Prop} {f f' : PaperFile K}
  {isOpen : BreakerScope → Bool}

/-- An approved paper passes the open breakers with its newest
computation. -/
def PaperFile.Cleared (isOpen : BreakerScope → Bool) (f : PaperFile K) : Prop :=
  f.row.status ∈ sampleStatuses → ∀ c, f.computations.getLast? = some c → Passes isOpen c.breakdown

theorem not_approved {s : ResultStatus} (t : ResultStatus) (h : s = t)
    (ht : t ∉ sampleStatuses := by decide) : s ∉ sampleStatuses :=
  h ▸ ht

theorem PaperFile.cleared_of_not (h : f.row.status ∉ sampleStatuses) : f.Cleared isOpen :=
  fun hmem => absurd hmem h

theorem ruleLayer_not_approved (r : ResultRow) : (r.ruleLayer false).status ∉ sampleStatuses := by
  rw [ResultRow.ruleLayer, if_neg Bool.false_ne_true]
  split_ifs with hauto
  · exact not_approved .flaggedForReview rfl
  · by_cases hmem : r.status ∈ [ResultStatus.auditPending]
    · rw [ResultRow.advance_of_mem hmem]
      exact not_approved .flaggedForReview rfl
    · rw [ResultRow.advance_of_not_mem hmem]
      exact fun h => (List.mem_cons.1 h).elim hauto hmem

theorem cleared_rejudged {out : ScoreCoreOutput K} {c : ComputationRow K}
    (hbreakdown : c.breakdown = out.breakdown)
    (hgate : out.outcome = .auto → Passes isOpen out.breakdown) :
    PaperFile.Cleared isOpen { f with
      row := f.row.ruleLayer (out.outcome = .auto)
      computations := f.computations ++ [c] } := by
  by_cases hauto : out.outcome = .auto
  · intro _ c' hc'
    rw [List.getLast?_concat] at hc'
    cases hc'
    rw [hbreakdown]
    exact hgate hauto
  · refine PaperFile.cleared_of_not ?_
    rw [decide_eq_false hauto]
    exact ruleLayer_not_approved f.row

theorem reviewed_not_approved {r : ResultRow} (h : r.status ∈ editableStatuses) :
    r.reviewed.status ∉ sampleStatuses := by
  by_cases hmem : r.status ∈ [ResultStatus.autoApproved, .flaggedForReview]
  · rw [ResultRow.reviewed, ResultRow.advance_of_mem hmem]
    exact not_approved .teacherReviewed rfl
  · rw [ResultRow.reviewed, ResultRow.advance_of_not_mem hmem]
    revert h hmem
    cases r.status <;> decide

theorem FileMove.cleared (h : FileMove scores f f')
    (hgate : ∀ stored out, scores stored out → out.outcome = .auto → Passes isOpen out.breakdown)
    (hcleared : f.Cleared isOpen) : f'.Cleared isOpen := by
  cases h with
  | moved move teacher => exact fun hmem => hcleared (move.approved hmem)
  | oneShot pipeline keys status unapproved => exact PaperFile.cleared_of_not unapproved
  | rejudged graded computes computation later =>
    exact cleared_rejudged computation.breakdown (hgate _ _ computes)
  | rechecked graded computes computation later editable =>
    exact PaperFile.cleared_of_not (reviewed_not_approved editable)
  | opened next outcome =>
    exact PaperFile.cleared_of_not (not_approved .aiGrading next.status)
  | @scored a stored out c score drawn confidence modelUsed running pipeline computes scored
      computation =>
    intro hmem c' hc'
    have hc' : (f.computations ++ [c]).getLast? = some c' := hc'
    rw [List.getLast?_concat] at hc'
    cases hc'
    rw [computation.breakdown]
    refine hgate _ _ computes ?_
    by_contra hauto
    refine not_approved (s := (f.row.decided (decide (out.outcome = .auto)) drawn score confidence
      modelUsed).status) .flaggedForReview ?_ (by decide) hmem
    rw [decide_eq_false hauto]
    rfl
  | failed u running fails => exact PaperFile.cleared_of_not (not_approved .flaggedForReview rfl)
  | exhausted u next outcome =>
    exact PaperFile.cleared_of_not (not_approved .flaggedForReview rfl)
  | requeued requeuable => exact PaperFile.cleared_of_not (not_approved .aiGrading rfl)

theorem FileMove.decided (h : FileMove scores f f') (hdecided : f.row.status ∈ decidedStatuses) :
    f'.row.status ∈ decidedStatuses := by
  have hnot : ∀ {t : ResultStatus}, f.row.status = t → t ∉ decidedStatuses → False :=
    fun heq ht => ht (heq ▸ hdecided)
  cases h with
  | moved move teacher => exact move.decided hdecided
  | oneShot pipeline keys status unapproved =>
    simp only [List.mem_cons, List.not_mem_nil, or_false] at status
    exact status.elim (fun h => (hnot h (by decide)).elim) fun h => (hnot h (by decide)).elim
  | rejudged graded computes computation later =>
    show (f.row.ruleLayer _).status ∈ decidedStatuses
    rw [ruleLayer_of_decided _ hdecided]
    exact hdecided
  | rechecked graded computes computation later editable =>
    exact f.row.reviewed_rowMove.decided hdecided
  | opened next outcome => exact hdecided
  | scored drawn confidence modelUsed running =>
    exact (hnot running.status (by decide)).elim
  | failed u running fails => exact (hnot running.status (by decide)).elim
  | exhausted u next outcome => exact (hnot next.status (by decide)).elim
  | requeued requeuable => exact (hnot (of_decide_eq_true requeuable).1 (by decide)).elim

end Files

/-! ## Tables whose papers are cleared -/

/-- Every approved paper that is not pending passes the open breakers. -/
structure Guarded (isOpen : BreakerScope → Bool) (pending : List String) (db : Db K) : Prop where
  filed : Filed (fun _ _ => True) db
  reads : ReadsBreakers isOpen db
  rules : ∀ c ∈ db.computations, ∀ e ∈ c.breakdown.errors, ∃ rule, db.rule e.ruleId = some rule
  cleared : ∀ r ∈ db.results, r.id ∉ pending → (db.file r).Cleared isOpen

theorem KeepsBreakers.rule {db db' : Db K} (h : KeepsBreakers db db') {id : String}
    (hrule : ∃ rule, db.rule id = some rule) : ∃ rule, db'.rule id = some rule := by
  obtain ⟨rule, hrule⟩ := hrule
  obtain ⟨rule', hrule', _⟩ := h.ruleKeys id rule hrule
  exact ⟨rule', hrule'⟩

section Guarded

variable [Number K] {env : GradingEnv K} {db db' : Db K} {isOpen : BreakerScope → Bool}
  {pending : List String}

theorem Write.keepsBreakers (h : Write env db db') : KeepsBreakers db db' := by
  have hsame : ∀ {db' : Db K}, db'.rules = db.rules → db'.openBreakerRuleKeys =
      db.openBreakerRuleKeys → db'.noErrorBreakerOpen = db.noErrorBreakerOpen →
        KeepsBreakers db db' := by
    intro db' hrules hkeys hnoError
    refine ⟨fun id rule hrule => ⟨rule, ?_, rfl⟩, hkeys, hnoError⟩
    rw [Db.rule, hrules]
    exact hrule
  cases h with
  | edit h => exact ⟨h.ruleKeys, by rw [h.tables], by rw [h.tables]⟩
  | enlist => exact hsame rfl rfl rfl
  | rejudge => exact hsame rfl rfl rfl
  | recheck => exact hsame rfl rfl rfl
  | manual => exact hsame rfl rfl rfl
  | accept => exact hsame rfl rfl rfl
  | publish => exact hsame rfl rfl rfl
  | openAttempt => exact hsame rfl rfl rfl
  | firstScore => exact hsame rfl rfl rfl
  | fail => exact hsame rfl rfl rfl
  | exhaust => exact hsame rfl rfl rfl
  | exhaustIdle => exact hsame rfl rfl rfl
  | requeue => exact hsame rfl rfl rfl

theorem Write.computations (h : Write env db db') {c : ComputationRow K}
    (hc : c ∈ db'.computations) :
    c ∈ db.computations ∨ ∃ stored out, db.Scores env stored out ∧ c.breakdown = out.breakdown := by
  have hnew : ∀ {r : ResultRow} {stored : StoredInvestigation K} {out : ScoreCoreOutput K}
      {c₀ : ComputationRow K} {reason : ComputationReason}, db.Computes env r stored out →
        ComputationOf r reason out c₀ → c ∈ db.computations ++ [c₀] →
          c ∈ db.computations ∨
            ∃ stored out, db.Scores env stored out ∧ c.breakdown = out.breakdown := by
    intro r stored out c₀ reason hscore hc₀ hc
    rcases List.mem_append.1 hc with hc | hc
    · exact .inl hc
    · rw [List.mem_singleton.1 hc]
      exact .inr ⟨stored, out, ⟨r, hscore⟩, hc₀.breakdown⟩
  cases h with
  | edit h => exact .inl (h.computations ▸ hc)
  | enlist => exact .inl hc
  | rejudge n result graded score computation later => exact hnew score computation hc
  | recheck n result editable graded score computation later => exact hnew score computation hc
  | manual => exact .inl hc
  | accept => exact .inl hc
  | publish => exact .inl hc
  | openAttempt => exact .inl hc
  | firstScore n confidence modelUsed running pipeline computes scored computation =>
    exact hnew computes computation hc
  | fail => exact .inl hc
  | exhaust => exact .inl hc
  | exhaustIdle => exact .inl hc
  | requeue => exact .inl hc

omit [Number K] in
theorem ReadsBreakers.keeps (h : ReadsBreakers isOpen db) (hk : KeepsBreakers db db') :
    ReadsBreakers isOpen db' := by
  refine ⟨fun id hopen => ?_, fun hopen => hk.noError.trans (h.noError hopen)⟩
  obtain ⟨rule, hrule, hkey⟩ := h.rules id hopen
  obtain ⟨rule', hrule', hsame⟩ := hk.ruleKeys id rule hrule
  exact ⟨rule', hrule', by rwa [hsame, hk.keys]⟩

omit [Number K] in
theorem Refiled.cleared {scores : StoredInvestigation K → ScoreCoreOutput K → Prop}
    {scores' : StoredInvestigation K → ScoreCoreOutput K → Prop} (h : Refiled scores db db')
    (hf : Filed scores' db) (himp : ∀ stored out, scores stored out → scores' stored out)
    (hgate : ∀ stored out, scores stored out → out.outcome = .auto → Passes isOpen out.breakdown)
    (hcleared : ∀ r ∈ db.results, r.id ∉ pending → (db.file r).Cleared isOpen) :
    ∀ r ∈ db'.results, r.id ∉ pending → (db'.file r).Cleared isOpen := by
  obtain ⟨g, rows, hrows, hmove, hnew⟩ := h
  intro r hr hpending
  rw [hrows] at hr
  rcases List.mem_append.1 hr with hr | hr
  · obtain ⟨r₀, hr₀, rfl⟩ := List.mem_map.1 hr
    have hid : (g r₀).id = r₀.id := (((hmove r₀ hr₀).mono himp).follows (hf.files r₀ hr₀)).id
    rw [hid] at hpending
    exact (hmove r₀ hr₀).cleared hgate (hcleared r₀ hr₀ hpending)
  · exact PaperFile.cleared_of_not (not_approved .aiGrading (hnew r hr).1.status)

theorem Change.computations (h : Change env db db') {c : ComputationRow K}
    (hc : c ∈ db'.computations) :
    c ∈ db.computations ∨ ∃ stored out, db.Scores env stored out ∧ c.breakdown = out.breakdown := by
  cases h with
  | write h => exact h.computations hc
  | oneShotScore => exact .inl hc
  | oneShotFlag => exact .inl hc
  | reviewed => exact .inl hc
  | audited => exact .inl hc
  | breakers => exact .inl hc

theorem Change.guarded (h : Change env db db') (hk : KeepsBreakers db db')
    (hg : Guarded isOpen pending db) : Guarded isOpen pending db' := by
  have himp : ∀ stored out, db.Scores env stored out → True := fun _ _ _ => trivial
  refine ⟨h.filed himp hg.filed, hg.reads.keeps hk, fun c hc e he => ?_, ?_⟩
  · refine hk.rule ?_
    rcases h.computations hc with hc | ⟨stored, out, hscores, hbreakdown⟩
    · exact hg.rules c hc e he
    · obtain ⟨rule, hrule, _⟩ := scores_rules hscores (hbreakdown ▸ he)
      exact ⟨rule, hrule⟩
  · exact (h.refiled hg.filed.linked hg.filed.attemptIds).cleared hg.filed himp
      (fun _ _ hscores hauto => scores_passes hg.reads hscores hauto) hg.cleared

theorem Write.guarded (h : Write env db db') (hg : Guarded isOpen pending db) :
    Guarded isOpen pending db' :=
  (Change.write h).guarded h.keepsBreakers hg

theorem Steps.guarded (h : Steps env db db') (hg : Guarded isOpen pending db) :
    Guarded isOpen pending db' := by
  induction h with
  | refl => exact hg
  | tail _ hstep ih => exact hstep.1.guarded hstep.2 ih

theorem Writes.steps (h : Writes env db db') : Steps env db db' :=
  Relation.ReflTransGen.mono (fun _ _ hw => ⟨.write hw, hw.keepsBreakers⟩) _ _ h

theorem Changes.decided (h : Changes env db db') {scores : StoredInvestigation K →
    ScoreCoreOutput K → Prop} (himp : ∀ stored out, ScoredOnce env stored out → scores stored out)
    (hf : Filed scores db) {id : String} {r : ResultRow} (hr : db.result id = some r)
    (hdecided : r.status ∈ decidedStatuses) :
    ∃ r', db'.result id = some r' ∧ r'.status ∈ decidedStatuses := by
  suffices h : Filed scores db' ∧
      ∃ r', db'.result id = some r' ∧ r'.status ∈ decidedStatuses from h.2
  induction h with
  | refl => exact ⟨hf, r, hr, hdecided⟩
  | @tail db₁ db₂ _ hc ih =>
    obtain ⟨hf₁, r₁, hr₁, hdecided₁⟩ := ih
    have himp₁ : ∀ stored out, db₁.Scores env stored out → scores stored out :=
      fun stored out hscores => himp stored out ⟨db₁, hscores⟩
    have hf₂ := hc.filed himp₁ hf₁
    obtain ⟨g, rows, hrows, hmove, _⟩ := hc.refiled hf₁.linked hf₁.attemptIds
    have hmem : r₁ ∈ db₁.results := mem_of_rowOf hr₁
    have hid : (g r₁).id = id :=
      (((hmove r₁ hmem).mono himp₁).follows (hf₁.files r₁ hmem)).id.trans (rowOf_key hr₁)
    refine ⟨hf₂, g r₁, ?_, (hmove r₁ hmem).decided hdecided₁⟩
    rw [← hid]
    refine result_of_mem hf₂.linked.ids ?_
    rw [hrows]
    exact List.mem_append_left rows (List.mem_map_of_mem hmem)

end Guarded

end Cine.Grading
