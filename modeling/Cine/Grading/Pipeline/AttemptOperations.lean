import Cine.Grading.Pipeline.Attempts
import Cine.Grading.Rules.RuleOperations

/-!
# Attempts keep the scores up to date

An operation on an attempt works on one paper.  `OtherPapers` says that it
leaves every other one alone, so that only its own paper is left to look at:
most of the time that paper has no graded attempt, and after `finishAttempt`
its first computation is the one of now.
-/

namespace Cine.Grading

open Cine.Lib

variable {K : Type}

/-! ## One paper -/

/-- A step that changes the paper `resultId`, its attempts and its
computations only. -/
structure OtherPapers (resultId : String) (db db' : Db K) : Prop where
  tables : db' = { db with
    results := db'.results
    attempts := db'.attempts
    computations := db'.computations
    drawnIds := db'.drawnIds }
  ids : db'.results.map ResultRow.id = db.results.map ResultRow.id
  submissions : db'.results.map ResultRow.submissionId = db.results.map ResultRow.submissionId
  results : ∀ r ∈ db'.results, r.id ≠ resultId → r ∈ db.results
  attempts : ∀ id a, db.attempt id = some a → a.gradingResultId ≠ resultId →
    db'.attempt id = some a
  latest : ∀ id, id ≠ resultId → db'.latestComputation id = db.latestComputation id

namespace OtherPapers

variable {resultId : String} {db db' db'' : Db K}

theorem trans (h : OtherPapers resultId db db') (h' : OtherPapers resultId db' db'') :
    OtherPapers resultId db db'' := by
  refine ⟨?_, h'.ids.trans h.ids, h'.submissions.trans h.submissions, ?_, ?_, ?_⟩
  · have htables := h'.tables
    rw [h.tables] at htables
    exact htables
  · exact fun r hr hne => h.results r (h'.results r hr hne) hne
  · exact fun id a ha hne => h'.attempts id a (h.attempts id a ha hne) hne
  · exact fun id hne => (h'.latest id hne).trans (h.latest id hne)

theorem tidy (h : OtherPapers resultId db db') (htidy : Tidy db) : Tidy db' := by
  rw [h.tables]
  exact ⟨htidy.ruleKeys, htidy.rowIds, htidy.uses, htidy.rowRules⟩

theorem updateResult {f : ResultRow → ResultRow} (hid : ∀ r, (f r).id = r.id)
    (hsubmission : ∀ r, (f r).submissionId = r.submissionId) :
    OtherPapers resultId db (db.updateResult resultId f) := by
  refine ⟨rfl, map_updateRow hid, map_updateRow hsubmission, fun r hr hne => ?_,
    fun _ _ ha _ => ha, fun _ _ => rfl⟩
  obtain ⟨r₀, hr₀, rfl⟩ := mem_updateRow.1 hr
  split_ifs at hne ⊢ with heq
  · exact absurd ((hid r₀).trans heq) hne
  · exact hr₀

theorem updateAttempt {a : AttemptRow K} (ha : db.attempt a.id = some a)
    (howner : a.gradingResultId = resultId) {f : AttemptRow K → AttemptRow K}
    (hid : ∀ a, (f a).id = a.id) :
    OtherPapers resultId db
      { db with attempts := updateRow AttemptRow.id db.attempts a.id f } := by
  refine ⟨rfl, rfl, rfl, fun _ hr _ => hr, fun id b hb hne => ?_, fun _ _ => rfl⟩
  have hother : id ≠ a.id := by
    intro heq
    rw [heq, ha] at hb
    exact hne (Option.some.inj hb ▸ howner)
  exact (rowOf_updateRow_ne hid hother).trans hb

theorem newAttempt (a : AttemptRow K) (n : Nat) :
    OtherPapers resultId db { db with attempts := db.attempts ++ [a], drawnIds := n } :=
  ⟨rfl, rfl, rfl, fun _ hr _ => hr, fun _ _ hb _ => rowOf_append_of_some _ hb, fun _ _ => rfl⟩

theorem newComputation {c : ComputationRow K} (howner : c.gradingResultId = resultId) (n : Nat) :
    OtherPapers resultId db { db with computations := db.computations ++ [c], drawnIds := n } := by
  refine ⟨rfl, rfl, rfl, fun _ hr _ => hr, fun _ _ ha _ => ha, fun id hne => ?_⟩
  rw [latestComputation_append, if_neg]
  exact fun heq => hne (heq.symm.trans howner)

end OtherPapers

section Consistency

variable [Number K] {env : GradingEnv K} {db db' : Db K} {resultId : String} {r : ResultRow}

theorem Consistent.others (h : AllUpToDate env db) (hothers : OtherPapers resultId db db')
    (hpaper : ∀ r ∈ db'.results, r.id = resultId → PaperOk env False db' r) :
    AllUpToDate env db' := by
  have htidy := hothers.tidy h.tidy
  refine ⟨htidy, hothers.ids ▸ h.ids, hothers.submissions ▸ h.submissions, fun r hr => ?_⟩
  by_cases hid : r.id = resultId
  · exact hpaper r hr hid
  · have hok := h.papers r (hothers.results r hr hid)
    have hattempt : db'.currentAttempt r = db.currentAttempt r := by
      rw [Db.currentAttempt, Db.currentAttempt]
      cases hcurrent : r.currentAttemptId with
      | none => rfl
      | some id =>
        obtain ⟨a, ha, howner⟩ := hok.owner id hcurrent
        rw [Option.bind_some, Option.bind_some, ha]
        exact hothers.attempts id a ha (howner ▸ hid)
    refine hok.carry ⟨.refl r, hattempt, hothers.latest r.id hid, ?_, ?_, ?_, ?_, ?_⟩ ?_
      fun _ hstale => ⟨hstale, ?_⟩
    · rw [hothers.tables]
      exact fun hm => hm
    · rw [hothers.tables]
      rfl
    · rw [hothers.tables]
      rfl
    · rw [hothers.tables]
      exact fun _ _ _ => rfl
    · rw [hothers.tables]
      exact fun _ _ _ => rfl
    · exact fun id a _ ha howner => hothers.attempts id a ha (howner ▸ hid)
    · refine keepsView_of_table h.tidy htidy (fun _ _ => ?_) ?_
      · rw [hothers.tables]
        rfl
      · rw [hothers.tables]
        rfl

theorem PaperOk.of_not_graded {p : Prop}
    (howner : ∀ id, r.currentAttemptId = some id →
      ∃ a, db.attempt id = some a ∧ a.gradingResultId = r.id)
    (hungraded : ¬ db.IsGraded r) : PaperOk env p db r :=
  ⟨howner, fun hgraded => absurd hgraded hungraded, fun hopen => absurd hopen.graded hungraded,
    fun hopen => absurd hopen.graded hungraded⟩

variable {a : AttemptRow K} {f : ResultRow → ResultRow} {g : AttemptRow K → AttemptRow K}
    {attemptId : String} {out : ScoreCoreOutput K} {stored : StoredInvestigation K}

omit [Number K] in
theorem not_isGraded_of_attempt {id : String} (hcurrent : r.currentAttemptId = some id)
    (ha : db.attempt id = some a) (houtcome : a.outcome ≠ some .graded) : ¬ db.IsGraded r := by
  intro hgraded
  obtain ⟨b, hb, hbgraded⟩ := hgraded
  rw [Db.currentAttempt, hcurrent, Option.bind_some, ha] at hb
  exact houtcome (Option.some.inj hb ▸ hbgraded)

omit [Number K] in
theorem mem_updateResult (hr : r ∈ (db.updateResult resultId f).results) (heq : r.id = resultId) :
    ∃ r₀ ∈ db.results, r₀.id = resultId ∧ r = f r₀ := by
  obtain ⟨r₀, hr₀, rfl⟩ := mem_updateRow.1 hr
  split_ifs at heq ⊢ with hmatch
  · exact ⟨r₀, hr₀, hmatch, rfl⟩
  · exact absurd heq hmatch

/-! ## New attempts -/

/-- What `insertAttempt` writes. -/
structure NewAttempt (resultId : String) (a : AttemptRow K) (db db' : Db K) : Prop where
  others : OtherPapers resultId db db'
  attempt : db'.attempt a.id = some a
  owner : a.gradingResultId = resultId
  rows : ∀ r ∈ db'.results, r.id = resultId → r.currentAttemptId = some a.id

omit [Number K] in
theorem insertAttempt_spec (resultId : String) (outcome : Option AttemptOutcome)
    (ungradable : Option Ungradable) :
    Ensures (insertAttempt env resultId outcome ungradable) db fun _ db' =>
      ∃ a : AttemptRow K, a.outcome = outcome ∧ NewAttempt resultId a db db' := by
  rw [insertAttempt]
  refine (freshId_spec env _ db).bind fun id db₁ h₁ => ?_
  obtain ⟨hid, rfl⟩ := h₁
  refine ensures_bind (ensures_modify (ensures_bind (ensures_modify (ensures_pure ?_))))
  set a : AttemptRow K := ⟨id, resultId, db.nextAttemptNo resultId, outcome, ungradable, none⟩
    with ha
  have hnone : rowOf AttemptRow.id db.attempts id = none :=
    rowOf_eq_none.2 fun b hb hk => hid (hk ▸ List.mem_map_of_mem hb)
  refine ⟨a, rfl, ?_, ?_, rfl, fun r hr heq => ?_⟩
  · exact (OtherPapers.newAttempt a (db.drawnIds + 1)).trans
      (OtherPapers.updateResult (fun _ => rfl) fun _ => rfl)
  · show rowOf _ (db.attempts ++ [a]) id = _
    rw [rowOf_append, hnone, Option.none_or, rowOf]
    simp [ha]
  · obtain ⟨r₀, _, _, rfl⟩ := mem_updateResult
      (f := fun r => { r with currentAttemptId := some id }) hr heq
    rfl

theorem Consistent.newAttempt (h : AllUpToDate env db) (hnew : NewAttempt resultId a db db')
    (houtcome : a.outcome ≠ some .graded) : AllUpToDate env db' := by
  refine h.others hnew.others fun r hr hid => ?_
  have hcurrent := hnew.rows r hr hid
  refine PaperOk.of_not_graded (fun id hid' => ⟨a, ?_, hnew.owner.trans hid.symm⟩) ?_
  · rw [hcurrent] at hid'
    rw [← Option.some.inj hid']
    exact hnew.attempt
  · exact not_isGraded_of_attempt hcurrent hnew.attempt houtcome

theorem startAttempt_consistent (h : AllUpToDate env db) (resultId : String) :
    Ensures (startAttempt env resultId) db fun _ db' => AllUpToDate env db' := by
  rw [startAttempt]
  refine ensures_bind (ensures_get ?_)
  split
  · exact ensures_pure h
  · refine ensures_ite (fun _ => ensures_pure h) fun _ => ?_
    split
    · exact ensures_pure h
    · refine (insertAttempt_spec resultId none none).bind fun _ db' h' => ensures_pure ?_
      obtain ⟨a, houtcome, hnew⟩ := h'
      refine h.newAttempt hnew ?_
      rw [houtcome]
      exact fun heq => nomatch heq

/-! ## Papers without a score -/

theorem Consistent.updateUngraded (h : AllUpToDate env db) (hid : ∀ r, (f r).id = r.id)
    (hsubmission : ∀ r, (f r).submissionId = r.submissionId)
    (hcurrent : ∀ r, (f r).currentAttemptId = r.currentAttemptId)
    (hungraded : ∀ r ∈ db.results, r.id = resultId → ¬ db.IsGraded r) :
    AllUpToDate env (db.updateResult resultId f) := by
  refine h.others (OtherPapers.updateResult hid hsubmission) fun r hr heq => ?_
  obtain ⟨r₀, hr₀, hid₀, rfl⟩ := mem_updateResult hr heq
  refine PaperOk.of_not_graded (fun id hid' => ?_) fun hgraded => ?_
  · rw [hcurrent] at hid'
    rw [hid]
    exact (h.papers r₀ hr₀).owner id hid'
  · refine hungraded r₀ hr₀ hid₀ ?_
    rw [Db.IsGraded, Db.currentAttempt, hcurrent] at hgraded
    exact hgraded

theorem Consistent.closeUngraded (h : AllUpToDate env db) (ha : db.attempt a.id = some a)
    (hr : r ∈ db.results) (hcurrent : r.currentAttemptId = some a.id) (hid : ∀ a, (g a).id = a.id)
    (howner : ∀ a, (g a).gradingResultId = a.gradingResultId)
    (houtcome : (g a).outcome ≠ some .graded) :
    AllUpToDate env { db with attempts := updateRow AttemptRow.id db.attempts a.id g } := by
  have hown : a.gradingResultId = r.id := by
    obtain ⟨b, hb, hbown⟩ := (h.papers r hr).owner a.id hcurrent
    rw [ha] at hb
    exact Option.some.inj hb ▸ hbown
  have hclosed : rowOf AttemptRow.id (updateRow AttemptRow.id db.attempts a.id g) a.id =
      some (g a) := rowOf_updateRow_self hid ha
  refine h.others (OtherPapers.updateAttempt ha hown hid) fun r' hr' heq => ?_
  have hsame : r' = r := List.inj_on_of_nodup_map h.ids hr' hr heq
  subst hsame
  refine PaperOk.of_not_graded (fun id hid' => ⟨g a, ?_, (howner a).trans hown⟩) ?_
  · rw [hcurrent] at hid'
    rw [← Option.some.inj hid']
    exact hclosed
  · exact not_isGraded_of_attempt hcurrent hclosed houtcome

omit [Number K] in
theorem eq_of_result (hids : (db.results.map ResultRow.id).Nodup) {r' : ResultRow}
    (hr : db.result resultId = some r) (hr' : r' ∈ db.results) (hid : r'.id = resultId) :
    r' = r := by
  rw [← hid, result_of_mem hids hr'] at hr
  exact Option.some.inj hr

theorem not_isGraded_of_aiGrading (h : AllUpToDate env db) (hr : r ∈ db.results)
    (hstatus : r.status = .aiGrading) : ¬ db.IsGraded r := by
  intro hgraded
  have hsettled := ((h.papers r hr).settled hgraded).1
  rw [hstatus] at hsettled
  cases hsettled

theorem requeue_consistent (h : AllUpToDate env db) (resultId : String) :
    Ensures (requeue resultId) db fun _ db' => AllUpToDate env db' := by
  rw [requeue]
  refine ensures_bind (ensures_get ?_)
  refine ensures_ite (fun hrequeuable => ?_) fun _ => ensures_pure h
  refine ensures_bind (ensures_set (ensures_pure ?_))
  refine h.updateUngraded (fun _ => rfl) (fun _ => rfl) (fun _ => rfl) fun r hr hid hgraded => ?_
  -- A graded paper has no reason, and only a paper with one is requeued.
  have hnone := ((h.papers r hr).settled hgraded).2
  rw [← hid, result_of_mem h.ids hr, Option.any_some, ResultRow.isRequeuable, hnone] at hrequeuable
  simp at hrequeuable

omit [Number K] in
theorem runningAttempt_spec (h : db.runningAttempt r = some attemptId) :
    r.currentAttemptId = some attemptId ∧
      ∀ a, db.attempt attemptId = some a → a.outcome = none := by
  rw [Db.runningAttempt, Option.filter_eq_some_iff] at h
  refine ⟨h.1, fun a ha => ?_⟩
  have hnone := h.2
  rw [ha, Option.bind_some, Option.isNone_iff_eq_none] at hnone
  exact hnone

omit [Number K] in
theorem updateRow_submission (h : (db.results.map ResultRow.submissionId).Nodup)
    {submissionId : String} (hr : db.resultOfSubmission submissionId = some r)
    (hids : (db.results.map ResultRow.id).Nodup) (f : ResultRow → ResultRow) :
    updateRow ResultRow.submissionId db.results submissionId f =
      updateRow ResultRow.id db.results r.id f := by
  refine List.map_congr_left fun r' hr' => ?_
  have hmem : r ∈ db.results := mem_of_rowOf hr
  have hiff : r'.submissionId = submissionId ↔ r'.id = r.id := by
    constructor
    · intro hs
      rw [List.inj_on_of_nodup_map h hr' hmem (hs.trans (rowOf_key hr).symm)]
    · intro hid
      rw [List.inj_on_of_nodup_map hids hr' hmem hid]
      exact rowOf_key hr
  simp only [hiff]

theorem markUngradable_consistent (h : AllUpToDate env db) (submissionId reason : String) :
    Ensures (markUngradable env submissionId reason) db fun _ db' => AllUpToDate env db' := by
  rw [markUngradable]
  refine ensures_bind (ensures_get ?_)
  refine ensures_ite (fun _ => ensures_pure h) fun hgrading => ?_
  refine ensures_bind (ensures_set ?_)
  cases hrow : db.resultOfSubmission submissionId with
  | none => exact ensures_throw
  | some r =>
    have hr : r ∈ db.results := mem_of_rowOf hrow
    have hstatus : r.status = .aiGrading := by
      simpa [hrow] using hgrading
    rw [updateRow_submission h.submissions hrow h.ids]
    have hungraded : ∀ r' ∈ db.results, r'.id = r.id → ¬ db.IsGraded r' := by
      intro r' hr' hid
      rw [List.inj_on_of_nodup_map h.ids hr' hr hid]
      exact not_isGraded_of_aiGrading h hr hstatus
    have h₁ := h.updateUngraded (f := fun r =>
      { r with
        status := .flaggedForReview, flagForReview := true, confidence := some "0"
        ungradable := some ⟨.system, reason⟩ }) (fun _ => rfl) (fun _ => rfl) (fun _ => rfl)
      hungraded
    cases hrunning : db.runningAttempt r with
    | some attemptId =>
      obtain ⟨hcurrent, _⟩ := runningAttempt_spec hrunning
      obtain ⟨a, ha, _⟩ := (h.papers r hr).owner attemptId hcurrent
      have hid : a.id = attemptId := rowOf_key ha
      subst hid
      simp only [hrunning]
      refine ensures_bind (ensures_modify (ensures_pure ?_))
      refine h₁.closeUngraded (r := { r with
        status := .flaggedForReview, flagForReview := true, confidence := some "0"
        ungradable := some ⟨.system, reason⟩ }) ha ?_ hcurrent (fun _ => rfl) (fun _ => rfl) ?_
      · exact mem_updateRow.2 ⟨r, hr, if_pos rfl⟩
      · exact fun heq => nomatch heq
    | none =>
      simp only [hrunning]
      refine (insertAttempt_spec r.id _ _).bind fun _ db' h' => ensures_pure ?_
      obtain ⟨a, houtcome, hnew⟩ := h'
      refine h₁.newAttempt hnew ?_
      rw [houtcome]
      exact fun heq => nomatch heq

/-! ## The end of an attempt -/

omit [Number K] in
/-- What `lockRunning` has checked. -/
structure Running (resultId attemptId : String) (stored : Option (StoredInvestigation K))
    (r : ResultRow) (a : AttemptRow K) (ctx : ScoreContext K) (db : Db K) : Prop where
  result : db.result resultId = some r
  status : r.status = .aiGrading
  current : r.currentAttemptId = some attemptId
  attempt : db.attempt attemptId = some a
  outcome : a.outcome = none
  context : ∃ session rubric, db.sessionOf r = some session ∧
    db.rubric r.rubricIdVersion = some rubric ∧ ctx = db.contextOf r session rubric stored

theorem lockRunning_spec (h : AllUpToDate env db) {resultId : String}
    {stored : Option (StoredInvestigation K)} :
    Ensures (lockRunning resultId attemptId stored) db fun ctx db' =>
      db' = db ∧ ∃ r a, Running resultId attemptId stored r a ctx db := by
  have hloads : Ensures (lockRunning resultId attemptId stored) db fun ctx db' =>
      db' = db ∧ db.loadScoreContext resultId stored = .ok ctx := lockRunning_loads
  refine (hloads.and (Q := fun _ _ => ∃ r, db.result resultId = some r ∧
    r.status = .aiGrading ∧ r.currentAttemptId = some attemptId ∧
      (db.attempt attemptId).bind AttemptRow.outcome = none) ?_).mono fun ctx db' h' => ?_
  · rw [lockRunning]
    refine ensures_bind (ensures_get ?_)
    split
    · exact ensures_throw
    · rename_i r hr
      refine ensures_ite (fun _ => ensures_bind ensures_throw) fun hchecked => ?_
      simp only [not_or, not_not] at hchecked
      obtain ⟨_, hstatus, hcurrent, houtcome⟩ := hchecked
      exact ensures_lift fun ctx _ => ⟨r, hr, hstatus, hcurrent, by simpa using houtcome⟩
  · obtain ⟨⟨hdb, hctx⟩, r, hr, hstatus, hcurrent, houtcome⟩ := h'
    obtain ⟨r', session, rubric, hr', hsession, hrubric, hcontext⟩ := rows_of_loadScoreContext hctx
    have hsame : r' = r := by
      rw [hr] at hr'
      exact (Option.some.inj hr').symm
    subst hsame
    obtain ⟨a, ha, _⟩ := (h.papers r' (mem_of_rowOf hr)).owner attemptId hcurrent
    rw [ha, Option.bind_some] at houtcome
    exact ⟨hdb, r', a, hr, hstatus, hcurrent, ha, houtcome, session, rubric, hsession, hrubric,
      hcontext⟩

omit [Number K] in
theorem leaveAiGrading_spec (f : ResultRow → ResultRow) :
    Ensures (leaveAiGrading resultId f) db fun _ db' => db' = db.updateResult resultId f := by
  rw [leaveAiGrading]
  refine ensures_bind (ensures_get ?_)
  exact ensures_ite (fun _ => ensures_set rfl) fun _ => ensures_throw

omit [Number K] in
@[simp] theorem close_id (outcome : AttemptOutcome) (u : Option Ungradable)
    (stored : Option (StoredInvestigation K)) (a : AttemptRow K) :
    (a.close outcome u stored).id = a.id := by
  rw [AttemptRow.close]
  split_ifs
  · rfl
  · rfl

omit [Number K] in
@[simp] theorem close_gradingResultId (outcome : AttemptOutcome) (u : Option Ungradable)
    (stored : Option (StoredInvestigation K)) (a : AttemptRow K) :
    (a.close outcome u stored).gradingResultId = a.gradingResultId := by
  rw [AttemptRow.close]
  split_ifs
  · rfl
  · rfl

theorem closeUngradable_consistent (h : AllUpToDate env db) (hr : db.result resultId = some r)
    (hstatus : r.status = .aiGrading) (hcurrent : r.currentAttemptId = some attemptId)
    (ha : db.attempt attemptId = some a) (houtcome : a.outcome = none) (u : Ungradable)
    (stored : Option (StoredInvestigation K)) :
    Ensures (closeUngradable resultId attemptId u stored) db fun _ db' => AllUpToDate env db' := by
  have hid : a.id = attemptId := rowOf_key ha
  subst hid
  rw [closeUngradable, closeAttempt]
  refine ensures_bind (ensures_modify ?_)
  have houtcome' : (a.close .ungradable (some u) stored).outcome ≠ some .graded := by
    rw [AttemptRow.close, if_pos houtcome]
    exact fun heq => nomatch heq
  have h₁ := h.closeUngraded ha (mem_of_rowOf hr) hcurrent (close_id _ _ _)
    (close_gradingResultId _ _ _) houtcome'
  refine (leaveAiGrading_spec _).mono fun _ db' h' => ?_
  rw [h']
  refine h₁.updateUngraded (fun _ => rfl) (fun _ => rfl) (fun _ => rfl) fun r' hr' hid => ?_
  have hsame : r' = r := eq_of_result h.ids hr hr' hid
  exact not_isGraded_of_aiGrading h₁ hr' (hsame ▸ hstatus)

theorem finishUngradable_consistent (h : AllUpToDate env db) (resultId attemptId : String)
    (u : Ungradable) :
    Ensures (finishUngradable resultId attemptId u) db fun _ db' => AllUpToDate env db' := by
  rw [finishUngradable]
  refine (lockRunning_spec h).bind fun ctx db₁ h₁ => ?_
  obtain ⟨rfl, r, a, hrunning⟩ := h₁
  exact closeUngradable_consistent h hrunning.result hrunning.status hrunning.current
    hrunning.attempt hrunning.outcome u none

/-! ## The first score -/

omit [Number K] in
theorem proposeRule_spec (h : Tidy db) (ruleKey text : String) :
    Ensures (proposeRule env ruleKey text) db fun _ db' =>
      KeepsTables db db' ∧ db' = { db with rules := db'.rules, drawnIds := db'.drawnIds } := by
  rw [proposeRule]
  refine ensures_bind (ensures_get ?_)
  refine ensures_ite (fun _ => ensures_pure ⟨.refl h, rfl⟩) fun hfree => ?_
  refine (freshId_spec env _ db).bind fun id db₁ h₁ => ?_
  obtain ⟨_, rfl⟩ := h₁
  refine (freshId_spec env _ _).bind fun revisionId db₂ h₂ => ?_
  obtain ⟨_, rfl⟩ := h₂
  exact ensures_modify ⟨keepsTables_newRule h hfree _, rfl⟩

omit [Number K] in
theorem recordMissingRules_spec (h : Tidy db) (missing : List String)
    (resultId sessionId rubricName : String) :
    Ensures (recordMissingRules env missing resultId sessionId rubricName) db fun _ db' =>
      KeepsTables db db' ∧ db' = { db with
        rules := db'.rules, sightings := db'.sightings, drawnIds := db'.drawnIds } := by
  rw [recordMissingRules]
  refine ensures_forM (I := fun _ db' => KeepsTables db db' ∧ db' = { db with
    rules := db'.rules, sightings := db'.sightings, drawnIds := db'.drawnIds })
    (fun entry rest db₁ h₁ => ?_) _ ⟨.refl h, rfl⟩
  obtain ⟨hkeeps, htables⟩ := h₁
  refine (proposeRule_spec hkeeps.tidy _ _).bind fun _ db₂ h₂ => ensures_modify ?_
  obtain ⟨hkeeps₂, htables₂⟩ := h₂
  have hsightings : KeepsTables db₂ { db₂ with
      sightings := db₂.sightings ++ db₂.newSightings entry.1 resultId sessionId rubricName } :=
    ⟨⟨rfl, fun _ => rfl⟩,
      ⟨hkeeps₂.tidy.ruleKeys, hkeeps₂.tidy.rowIds, hkeeps₂.tidy.uses, hkeeps₂.tidy.rowRules⟩,
      rfl, rfl, rfl, fun _ _ => rfl⟩
  refine ⟨(hkeeps.trans hkeeps₂).trans hsightings, ?_⟩
  rw [htables] at htables₂
  rw [htables₂]

theorem Consistent.keepsTables (h : AllUpToDate env db) (hkeeps : KeepsTables db db') :
    AllUpToDate env db' := by
  refine h.edit hkeeps.edit hkeeps.tidy fun r _ _ _ => ?_
  refine keepsView_of_table h.tidy hkeeps.tidy (fun rubric _ => hkeeps.table rubric.name) ?_
  rw [Db.exceptionsOf, Db.exceptionsOf, hkeeps.reviews]

omit [Number K] in
theorem advanceStatus_spec (source : List ResultStatus) (target : ResultStatus)
    (extra : ResultRow → ResultRow) :
    Ensures (advanceStatus resultId source target extra) db fun _ db' =>
      (db' = db.updateResult resultId fun r => extra { r with status := target }) ∨
        db' = db ∧ ∀ r, db.result resultId = some r → r.status ∉ source := by
  rw [advanceStatus]
  refine ensures_bind (ensures_get ?_)
  refine ensures_ite (fun _ => ensures_bind (ensures_set (ensures_pure (Or.inl rfl))))
    fun hstatus => ensures_pure (Or.inr ⟨rfl, fun r hr => ?_⟩)
  rw [hr] at hstatus
  simpa using hstatus

/-- The database after the first score of a paper. -/
def Db.firstScore (db : Db K) (resultId attemptId : String) (g : AttemptRow K → AttemptRow K)
    (c : ComputationRow K) (n : Nat) (f : ResultRow → ResultRow) : Db K :=
  Db.updateResult { db with
    attempts := updateRow AttemptRow.id db.attempts attemptId g
    computations := db.computations ++ [c]
    drawnIds := n } resultId f

theorem Consistent.firstScore (h : AllUpToDate env db) {session : SessionRow} {rubric : RubricRow}
    {c : ComputationRow K} (hr : db.result resultId = some r)
    (hcurrent : r.currentAttemptId = some a.id) (ha : db.attempt a.id = some a)
    (hsession : db.sessionOf r = some session) (hrubric : db.rubric r.rubricIdVersion = some rubric)
    (hruler : db.OneRuler r) (hout : (db.paperInput env r session rubric stored
      (db.firstCases session.id)).computeScore = .ok out) (howner : c.gradingResultId = resultId)
    (hview : c.view = out.view) (hgid : ∀ a, (g a).id = a.id)
    (hg : g a = { a with outcome := some .graded, ungradable := none, investigation := some stored })
    (hf : ∀ r, f r = { r with
      status := (f r).status, flagForReview := (f r).flagForReview
      aiTotalScore := (f r).aiTotalScore, confidence := (f r).confidence
      modelUsed := (f r).modelUsed, ungradable := none }) (hsettled : (f r).status.isSettled = true)
    (n : Nat) : AllUpToDate env (db.firstScore resultId a.id g c n f) := by
  have hmem : r ∈ db.results := mem_of_rowOf hr
  have hid : r.id = resultId := rowOf_key hr
  have hown : a.gradingResultId = r.id := by
    obtain ⟨b, hb, hbown⟩ := (h.papers r hmem).owner a.id hcurrent
    rw [ha] at hb
    exact Option.some.inj hb ▸ hbown
  have hfid : ∀ r, (f r).id = r.id := fun r => by rw [hf]
  have hfsubmission : ∀ r, (f r).submissionId = r.submissionId := fun r => by rw [hf]
  have hothers : OtherPapers resultId db (db.firstScore resultId a.id g c n f) :=
    ((OtherPapers.updateAttempt ha (hown.trans hid) hgid).trans
      (OtherPapers.newComputation howner n)).trans (OtherPapers.updateResult hfid hfsubmission)
  refine h.others hothers fun r' hr' heq => ?_
  obtain ⟨r₀, hr₀, hid₀, rfl⟩ := mem_updateResult hr' heq
  have hsame : r₀ = r := eq_of_result h.ids hr hr₀ hid₀
  subst hsame
  have hclosed : rowOf AttemptRow.id (updateRow AttemptRow.id db.attempts a.id g) a.id =
      some (g a) := rowOf_updateRow_self hgid ha
  have hfcurrent : (f r₀).currentAttemptId = some a.id := by rw [hf, hcurrent]
  have hfsession : (db.firstScore resultId a.id g c n f).sessionOf (f r₀) = some session := by
    rw [hf]
    exact hsession
  have hfruler : db.ownCases (f r₀) session.id = db.firstCases session.id := by
    rw [hf]
    exact hruler session hsession
  refine ⟨fun id hid' => ⟨g a, ?_, ?_⟩, fun _ => ⟨hsettled, ?_⟩, fun _ => ?_, fun _ _ => ?_⟩
  · rw [hfcurrent] at hid'
    rw [← Option.some.inj hid']
    exact hclosed
  · rw [hg, hfid]
    exact hown
  · rw [hf]
  · intro session' hs'
    rw [hfsession] at hs'
    rw [← Option.some.inj hs']
    exact hfruler
  · refine ⟨session, rubric, stored, out, c, ⟨hfsession, ?_, ?_⟩, ?_, ?_, hview⟩
    · rw [hf]
      exact hrubric
    · rw [Db.gradedInvestigation, hfcurrent, Option.bind_some]
      show (rowOf AttemptRow.id (updateRow AttemptRow.id db.attempts a.id g) a.id).bind _ = _
      rw [hclosed, Option.bind_some, hg, if_pos rfl]
    · rw [← hout]
      show (Db.paperInput _ env (f r₀) session rubric stored
        (db.ownCases (f r₀) session.id)).computeScore = _
      rw [hfruler, hf]
      rfl
    · rw [hfid, hid₀]
      show Db.latestComputation { db with
        computations := db.computations ++ [c], drawnIds := n } resultId = _
      rw [latestComputation_append, if_pos howner]

omit [Number K] in
theorem result_updateResult (hid : ∀ r, (f r).id = r.id) (hr : db.result resultId = some r) :
    (db.updateResult resultId f).result resultId = some (f r) :=
  rowOf_updateRow_self hid hr

omit [Number K] in
theorem updateResult_updateResult {g : ResultRow → ResultRow} (hid : ∀ r, (f r).id = r.id) :
    (db.updateResult resultId f).updateResult resultId g = db.updateResult resultId (g ∘ f) := by
  rw [Db.updateResult, Db.updateResult, Db.updateResult, updateRow, updateRow, updateRow,
    List.map_map]
  congr 1
  refine List.map_congr_left fun r _ => ?_
  rw [Function.comp_apply]
  split_ifs with hmatch hmoved
  · rfl
  · exact absurd ((hid r).trans hmatch) hmoved
  · rfl

omit [Number K] in
theorem isSettled_ite {p : Prop} [Decidable p] :
    (if p then ResultStatus.autoApproved else .flaggedForReview).isSettled = true := by
  split_ifs
  · rfl
  · rfl

theorem writeInitial_consistent (h : AllUpToDate env db) {session : SessionRow} {rubric : RubricRow}
    {ctx : ScoreContext K} (hr : db.result resultId = some r)
    (hcurrent : r.currentAttemptId = some a.id) (ha : db.attempt a.id = some a)
    (hsession : db.sessionOf r = some session) (hrubric : db.rubric r.rubricIdVersion = some rubric)
    (hruler : db.OneRuler r) (hout : (db.paperInput env r session rubric stored
      (db.firstCases session.id)).computeScore = .ok out) (hctx : ctx.resultId = resultId)
    (hgid : ∀ a, (g a).id = a.id)
    (hg : g a = { a with outcome := some .graded, ungradable := none, investigation := some stored })
    (score : Int) :
    Ensures (writeInitial env ctx stored out score)
      { db with attempts := updateRow AttemptRow.id db.attempts a.id g }
      fun _ db' => AllUpToDate env db' := by
  rw [writeInitial]
  refine (insertComputation_spec _ _ _).bind fun computationId db₁ h₁ => ?_
  obtain ⟨c, howner, hview, htables⟩ := h₁
  refine (leaveAiGrading_spec _).bind fun _ db₂ h₂ => ?_
  refine (advanceStatus_spec _ _ _).bind fun _ db₃ h₃ => ?_
  rw [hctx] at howner h₂ h₃
  have h₄ : AllUpToDate env db₃ := by
    rcases h₃ with hmoved | ⟨_, hstays⟩
    · rw [hmoved, h₂, htables, updateResult_updateResult]
      · refine h.firstScore hr hcurrent ha hsession hrubric hruler hout howner hview hgid hg
          (fun _ => rfl) ?_ _
        exact isSettled_ite
      · exact fun _ => rfl
    · -- The paper has just become `ai_graded`, so the step is always taken.
      have hgraded : ∃ r', db₂.result resultId = some r' ∧ r'.status = .aiGraded := by
        rw [h₂, htables]
        exact ⟨_, result_updateResult (fun _ => rfl) hr, rfl⟩
      obtain ⟨r', hr', hstatus⟩ := hgraded
      exact absurd (List.mem_singleton.2 hstatus) (hstays r' hr')
  have hfinish : ∀ (o : FinishOutcome) (db' : Db K), Quiet db₃ db' → Ensures (do
      topUpSessionAudit env ctx.sessionId
      return o) db' fun _ db'' => AllUpToDate env db'' := by
    intro o db' hquiet
    refine (topUpSessionAudit_quiet env _ (hquiet.ids ▸ h₄.ids)).bind fun _ db'' h'' => ?_
    exact ensures_pure ((h₄.quiet hquiet).quiet h'')
  refine ensures_bind (ensures_get ?_)
  refine ensures_ite (fun _ => ?_) fun _ => hfinish _ db₃ (.refl db₃)
  exact (drawIntoAudit_quiet h₄.ids).bind fun _ db₅ h₅ => hfinish _ db₅ h₅

omit [Number K] in
theorem judge_spec [Number K] {ctx : ScoreContext K} {score : Int}
    (h : db.judge env ctx stored = .ok (.ok (out, score))) : db.compute env ctx id = .ok out := by
  rw [Db.judge] at h
  split_ifs at h
  · cases h
  · split at h
    · cases h
    · rename_i out' hout
      rw [hout]
      split at h
      · cases h
      · cases h
      · cases h
        rfl

theorem finishAttempt_consistent (h : AllUpToDate env db) (resultId attemptId : String)
    (stored : StoredInvestigation K)
    (hruler : ∀ r, db.result resultId = some r → db.OneRuler r) :
    Ensures (finishAttempt env resultId attemptId stored) db fun _ db' => AllUpToDate env db' := by
  rw [finishAttempt]
  refine (lockRunning_spec h).bind fun ctx db₁ h₁ => ?_
  obtain ⟨rfl, r, a, hrunning⟩ := h₁
  refine (recordMissingRules_spec h.tidy _ _ _ _).bind fun _ db₂ h₂ => ?_
  obtain ⟨hkeeps, htables⟩ := h₂
  have h₃ := h.keepsTables hkeeps
  have hr : db₂.result resultId = some r := by
    rw [htables]
    exact hrunning.result
  have ha : db₂.attempt attemptId = some a := by
    rw [htables]
    exact hrunning.attempt
  refine ensures_bind (ensures_get ?_)
  refine ensures_bind (ensures_lift fun judged hjudged => ?_)
  cases judged with
  | error u =>
    refine (closeUngradable_consistent h₃ hr hrunning.status hrunning.current ha
      hrunning.outcome u (some stored)).bind fun _ db' h' => ensures_pure h'
  | ok p =>
    obtain ⟨out, score⟩ := p
    obtain ⟨session, rubric, hsession, hrubric, rfl⟩ := hrunning.context
    obtain ⟨stored', hstored, hout⟩ := compute_spec (judge_spec hjudged)
    have hsame : stored = stored' := Option.some.inj hstored
    subst hsame
    have hid : a.id = attemptId := rowOf_key ha
    subst hid
    have hrid : r.id = resultId := rowOf_key hrunning.result
    have hsession₂ : db₂.sessionOf r = some session := by
      rw [htables]
      exact hsession
    have hrubric₂ : db₂.rubric r.rubricIdVersion = some rubric := by
      rw [htables]
      exact hrubric
    have hruler₂ : db₂.OneRuler r := by
      rw [htables]
      exact hruler r hrunning.result
    have hout₂ : (db₂.paperInput env r session rubric stored
        (db₂.firstCases session.id)).computeScore = .ok out := by
      rw [← hout, htables]
      rfl
    show Ensures (closeAttempt a.id .graded none (some stored) >>= fun _ => _) db₂ _
    rw [closeAttempt]
    refine ensures_bind (ensures_modify ?_)
    exact writeInitial_consistent h₃ hr hrunning.current ha hsession₂ hrubric₂ hruler₂ hout₂ hrid
      (close_id _ _ _) (if_pos hrunning.outcome) score

end Consistency

end Cine.Grading
