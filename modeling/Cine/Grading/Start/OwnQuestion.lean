import Cine.Grading.Scoring.OwnRuler
import Cine.Grading.Start.StartGrading
import Mathlib.Data.List.Perm.Subperm

/-!
# The question of a started paper

`startGrading` sends a paper to the question that its required file is mapped
to, or to the only question of the session.  The rubric and the bundle that
it checks fall back to question 1 where that question has none of its own,
while `buildContext` later asks the question alone.

`HasOwnRuler` is what a started paper should have.  `startGrading_ownRuler`
says that a refusal leaves every row, and that an accepted session gives
every paper its own ruler exactly when the questions it sends papers to are
set up.
-/

namespace Cine.Grading

open Cine.Lib

variable {K : Type}

/-- The keys and the references that the tables keep. -/
structure IntakeTables.Sound (t : IntakeTables) (db : Db K) (sessionId : String) : Prop where
  problemIds : (db.problems.map ProblemRow.id).Nodup
  submissionIds : (db.submissions.map SubmissionRow.id).Nodup
  deliverableIds : (t.deliverables.map DeliverableRow.id).Nodup
  /-- A paper is handed in for a file of its session. -/
  handedIn : ∀ s ∈ db.submissions, s.sessionId = sessionId →
    ∃ d ∈ t.deliverables, d.sessionId = sessionId ∧ d.id = t.deliverableOf s.id
  /-- A question is mapped to a file of its session. -/
  mappedOwn : ∀ p ∈ db.problems, p.sessionId = sessionId → ∀ id ∈ t.mapped p.id,
    ∃ d ∈ t.deliverables, d.sessionId = sessionId ∧ d.id = id

/-- How `buildContext` ends where the question has no bundle. -/
def noBundle : Ungradable :=
  ⟨.system, "phiên chưa ghim gói test — không có thước để chạy"⟩

/-- The files of a paper are never what `noBundle` is about. -/
def ContextDeps.NeverNoBundle (deps : ContextDeps) : Prop :=
  ∀ bytes name language, deps.sourceFilesOf bytes name language ≠ .error noBundle

/-- The question `q` is the one of the paper `s`: its required file is mapped
to it, or the session has no other question. -/
def IsQuestionOf (t : IntakeTables) (sessionId : String) (db : Db K) (q : ProblemRow)
    (s : SubmissionRow) : Prop :=
  q ∈ db.problemsOf sessionId ∧
    (t.mapped q.id = some (t.deliverableOf s.id) ∨ db.problemsOf sessionId = [q])

/-- In `db'` the paper `s` has one result, for its question, with the rubric
of that question, and with its bundle where it is to be investigated. -/
def HasOwnRuler (t : IntakeTables) (sessionId : String) (db db' : Db K) (s : SubmissionRow) :
    Prop :=
  ∃ r q, (db'.results.filter fun row => row.submissionId = s.id) = [r] ∧
    IsQuestionOf t sessionId db q s ∧ r.problemId = some q.id ∧
    q.rubricId = some r.rubricIdVersion ∧
    (r.pipeline = .investigator → q.testBundleId.isSome ∧
      ∀ deps : ContextDeps, deps.NeverNoBundle →
        db'.buildContext deps r.id ≠ .ok (.error noBundle))

namespace Db

variable (db : Db K) (t : IntakeTables) (sessionId : String)

/-- The questions that papers are sent to have what grading them takes. -/
def QuestionsSetUp : Prop :=
  ∀ s ∈ db.todo t sessionId, ∀ q, db.routeOf t sessionId s = some q →
    q.rubricId.isSome ∧ (pipelineOf t sessionId s = .investigator → q.testBundleId.isSome)

end Db

/-! ## What the checks let through -/

section Checks

variable {db : Db K} {t : IntakeTables} {sessionId : String}

theorem routable_cases (h : db.assertRoutableForGrading t sessionId = .ok ()) :
    (db.problemsOf sessionId).length ≤ 1 ∨
      ((db.problemsOf sessionId).length = t.deliverables.countP fun d => d.sessionId = sessionId) ∧
      (((db.problemsOf sessionId).filterMap fun p => t.mapped p.id).dedup.length =
        t.deliverables.countP fun d => d.sessionId = sessionId) := by
  by_cases hone : (db.problemsOf sessionId).length ≤ 1
  · exact Or.inl hone
  · right
    by_contra hmap
    simp only [Db.assertRoutableForGrading, hone, hmap, and_false, if_false] at h
    split_ifs at h <;> cases h

theorem planStart_cases {plan : StartPlan} (h : db.planStart t sessionId = .ok plan) :
    db.assertRoutableForGrading t sessionId = .ok () ∧
    ∃ cfg, db.resolveProblemConfig sessionId = some cfg ∧ cfg.rubricId = some plan.rubric.id ∧
      plan.problemId = cfg.problemId ∧ plan.todo = db.todo t sessionId ∧
      db.needsBundle t sessionId cfg plan.todo = false := by
  unfold Db.planStart at h
  obtain ⟨u, hroute, h⟩ := bind_eq_ok.1 h
  refine ⟨hroute, ?_⟩
  dsimp only at h
  split at h
  · rename_i cfg hcfg
    split at h
    · rename_i rubricId hid
      split at h
      · rename_i rubric hrubric
        obtain ⟨_, h⟩ := ite_throw_eq_ok.1 h
        obtain ⟨_, _, h⟩ := bind_eq_ok.1 h
        obtain ⟨hbundle, h⟩ := ite_throw_eq_ok.1 h
        cases h
        refine ⟨cfg, hcfg, ?_, rfl, rfl, Bool.eq_false_of_not_eq_true hbundle⟩
        rw [hid, rowOf_key hrubric]
      · cases h
    · cases h
  · cases h

theorem countP_deliverables (t : IntakeTables) (sessionId : String) :
    t.deliverables.countP (fun d => d.sessionId = sessionId) =
      ((t.deliverables.filter fun d => d.sessionId = sessionId).map DeliverableRow.id).length := by
  rw [List.countP_eq_length_filter, List.length_map]

variable {s : SubmissionRow}

theorem routeOf_isSome (hsound : t.Sound db sessionId) (hs : s ∈ db.submissions)
    (hsession : s.sessionId = sessionId)
    (hmap : ((db.problemsOf sessionId).filterMap fun p => t.mapped p.id).dedup.length =
      t.deliverables.countP fun d => d.sessionId = sessionId) :
    (db.routeOf t sessionId s).isSome := by
  have hsub : ((db.problemsOf sessionId).filterMap fun p => t.mapped p.id).dedup ⊆
      (t.deliverables.filter fun d => d.sessionId = sessionId).map DeliverableRow.id := by
    intro id hid
    obtain ⟨p, hp, hpid⟩ := List.mem_filterMap.1 (List.mem_dedup.1 hid)
    obtain ⟨hp, hps⟩ := List.mem_filter.1 hp
    obtain ⟨d, hd, hds, rfl⟩ := hsound.mappedOwn p hp (of_decide_eq_true hps) id hpid
    exact List.mem_map_of_mem (List.mem_filter.2 ⟨hd, decide_eq_true hds⟩)
  have hperm := (List.subperm_of_subset (List.nodup_dedup _) hsub).perm_of_length_le (by
    rw [hmap, countP_deliverables])
  obtain ⟨d, hd, hds, hdid⟩ := hsound.handedIn s hs hsession
  have hmem : t.deliverableOf s.id ∈
      ((db.problemsOf sessionId).filterMap fun p => t.mapped p.id).dedup := by
    rw [hperm.mem_iff, ← hdid]
    exact List.mem_map_of_mem (List.mem_filter.2 ⟨hd, decide_eq_true hds⟩)
  obtain ⟨p, hp, hpid⟩ := List.mem_filterMap.1 (List.mem_dedup.1 hmem)
  rw [Db.routeOf, List.find?_isSome]
  exact ⟨p, List.mem_reverse.2 hp, decide_eq_true hpid⟩

theorem routeOf_some {q : ProblemRow} (h : db.routeOf t sessionId s = some q) :
    q ∈ db.problemsOf sessionId ∧ t.mapped q.id = some (t.deliverableOf s.id) := by
  have hmapped := List.find?_some h
  exact ⟨List.mem_reverse.1 (List.mem_of_find?_eq_some h), of_decide_eq_true hmapped⟩

theorem problemsOf_eq_singleton (hsound : t.Sound db sessionId)
    (hroute : db.assertRoutableForGrading t sessionId = .ok ()) {cfg : ProblemConfig}
    (hcfg : db.resolveProblemConfig sessionId = some cfg) (hs : s ∈ db.submissions)
    (hsession : s.sessionId = sessionId) (hnone : db.routeOf t sessionId s = none) :
    ∃ q, db.problemsOf sessionId = [q] ∧ cfg = q.config := by
  rw [Db.resolveProblemConfig] at hcfg
  obtain ⟨session, _, hcfg⟩ := Option.bind_eq_some_iff.1 hcfg
  obtain ⟨q, hq, rfl⟩ := Option.map_eq_some_iff.1 hcfg
  have hmem : q ∈ db.problemsOf sessionId := by
    have := List.find?_some hq
    exact List.mem_filter.2 ⟨List.mem_of_find?_eq_some hq,
      decide_eq_true (of_decide_eq_true this).1⟩
  rcases routable_cases hroute with hone | ⟨_, hmap⟩
  · obtain ⟨q', hq'⟩ : ∃ q', db.problemsOf sessionId = [q'] :=
      List.length_eq_one_iff.1 (le_antisymm hone (List.length_pos_of_mem hmem))
    rw [hq', List.mem_singleton] at hmem
    exact ⟨q', hq', by rw [hmem]⟩
  · have := routeOf_isSome hsound hs hsession hmap
    rw [hnone] at this
    cases this

end Checks

/-! ## The context of a paper with a bundle -/

section Context

variable {db : Db K} {r : ResultRow} {s : SubmissionRow} {deps : ContextDeps} {resultId : String}

theorem noBundle_head : noBundle.reason.toList.head? = some 'p' := by
  decide

theorem head_append {start : String} {c : Char} (h : start.toList.head? = some c)
    (rest : String) : (start ++ rest).toList.head? = some c := by
  rw [String.toList_append, List.head?_append, h, Option.some_or]

theorem ne_noBundle {reason : String} {c : Char} (hhead : reason.toList.head? = some c)
    (hc : c ≠ 'p') :
    (Except.ok (.error ⟨.system, reason⟩) :
      Except Failure (Except Ungradable (InvestigationContext × List RuleSeen))) ≠
        .ok (.error noBundle) := by
  intro heq
  have hreason : reason = noBundle.reason :=
    congrArg Ungradable.reason (Except.error.inj (Except.ok.inj heq))
  rw [hreason, noBundle_head] at hhead
  exact hc (Option.some.inj hhead).symm

theorem buildContext_ne_noBundle (hdeps : deps.NeverNoBundle) (hr : db.result resultId = some r)
    (hs : db.submission r.submissionId = some s)
    (hbundle : ∀ session, db.session s.sessionId = some session →
      ((db.ownConfig r session.id).bind ProblemConfig.testBundleId).isSome) :
    db.buildContext deps resultId ≠ .ok (.error noBundle) := by
  intro h
  simp only [Db.buildContext, hr, hs, pure, Except.pure] at h
  split at h
  · rename_i session hsession
    have hsome := hbundle session hsession
    split at h
    · split at h
      · split at h
        · split_ifs at h with hstatement
          · rw [String.append_assoc] at h
            apply ne_noBundle (head_append (c := 'đ') _ _) (by decide) h
            decide
          · split at h
            · split at h
              · split at h
                · rename_i u hu
                  cases h
                  exact hdeps _ _ _ hu
                · cases h
              · exact ne_noBundle (c := 'k') (by decide) (by decide) h
            · exact ne_noBundle (c := 'b') (by decide) (by decide) h
        · rename_i hnone
          exact hnone _ (Option.some_get hsome).symm
      · rw [String.append_assoc] at h
        apply ne_noBundle (head_append (c := 'b') _ _) (by decide) h
        decide
    · cases h
  · cases h

end Context

/-! ## The rows that are written -/

section Rows

variable {env : GradingEnv K} {db db' : Db K} {t : IntakeTables} {sessionId : String}
  {queue queue' : List GradeSubmissionJob} {plan : StartPlan}

theorem startGrading_error {e : Failure}
    (h : startGrading env t sessionId db queue = (.error e, db', queue')) :
    db' = db ∧ queue' = queue := by
  unfold startGrading at h
  split at h
  · cases h
    exact ⟨rfl, rfl⟩
  · dsimp only at h
    split_ifs at h
    · cases h
    · cases h
      exact ⟨rfl, rfl⟩

theorem startGrading_ok {a : StartGradingResult}
    (h : startGrading env t sessionId db queue = (.ok a, db', queue')) :
    ∃ plan, db.planStart t sessionId = .ok plan ∧
      ((db.results ++ db.newResults env t sessionId plan).map ResultRow.id).Nodup ∧
      db' = { db with
        results := db.results ++ db.newResults env t sessionId plan
        drawnIds := db.drawnIds + (db.newResults env t sessionId plan).length } := by
  unfold startGrading at h
  split at h
  · cases h
  · rename_i plan hplan
    dsimp only at h
    split_ifs at h with hids
    · cases h
      exact ⟨plan, hplan, hids, rfl⟩
    · cases h

theorem filter_mapIdx {α β κ : Type} [DecidableEq κ] (key : α → κ) (key' : β → κ)
    {f : Nat → α → β} (hkey : ∀ i a, key' (f i a) = key a) {l : List α}
    (hnd : (l.map key).Nodup) {a : α} (ha : a ∈ l) :
    ∃ i, ((l.mapIdx f).filter fun b => key' b = key a) = [f i a] := by
  induction l generalizing f with
  | nil => cases ha
  | cons x l ih =>
    rw [List.map_cons, List.nodup_cons] at hnd
    rw [List.mapIdx_cons, List.filter_cons]
    rcases List.mem_cons.1 ha with rfl | ha
    · refine ⟨0, ?_⟩
      rw [if_pos (decide_eq_true (hkey 0 a)), List.filter_eq_nil_iff.2]
      intro b hb
      obtain ⟨i, hi, rfl⟩ := List.mem_mapIdx.1 hb
      rw [decide_eq_true_eq, hkey]
      exact fun heq => hnd.1 (heq ▸ List.mem_map_of_mem (List.getElem_mem hi))
    · rw [if_neg]
      · obtain ⟨i, hi⟩ := ih (f := fun i => f (i + 1)) (fun i a => hkey (i + 1) a) hnd.2 ha
        exact ⟨i + 1, hi⟩
      · rw [decide_eq_true_eq, hkey]
        exact fun heq => hnd.1 (heq ▸ List.mem_map_of_mem ha)

variable {s : SubmissionRow}

theorem mem_todo (h : s ∈ db.todo t sessionId) :
    s ∈ db.submissions ∧ s.sessionId = sessionId ∧ db.isGraded s = false := by
  obtain ⟨h, hnew⟩ := List.mem_filter.1 h
  obtain ⟨h, hcollected⟩ := List.mem_filter.1 h
  refine ⟨h, (of_decide_eq_true hcollected).1, ?_⟩
  simpa using hnew

variable (env) in
theorem results_of_todo (hsound : t.Sound db sessionId) (htodo : plan.todo = db.todo t sessionId)
    (hs : s ∈ db.todo t sessionId) :
    ∃ id, ((db.results ++ db.newResults env t sessionId plan).filter fun r =>
      r.submissionId = s.id) = [db.newResult t sessionId plan id s] := by
  have hnd : ((db.todo t sessionId).map SubmissionRow.id).Nodup :=
    hsound.submissionIds.sublist
      ((List.filter_sublist.trans List.filter_sublist).map SubmissionRow.id)
  have hold : (db.results.filter fun r => r.submissionId = s.id) = [] := by
    rw [List.filter_eq_nil_iff]
    intro r hr hid
    have hgraded : db.isGraded s = true := List.any_eq_true.2 ⟨r, hr, hid⟩
    rw [(mem_todo hs).2.2] at hgraded
    cases hgraded
  obtain ⟨i, hi⟩ := filter_mapIdx SubmissionRow.id ResultRow.submissionId
    (f := fun i s => db.newResult t sessionId plan (env.uuid (db.drawnIds + i)) s)
    (fun _ _ => rfl) hnd hs
  refine ⟨env.uuid (db.drawnIds + i), ?_⟩
  rw [List.filter_append, hold, List.nil_append, Db.newResults, htodo, hi]

theorem bundle_of_investigator {cfg : ProblemConfig} {todo : List SubmissionRow}
    (h : db.needsBundle t sessionId cfg todo = false) (hs : s ∈ todo)
    (hpipeline : Db.pipelineOf t sessionId s = .investigator) :
    (((db.routeOf t sessionId s).bind ProblemRow.testBundleId).or cfg.testBundleId).isSome := by
  have hinfo : (Db.deliverableInfo t sessionId s).isSome := by
    unfold Db.pipelineOf at hpipeline
    split at hpipeline
    · rename_i d hd
      rw [hd]
      rfl
    · cases hpipeline
  by_contra hnone
  rw [Option.not_isSome_iff_eq_none] at hnone
  have hneeds : db.needsBundle t sessionId cfg todo = true := by
    refine List.any_eq_true.2 ⟨s, hs, ?_⟩
    simp only [hinfo, hpipeline, hnone, decide_true, Bool.and_true, Option.isNone_none]
  rw [h] at hneeds
  cases hneeds

theorem hasOwnRuler_of_row (hsound : t.Sound db sessionId)
    (hids : ((db.results ++ db.newResults env t sessionId plan).map ResultRow.id).Nodup)
    (htodo : plan.todo = db.todo t sessionId) (hsome : (db.session sessionId).isSome)
    (hs : s ∈ db.todo t sessionId) {q : ProblemRow} (hq : IsQuestionOf t sessionId db q s)
    (hproblem : ((db.routeOf t sessionId s).map ProblemRow.id).getD plan.problemId = q.id)
    (hrubric : q.rubricId = some (db.rubricOf t sessionId plan.rubric.id s))
    (hbundle : Db.pipelineOf t sessionId s = .investigator → q.testBundleId.isSome) :
    HasOwnRuler t sessionId db
      { db with
        results := db.results ++ db.newResults env t sessionId plan
        drawnIds := db.drawnIds + (db.newResults env t sessionId plan).length } s := by
  obtain ⟨id, hrow⟩ := results_of_todo env hsound htodo hs
  refine ⟨_, q, hrow, hq, congrArg some hproblem, hrubric, fun hpipeline => ?_⟩
  have hsomeBundle := hbundle hpipeline
  refine ⟨hsomeBundle, fun deps hdeps => ?_⟩
  obtain ⟨hsub, hsession, _⟩ := mem_todo hs
  have hmem : db.newResult t sessionId plan id s ∈
      db.results ++ db.newResults env t sessionId plan := by
    have : db.newResult t sessionId plan id s ∈ [db.newResult t sessionId plan id s] :=
      List.mem_singleton_self _
    rw [← hrow] at this
    exact (List.mem_filter.1 this).1
  apply buildContext_ne_noBundle hdeps (r := db.newResult t sessionId plan id s) (s := s)
  · exact rowOf_of_mem hids hmem
  · exact rowOf_of_mem hsound.submissionIds hsub
  · intro session _
    have hproblemRow : db.problem q.id = some q :=
      rowOf_of_mem hsound.problemIds (List.mem_filter.1 hq.1).1
    have hqs : q.sessionId = sessionId := of_decide_eq_true (List.mem_filter.1 hq.1).2
    obtain ⟨row, hrow⟩ := Option.isSome_iff_exists.1 hsome
    have hconfig : db.resolveProblemConfigByProblem q.id = some q.config := by
      rw [Db.resolveProblemConfigByProblem, hproblemRow, Option.bind_some, hqs, hrow]
      rfl
    have hown : Db.ownConfig
        { db with
          results := db.results ++ db.newResults env t sessionId plan
          drawnIds := db.drawnIds + (db.newResults env t sessionId plan).length }
        (db.newResult t sessionId plan id s) session.id = some q.config := by
      rw [← hconfig, ← hproblem]
      rfl
    rw [hown]
    exact hsomeBundle

end Rows

/-! ## When a started paper has its own ruler -/

/-- A refused start leaves the rows and the queue.  An accepted one gives
every paper that it queues one result, for the question of the paper and
with the rubric and the bundle of that question, exactly when the questions
that papers are sent to are set up. -/
theorem startGrading_ownRuler (env : GradingEnv K) (t : IntakeTables) (sessionId : String)
    (db db' : Db K) (queue queue' : List GradeSubmissionJob)
    (answer : Except Failure StartGradingResult) (hsound : t.Sound db sessionId)
    (h : startGrading env t sessionId db queue = (answer, db', queue')) :
    (∀ e, answer = .error e → db' = db ∧ queue' = queue) ∧
    (∀ a, answer = .ok a →
      ((∀ s ∈ db.todo t sessionId, HasOwnRuler t sessionId db db' s) ↔
        db.QuestionsSetUp t sessionId)) := by
  refine ⟨fun e he => startGrading_error (he ▸ h), fun a ha => ?_⟩
  obtain ⟨plan, hplan, hids, rfl⟩ := startGrading_ok (ha ▸ h)
  obtain ⟨hroutable, cfg, hcfg, hrubricId, hproblemId, htodo, hneeds⟩ := planStart_cases hplan
  constructor
  · intro hown s hs q hq
    obtain ⟨r, q', hrow, hq', hproblem, hrubric, hbundle⟩ := hown s hs
    obtain ⟨id, hrow'⟩ := results_of_todo env hsound htodo hs
    have hr : r = db.newResult t sessionId plan id s := by
      have := hrow.symm.trans hrow'
      exact (List.cons.inj this).1
    have hid : q'.id = q.id := by
      rw [hr, Db.newResult, hq] at hproblem
      exact (Option.some.inj hproblem).symm
    have heq : q' = q :=
      List.inj_on_of_nodup_map hsound.problemIds (List.mem_filter.1 hq'.1).1
        (List.mem_filter.1 (routeOf_some hq).1).1 hid
    rw [← heq]
    refine ⟨by rw [hrubric]; rfl, fun hpipeline => ?_⟩
    exact (hbundle (by rw [hr]; exact hpipeline)).1
  · intro hsetUp s hs
    have hsession : (db.session sessionId).isSome := by
      rw [Db.resolveProblemConfig] at hcfg
      obtain ⟨row, hrow, _⟩ := Option.bind_eq_some_iff.1 hcfg
      rw [hrow]
      rfl
    cases hroute : db.routeOf t sessionId s with
    | some q =>
      obtain ⟨hsome, hbundle⟩ := hsetUp s hs q hroute
      obtain ⟨rubricId, hrubric⟩ := Option.isSome_iff_exists.1 hsome
      obtain ⟨hmem, hmapped⟩ := routeOf_some hroute
      apply hasOwnRuler_of_row hsound hids htodo hsession hs ⟨hmem, Or.inl hmapped⟩
      · rw [hroute]
        rfl
      · rw [Db.rubricOf, hroute, Option.bind_some, hrubric]
        rfl
      · exact hbundle
    | none =>
      obtain ⟨hsub, hsid, _⟩ := mem_todo hs
      obtain ⟨q, honly, rfl⟩ := problemsOf_eq_singleton hsound hroutable hcfg hsub hsid hroute
      have hmem : q ∈ db.problemsOf sessionId := by
        rw [honly]
        exact List.mem_singleton_self q
      apply hasOwnRuler_of_row hsound hids htodo hsession hs ⟨hmem, Or.inr honly⟩
      · rw [hroute]
        exact hproblemId
      · rw [Db.rubricOf, hroute]
        exact hrubricId
      · intro hpipeline
        have hbundle := bundle_of_investigator hneeds (htodo ▸ hs) hpipeline
        rw [hroute] at hbundle
        exact hbundle

/-! ## A question without a bundle -/

/-- A confirmed session with two questions, one file for each, and a paper
of question 2. -/
def twoFiles (secondBundle : Option String) : Db ℚ :=
  { sessions := [⟨"s1", "Giữa kỳ", "seed", none, true, some "b1"⟩]
    problems :=
      [⟨"q1", "s1", 1, some "Tính tổng", 100, some "rb1", some "b1"⟩,
        ⟨"q2", "s1", 2, some "Tính tích", 100, some "rb2", secondBundle⟩]
    submissions := [⟨"sub", "s1", "SV01", some "key", "bai2.cpp", some "cpp"⟩]
    bundles := [⟨"b1", "s1", "q1", true⟩, ⟨"b2", "s1", "q2", true⟩]
    cases := []
    rubrics :=
      [⟨"rb1", "Câu 1", 1, [⟨"correctness", 100⟩]⟩, ⟨"rb2", "Câu 2", 1, [⟨"correctness", 100⟩]⟩]
    rules := []
    rubricErrors := []
    priceVersions := []
    waivers := []
    sightings := []
    results := []
    attempts := []
    computations := []
    reviews := []
    auditLog := []
    openBreakerRuleKeys := []
    noErrorBreakerOpen := false
    drawnIds := 0 }

def twoFilesIntake : IntakeTables :=
  { deliverables :=
      [⟨"d1", "s1", "bai1.cpp", .codeProject, some .cpp⟩,
        ⟨"d2", "s1", "bai2.cpp", .codeProject, some .cpp⟩]
    mapped := fun id => if id = "q1" then some "d1" else some "d2"
    deliverableOf := fun _ => "d2"
    collected := fun _ => true }

theorem twoFiles_sound (secondBundle : Option String) :
    twoFilesIntake.Sound (twoFiles secondBundle) "s1" where
  problemIds := (by decide : ["q1", "q2"].Nodup)
  submissionIds := List.nodup_singleton "sub"
  deliverableIds := by decide
  handedIn := by
    intro s hs _
    rw [List.mem_singleton.1 hs]
    decide
  mappedOwn := by
    have h : ∀ id ∈ ["q1", "q2"], ∀ file ∈ twoFilesIntake.mapped id,
        ∃ d ∈ twoFilesIntake.deliverables, d.sessionId = "s1" ∧ d.id = file := by
      decide
    intro p hp _
    refine h p.id ?_
    exact List.mem_map_of_mem (f := ProblemRow.id) hp

theorem ok_of_toOption {α : Type} {x : Except Failure α} {a : α} (h : x.toOption = some a) :
    x = .ok a := by
  cases x with
  | error e => cases h
  | ok b => exact congrArg Except.ok (Option.some.inj h)

/-- Both questions have a bundle, and the paper has the one of its own. -/
theorem twoFiles_ownRuler :
    (twoFiles (some "b2")).todo twoFilesIntake "s1" ≠ [] ∧
      ∀ s ∈ (twoFiles (some "b2")).todo twoFilesIntake "s1",
        HasOwnRuler twoFilesIntake "s1" (twoFiles (some "b2"))
          (startGrading plainEnv twoFilesIntake "s1" (twoFiles (some "b2")) []).2.1 s := by
  have hanswer : (startGrading plainEnv twoFilesIntake "s1" (twoFiles (some "b2")) []).1 =
      .ok ⟨"rb1", 1, 1, 0⟩ := ok_of_toOption (by decide)
  have hsetUp : (twoFiles (some "b2")).QuestionsSetUp twoFilesIntake "s1" := by
    have h : ∀ s ∈ (twoFiles (some "b2")).todo twoFilesIntake "s1",
        ∀ q ∈ (twoFiles (some "b2")).routeOf twoFilesIntake "s1" s,
          q.rubricId.isSome ∧ q.testBundleId.isSome := by
      decide
    exact fun s hs q hq => ⟨(h s hs q hq).1, fun _ => (h s hs q hq).2⟩
  exact ⟨by decide,
    ((startGrading_ownRuler plainEnv twoFilesIntake "s1" (twoFiles (some "b2")) _ [] _ _
      (twoFiles_sound _) rfl).2 _ hanswer).2 hsetUp⟩

/-- Question 2 has no bundle and question 1 has one: the paper of question 2
is queued, and its context ends for want of a bundle. -/
theorem unpinned_question_queued :
    (startGrading plainEnv twoFilesIntake "s1" (twoFiles none) []).1.toOption =
        some ⟨"rb1", 1, 1, 0⟩ ∧
      (startGrading plainEnv twoFilesIntake "s1" (twoFiles none) []).2.1.results.map
        (fun r => (r.id, r.problemId, r.rubricIdVersion, r.pipeline)) =
          [("id-", some "q2", "rb2", .investigator)] ∧
      (((startGrading plainEnv twoFilesIntake "s1" (twoFiles none) []).2.1.buildContext
          plainDeps "id-").toOption.map fun built =>
        match built with
        | .error u => some u
        | .ok _ => none) = some (some noBundle) ∧
      ¬ ∀ (env : GradingEnv ℚ) (t : IntakeTables) (sessionId : String) (db db' : Db ℚ)
          (queue queue' : List GradeSubmissionJob) (a : StartGradingResult),
          t.Sound db sessionId →
          startGrading env t sessionId db queue = (.ok a, db', queue') →
          ∀ s ∈ db.todo t sessionId, HasOwnRuler t sessionId db db' s := by
  refine ⟨by decide, by decide, by decide, fun h => ?_⟩
  have hanswer : (startGrading plainEnv twoFilesIntake "s1" (twoFiles none) []).1 =
      .ok ⟨"rb1", 1, 1, 0⟩ := ok_of_toOption (by decide)
  have hpaper : ⟨"sub", "s1", "SV01", some "key", "bai2.cpp", some "cpp"⟩ ∈
      (twoFiles none).todo twoFilesIntake "s1" := by
    decide
  have hrun : startGrading plainEnv twoFilesIntake "s1" (twoFiles none) [] =
      (.ok ⟨"rb1", 1, 1, 0⟩,
        (startGrading plainEnv twoFilesIntake "s1" (twoFiles none) []).2.1,
        (startGrading plainEnv twoFilesIntake "s1" (twoFiles none) []).2.2) :=
    Prod.ext hanswer rfl
  obtain ⟨r, q, hrow, hq, hproblem, _, hbundle⟩ :=
    h _ _ _ _ _ _ _ _ (twoFiles_sound none) hrun _ hpaper
  have hr : r.problemId = some "q2" ∧ r.pipeline = .investigator := by
    have hall : ∀ row ∈ (startGrading plainEnv twoFilesIntake "s1" (twoFiles none) []).2.1.results,
        row.problemId = some "q2" ∧ row.pipeline = .investigator := by
      decide
    refine hall r (List.mem_of_mem_filter (p := fun row => row.submissionId = "sub") ?_)
    rw [hrow]
    exact List.mem_singleton_self r
  have hnone : ∀ q ∈ (twoFiles none).problemsOf "s1", q.id = "q2" → q.testBundleId = none := by
    decide
  have hid : q.id = "q2" := Option.some.inj (hproblem.symm.trans hr.1)
  have hsome := (hbundle hr.2).1
  rw [hnone q hq.1 hid] at hsome
  cases hsome

end Cine.Grading
