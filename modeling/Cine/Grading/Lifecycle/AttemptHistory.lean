import Cine.Grading.Lifecycle.FileMoves
import Cine.Grading.Sampling.SplitStudents

/-!
# The history of the attempts

Jobs resume the attempts of each other, work that was given up ends late,
and a handler closes attempts from outside.  In whatever order they come,
the attempts of a paper are one consistent history: `one_history`.
-/

namespace Cine.Grading

open Cine.Lib

variable {K : Type} [Number K] {env : GradingEnv K} {trips : Nat → Nat → Bool}

/-- Some tables score an investigation like this. -/
def ScoredOnce (env : GradingEnv K) (stored : StoredInvestigation K) (out : ScoreCoreOutput K) :
    Prop :=
  ∃ db : Db K, db.Scores env stored out

/-- What the attempts and the score of the machine of a paper are at any
time. -/
structure Db.HistoryOf (db : Db K) (env : GradingEnv K) (r : ResultRow) : Prop where
  ids : ((db.file r).attempts.map AttemptRow.id).Nodup
  /-- At most one attempt has no outcome. -/
  running : ∀ a ∈ (db.file r).attempts, ∀ b ∈ (db.file r).attempts,
    a.outcome = none → b.outcome = none → a = b
  /-- The attempts are numbered from 1 on. -/
  numbers : (db.file r).attempts.map AttemptRow.attemptNo =
    List.range' 1 (db.file r).attempts.length
  /-- The score of the machine is that of the only first computation, which
  is computed from what the current attempt has stored. -/
  score : ∀ score, r.aiTotalScore = some score → ∃ a ∈ (db.file r).attempts, ∃ c stored out,
    r.currentAttemptId = some a.id ∧ a.outcome = some .graded ∧ a.investigation = some stored ∧
      (db.file r).computations.filter (fun c => c.reason = .initial) = [c] ∧
        c.attemptId = a.id ∧ c.score = some score ∧ ScoredOnce env stored out ∧
          c.score = out.scoreHundredths ∧ c.breakdown = out.breakdown

/-- Every paper stays with its attempts that have ended and with the score
of the machine. -/
def KeepsHistory (db db' : Db K) : Prop :=
  ∀ r ∈ db.results, ∃ r' ∈ db'.results, (db.file r).Follows (db'.file r')

/-- Papers are enlisted, and nothing is known of them. -/
structure Db.Enlisted (db : Db K) : Prop where
  linked : Linked db
  new : ∀ r ∈ db.results, r.IsNew
  attempts : db.attempts = []
  computations : db.computations = []
  unmarked : ∀ id, db.hasManualScore id = false

/-! ## Steps -/

section Steps

variable {scores : StoredInvestigation K → ScoreCoreOutput K → Prop} {db db' db'' : Db K}

omit [Number K] in
theorem KeepsHistory.refl (db : Db K) : KeepsHistory db db := fun r hr => ⟨r, hr, .refl _⟩

omit [Number K] in
theorem KeepsHistory.trans (h : KeepsHistory db db') (h' : KeepsHistory db' db'') :
    KeepsHistory db db'' := by
  intro r hr
  obtain ⟨r', hr', hfollows⟩ := h r hr
  obtain ⟨r'', hr'', hfollows'⟩ := h' r' hr'
  exact ⟨r'', hr'', hfollows.trans hfollows'⟩

omit [Number K] in
theorem Refiled.keepsHistory (h : Refiled scores db db') (hf : Filed scores db) :
    KeepsHistory db db' := by
  obtain ⟨g, rows, hrows, hmove, _⟩ := h
  intro r hr
  refine ⟨g r, ?_, (hmove r hr).follows (hf.files r hr)⟩
  rw [hrows]
  exact List.mem_append_left _ (List.mem_map_of_mem hr)

omit [Number K] in
theorem Db.Enlisted.filed (h : db.Enlisted) : Filed scores db := by
  refine ⟨h.linked, ?_, fun r hr => ?_⟩
  · rw [h.attempts]
    exact List.nodup_nil
  · have hfile : db.file r = ⟨r, [], [], false⟩ := by
      rw [Db.file, h.attempts, h.computations, h.unmarked]
      rfl
    rw [hfile]
    exact sound_new (h.new r hr)

/-- The tables are filed, and nothing of the history before is lost. -/
def Continues (env : GradingEnv K) (db db' : Db K) : Prop :=
  Filed (ScoredOnce env) db → Filed (ScoredOnce env) db' ∧ KeepsHistory db db'

theorem Continues.trans (h : Continues env db db') (h' : Continues env db' db'') :
    Continues env db db'' := by
  intro hf
  obtain ⟨hf', hkeeps⟩ := h hf
  obtain ⟨hf'', hkeeps'⟩ := h' hf'
  exact ⟨hf'', hkeeps.trans hkeeps'⟩

theorem Change.continues (h : Change env db db') : Continues env db db' := by
  intro hf
  have himp : ∀ stored out, db.Scores env stored out → ScoredOnce env stored out :=
    fun _ _ hscores => ⟨db, hscores⟩
  exact ⟨h.filed himp hf, ((h.refiled hf.linked hf.attemptIds).mono himp).keepsHistory hf⟩

theorem Changes.continues (h : Changes env db db') : Continues env db db' := by
  induction h with
  | refl => exact fun hf => ⟨hf, .refl db⟩
  | tail _ hc ih => exact ih.trans hc.continues

theorem continues_toppedUp (db : Db K) (sessionId : String) :
    Continues env db (db.toppedUp env sessionId) :=
  fun hf => ⟨hf.toppedUp env sessionId, (toppedUp_refiled _ _ _ _).keepsHistory hf⟩

theorem continues_view (s : AuditDb K) : Continues env s.db s.view :=
  (Change.breakers s.openBreakerRuleKeys (s.isOpen .noError)).continues

theorem continues_of_view {s s' : AuditDb K} (h : Continues env s.db s'.view) :
    Continues env s.db s'.db := by
  intro hf
  obtain ⟨hf', hkeeps⟩ := h hf
  exact ⟨⟨⟨hf'.linked.ids, hf'.linked.submissions, hf'.linked.papers, hf'.linked.current,
    hf'.linked.attempts, hf'.linked.computations, hf'.linked.manual⟩, hf'.attemptIds, hf'.files⟩,
    hkeeps⟩

end Steps

/-! ## Runs -/

theorem Move.continues (m : Move K) (s : AuditDb K) :
    Continues env s.db (m.run env trips s).db := by
  have hchanges (s : AuditDb K) (m : Move K) (hm : m.samples = false) :
      Continues env s.db (m.run env trips s).db := fun hf =>
    (Move.changes hf.linked hm).continues hf
  have htopUp (s : AuditDb K) (sessionId : String) :
      Continues env s.db ((Move.topUp sessionId).run env trips s).db := by
    intro hf
    rw [run_topUp hf.linked]
    exact (continues_view s).trans (continues_toppedUp _ sessionId) hf
  cases hm : m.samples with
  | false => exact hchanges s m hm
  | true =>
    cases m with
    | topUp sessionId => exact htopUp s sessionId
    | operation op =>
      cases op with
      | finishAttempt resultId attemptId stored =>
        intro hf
        have hconclude := hchanges s (.concludeAttempt resultId attemptId stored) rfl
        refine continues_of_view (s := s) ?_ hf
        rcases @run_finishAttempt _ _ env trips s hf.linked resultId attemptId stored
          with hsame | ⟨sessionId, htop⟩
        · rw [hsame]
          exact hconclude.trans (continues_view _)
        · rw [htop]
          exact (hconclude.trans (htopUp _ sessionId)).trans (continues_view _)
      | _ => cases hm
    | _ => cases hm

theorem Filed.history {db : Db K} (hf : Filed (ScoredOnce env) db) {r : ResultRow}
    (hr : r ∈ db.results) (hpipeline : r.pipeline = .investigator) : db.HistoryOf env r := by
  have hs := hf.files r hr
  refine ⟨hs.ids, fun a ha b hb hopen hopen' => ?_, hs.numbers, fun score hscore => ?_⟩
  · have hcurrent := (hs.running hpipeline a ha hopen).1
    rw [(hs.running hpipeline b hb hopen').1] at hcurrent
    exact List.inj_on_of_nodup_map hs.ids ha hb (Option.some.inj hcurrent).symm
  · by_cases hgraded : ∃ a ∈ (db.file r).attempts, a.outcome = some .graded
    · obtain ⟨a, ha, hgraded⟩ := hgraded
      obtain ⟨c, hc⟩ := hs.graded a ha hgraded
      obtain ⟨stored, out, hstored, hscores, hscore', hbreakdown⟩ := hc.computed
      exact ⟨a, ha, c, stored, out, hc.current, hgraded, hstored, hc.initial, hc.attempt,
        hc.score.symm.trans hscore, hscores, hscore', hbreakdown⟩
    · have hnot : ∀ a ∈ (db.file r).attempts, a.outcome ≠ some .graded :=
        fun a ha ha' => hgraded ⟨a, ha, ha'⟩
      have hnone : r.aiTotalScore = none := (hs.ungraded hnot).2 hpipeline
      rw [hnone] at hscore
      cases hscore

section Run

variable {start s s' : AuditDb K}

theorem Reach.continues
    (h : Reach (fun s m => Move.run env trips s m) (fun _ _ => True) start s) :
    Continues env start.db s.db := by
  induction h with
  | start => exact fun hf => ⟨hf, .refl _⟩
  | move m _ _ ih => exact ih.trans (m.continues _)

/-- In every order of the moves every investigated paper has one history,
and from one state to a later one the attempts that have ended and the score
of the machine stay what they are. -/
theorem one_history (hstart : start.db.Enlisted)
    (hrun : Reach (fun s m => Move.run env trips s m) (fun _ _ => True) start s)
    (hlater : Reach (fun s m => Move.run env trips s m) (fun _ _ => True) s s') :
    (∀ r ∈ s.db.results, r.pipeline = .investigator → s.db.HistoryOf env r) ∧
      KeepsHistory s.db s'.db := by
  have hf : Filed (ScoredOnce env) s.db := (Reach.continues hrun hstart.filed).1
  exact ⟨fun r hr hpipeline => hf.history hr hpipeline, (Reach.continues hlater hf).2⟩

end Run

theorem oneStudent_enlisted : oneStudent.Enlisted :=
  ⟨oneStudent_linked, oneStudent_new, rfl, rfl, fun _ => rfl⟩

/-- The state after a list of moves on the papers of one student. -/
def historyAfter (moves : List (Move ℚ)) : AuditDb ℚ :=
  moves.foldl (fun s m => Move.run sampledEnv (fun _ _ => false) s m) (noAudits oneStudent)

/-- A paper whose first attempt ends without a score, and whose second one
is still running when the job before it ends. -/
def abandonedJob : List (Move ℚ) :=
  FirstRun.latePaper.take 7 ++
    [.operation (.finishAttempt "r2" "id-" edgeInvestigation),
      .operation (.finishAttempt "r2" "id-xxx" edgeInvestigation)]

/-- The work of the first attempt is thrown away, and the second one gives
the only score. -/
theorem one_history_of_abandonedJob :
    ((historyAfter abandonedJob).db.attempts.map fun a => (a.gradingResultId, a.attemptNo, a.outcome)) =
        [("r2", 1, some .ungradable), ("r1", 1, some .graded), ("r2", 2, some .graded)] ∧
      (∀ r ∈ (historyAfter abandonedJob).db.results, r.pipeline = .investigator →
        (historyAfter abandonedJob).db.HistoryOf sampledEnv r) ∧
          KeepsHistory (historyAfter abandonedJob).db (historyAfter abandonedJob).db :=
  ⟨by decide +kernel, one_history oneStudent_enlisted
    (reach_foldl (by simp [AllAllowed, abandonedJob, FirstRun.latePaper])) .start⟩

end Cine.Grading
