import Cine.Grading.Lifecycle.Stages

/-!
# Promoted papers and the sample

A paper that the machine flagged and that a recomputation then promoted is
meant to stay out of the sample, which is drawn at the first decision only.
A top-up does not know which papers were promoted: `promoted_is_drawn` is a
run in which it draws one.  In a run in which no promoted paper is due when
a session is topped up, none is ever sampled.
-/

namespace Cine.Grading

open Cine.Lib

/-! ## Stages -/

/-- The stages of a promoted paper. -/
structure Stage.Spared (s : Stage) : Prop where
  reason : s.ungradable = none
  unsampled : s.auditSampled = false
  decided : s.status ∉ [ResultStatus.aiGrading, .aiGraded, .auditPending]

variable {drawn : Bool} {s s' : Stage}

theorem StageMove.spared (h : StageMove drawn s s') (hs : s.Spared) : s'.Spared := by
  obtain ⟨hreason, hunsampled, hdecided⟩ := hs
  cases h with
  | stay => exact ⟨hreason, hunsampled, hdecided⟩
  | decided auto status => simp [status] at hdecided
  | failed u status => simp [status] at hdecided
  | oneShotScored status => simp [status] at hdecided
  | oneShotFlagged status => simp [status] at hdecided
  | promoted status reason => exact ⟨hreason, hunsampled, by simp⟩
  | demoted status => exact ⟨hreason, hunsampled, by simp⟩
  | dropped status => simp [status] at hdecided
  | reviewed status => exact ⟨hreason, hunsampled, by simp⟩
  | published status => exact ⟨hreason, hunsampled, by simp⟩
  | requeued status reason => simp [hreason] at reason

/-! ## Runs with their promotions -/

/-- The tables, and the papers that were promoted so far. -/
structure Watched (K : Type) where
  tables : AuditDb K
  promoted : List String

/-- The papers that were flagged before a move and are approved after it. -/
def promotedBy {K : Type} (db db' : Db K) : List String :=
  (db.results.filter fun r => r.status = .flaggedForReview ∧
    (db'.result r.id).any fun r' => r'.status = .autoApproved).map ResultRow.id

namespace Watched

variable {K : Type} [Number K] {env : GradingEnv K} {trips : Nat → Nat → Bool} {w : Watched K}

def step (env : GradingEnv K) (trips : Nat → Nat → Bool) (w : Watched K) (m : Move K) :
    Watched K where
  tables := m.run env trips w.tables
  promoted := w.promoted ++ promotedBy w.tables.db (m.run env trips w.tables).db

/-- The condition on a move: a session is topped up while no promoted paper
is due.  The end of an attempt is its two halves. -/
def Spares (env : GradingEnv K) (w : Watched K) : Move K → Prop
  | .topUp sessionId => ∀ r ∈ w.tables.db.results, r.id ∈ w.promoted →
      r.status = .autoApproved → w.tables.db.isDue env sessionId r = false
  | .operation op => op.isFinish = false
  | _ => True

/-- Papers are enlisted and nothing of them is graded. -/
structure Starts (w : Watched K) : Prop where
  linked : Linked w.tables.db
  new : ∀ r ∈ w.tables.db.results, r.IsNew
  promoted : w.promoted = []

/-- What every run keeps of the tables and of the papers promoted so far. -/
structure Kept {K : Type} (promoted : List String) (db : Db K) : Prop where
  linked : Linked db
  sound : ∀ r ∈ db.results, r.stage.Sound
  promoted : ∀ id ∈ promoted, ∃ r, db.result id = some r ∧ r.stage.Spared

omit [Number K] in
theorem Starts.kept (h : w.Starts) : Kept w.promoted w.tables.db := by
  refine ⟨h.linked, fun r hr => sound_of_new (h.new r hr), fun id hid => ?_⟩
  rw [h.promoted] at hid
  cases hid

theorem Kept.changes {promoted : List String} {db db' : Db K} (h : Kept promoted db)
    (hc : Changes env db db') : Kept promoted db' := by
  induction hc with
  | refl => exact h
  | tail _ hc ih =>
    have hl := hc.linked ih.linked
    have hrestaged := hc.restaged ih.linked
    refine ⟨hl, hrestaged.sound ih.sound, fun id hid => ?_⟩
    obtain ⟨r, hr, hspared⟩ := ih.promoted id hid
    obtain ⟨r', hr', hmove⟩ := hrestaged.result hl hr
    exact ⟨r', hr', hmove.stage.spared hspared⟩

theorem Kept.topUp (h : Kept w.promoted w.tables.db) {sessionId : String}
    (hspares : w.Spares env (.topUp sessionId)) :
    Kept w.promoted (w.tables.view.toppedUp env sessionId) := by
  have hl := h.linked.view.toppedUp env sessionId
  refine ⟨hl, fun r hr => ?_, fun id hid => ?_⟩
  · obtain ⟨r₀, hr₀, rfl⟩ := List.mem_map.1 hr
    split_ifs
    · exact sound_drawn (h.sound r₀ hr₀)
    · exact h.sound r₀ hr₀
  · obtain ⟨r, hr, hspared⟩ := h.promoted id hid
    refine ⟨r, ?_, hspared⟩
    have hrid : r.id = id := rowOf_key hr
    have hmem : r ∈ w.tables.db.results := mem_of_rowOf hr
    have hkept : (if w.tables.view.isDue env sessionId r then r.drawn else r) = r := by
      by_cases hauto : r.status = .autoApproved
      · rw [if_neg]
        exact Bool.eq_false_iff.1 (hspares r hmem (hrid ▸ hid) hauto)
      · rw [drawn_of_ne hauto, ite_self]
    rw [← hrid]
    refine result_of_mem hl.ids ?_
    exact hkept ▸ List.mem_map_of_mem hmem

theorem Kept.move (h : Kept w.promoted w.tables.db) {m : Move K} (hspares : w.Spares env m) :
    Kept w.promoted (m.run env trips w.tables).db := by
  have hchanges (hm : m.samples = false) : Kept w.promoted (m.run env trips w.tables).db :=
    h.changes (Move.changes h.linked hm)
  cases m with
  | topUp sessionId =>
    rw [run_topUp h.linked]
    exact h.topUp hspares
  | operation op => exact hchanges hspares
  | startGrading => exact hchanges rfl
  | concludeAttempt => exact hchanges rfl
  | writeOneShotScore => exact hchanges rfl
  | writeOneShotFlag => exact hchanges rfl
  | review => exact hchanges rfl
  | recordAudit => exact hchanges rfl
  | reset => exact hchanges rfl

theorem Kept.step (h : Kept w.promoted w.tables.db) {m : Move K} (hspares : w.Spares env m) :
    Kept (w.step env trips m).promoted (w.step env trips m).tables.db := by
  have hkept : Kept w.promoted (m.run env trips w.tables).db := h.move hspares
  refine ⟨hkept.linked, hkept.sound, fun id hid => ?_⟩
  rcases List.mem_append.1 hid with hid | hid
  · exact hkept.promoted id hid
  · obtain ⟨r, hr, rfl⟩ := List.mem_map.1 hid
    obtain ⟨r', hr', happroved⟩ :=
      (Option.any_eq_true _ _).1 (of_decide_eq_true (List.mem_filter.1 hr).2).2
    have hstatus : r'.stage.status = .autoApproved := of_decide_eq_true happroved
    have hsound := hkept.sound r' (mem_of_rowOf hr')
    refine ⟨r', hr', hsound.approved ?_, hsound.unsampled ?_, ?_⟩
    · simp [hstatus]
    · simp [hstatus]
    · simp [hstatus]

variable {start : Watched K}

/-- In a run whose top-ups find no promoted paper due, no promoted paper is
ever sampled. -/
theorem promoted_unsampled (hstart : start.Starts)
    (hrun : Reach (step env trips) (Spares env) start w) :
    ∀ r ∈ w.tables.db.results, r.id ∈ w.promoted → r.auditSampled = false := by
  have hkept : Kept w.promoted w.tables.db :=
    hrun.invariant (I := fun w => Kept w.promoted w.tables.db) hstart.kept
      fun _ _ h hspares => h.step hspares
  intro r hr hid
  obtain ⟨r', hr', hspared⟩ := hkept.promoted r.id hid
  rw [result_of_mem hkept.linked.ids hr] at hr'
  rw [Option.some.inj hr']
  exact hspared.unsampled

end Watched

/-! ## A rule that gets its price between two papers -/

/-- A session of a question with a rule that has no price, and the papers of
two students before grading. -/
def unpricedRule : Db ℚ :=
  { twoQuestions with
    submissions :=
      [⟨"sub1", "s1", "SV01", some "key1", "main.cpp", some "cpp"⟩,
        ⟨"sub2", "s1", "SV02", some "key2", "main.cpp", some "cpp"⟩]
    cases :=
      [⟨"b1", "sum-1", "basic", "1 2", "3", none⟩, ⟨"b1", "sum-2", "edge", "0 0", "0", none⟩]
    rules :=
      [⟨"rule", "wrong-sum", .active, .teacher,
        ⟨"rev", 1, "Sai tổng", "Tổng sai", some (.testGroupFailed "edge")⟩⟩]
    rubricErrors := [⟨"row", "Nhập môn", "rule", "correctness", false⟩]
    results :=
      [{ secondPaper with
          id := "r1", submissionId := "sub1", problemId := some "q1", currentAttemptId := none },
        { secondPaper with
          submissionId := "sub2", problemId := some "q1", currentAttemptId := none }]
    attempts := [] }

/-- An investigation in which one of two cases fails. -/
def edgeInvestigation : StoredInvestigation ℚ :=
  { result := { cleanPaper.result with
      investigation := { cleanPaper.result.investigation with
        structuredResults :=
          [("tc-1", .runTests none
            [⟨"sum-1", some "basic", .pass⟩, ⟨"sum-2", some "edge", .fail⟩])] } }
    rulesSeen := []
    ruleTable := []
    modelCeiling := 0.5
    challenge := none }

/-- Five of a hundred students are drawn, none of these, and two of a session
at least. -/
def sampledEnv : GradingEnv ℚ :=
  { plainEnv with
    samplingEnabled := true
    samplingPercent := 5
    auditMinPerSession := 2
    auditBucket := fun _ _ => 9999 }

/-- The tables of the audit before the first audit. -/
def noAudits (db : Db ℚ) : AuditDb ℚ := ⟨db, [], [], [], []⟩

theorem unpricedRule_new : ∀ r ∈ unpricedRule.results, r.IsNew := by
  intro r hr
  rcases List.mem_pair.1 hr with rfl | rfl
  · exact ⟨rfl, rfl, rfl, rfl, rfl⟩
  · exact ⟨rfl, rfl, rfl, rfl, rfl⟩

theorem unpricedRule_linked : Linked unpricedRule :=
  linked_of_new (by decide) (by decide) (by decide) unpricedRule_new rfl rfl rfl

namespace Watched

theorem unpricedRule_starts : Starts ⟨noAudits unpricedRule, []⟩ :=
  ⟨unpricedRule_linked, unpricedRule_new, rfl⟩

/-- The first paper is flagged, and promoted when the rule gets its price. -/
def promotion : List (Move ℚ) :=
  [.operation (.startAttempt "r1"), .concludeAttempt "r1" "id-" edgeInvestigation,
    .operation (.setPrice "row" (some 20)), .topUp "s1"]

/-- The second paper ends, and the session is topped up. -/
def lastPaper : List (Move ℚ) :=
  [.operation (.startAttempt "r2"), .operation (.finishAttempt "r2" "id-xxxx" edgeInvestigation)]

/-- The state after a list of moves. -/
def after (moves : List (Move ℚ)) : Watched ℚ :=
  moves.foldl (step sampledEnv fun _ _ => false) ⟨noAudits unpricedRule, []⟩

instance {K : Type} (env : GradingEnv K) (w : Watched K) (m : Move K) :
    Decidable (w.Spares env m) :=
  match m with
  | .topUp sessionId => inferInstanceAs (Decidable (∀ r ∈ w.tables.db.results, r.id ∈ w.promoted →
      r.status = .autoApproved → w.tables.db.isDue env sessionId r = false))
  | .operation op => inferInstanceAs (Decidable (op.isFinish = false))
  | .startGrading .. => .isTrue trivial
  | .concludeAttempt .. => .isTrue trivial
  | .writeOneShotScore .. => .isTrue trivial
  | .writeOneShotFlag .. => .isTrue trivial
  | .review .. => .isTrue trivial
  | .recordAudit .. => .isTrue trivial
  | .reset .. => .isTrue trivial

/-- While the second paper is being graded no sample is taken. -/
theorem promoted_unsampled_while_busy :
    "r1" ∈ (after promotion).promoted ∧
      ∀ r ∈ (after promotion).tables.db.results, r.id ∈ (after promotion).promoted →
        r.auditSampled = false :=
  ⟨by decide +kernel, promoted_unsampled unpricedRule_starts (reach_foldl (by decide +kernel))⟩

/-- The top-up at the end of the second paper draws the promoted one. -/
theorem promoted_is_drawn :
    (after (promotion ++ lastPaper)).promoted = ["r1"] ∧
      ((after (promotion ++ lastPaper)).tables.db.result "r1").map (fun r =>
        (r.status, r.auditSampled)) = some (.auditPending, true) ∧
      ¬ ∀ (env : GradingEnv ℚ) (trips : Nat → Nat → Bool) (start w : Watched ℚ),
        start.Starts → Reach (step env trips) (fun _ _ => True) start w →
          ∀ r ∈ w.tables.db.results, r.id ∈ w.promoted → r.auditSampled = false := by
  refine ⟨by decide +kernel, by decide +kernel, fun h => ?_⟩
  have hdrawn : (after (promotion ++ lastPaper)).tables.db.results.any (fun r =>
      r.id ∈ (after (promotion ++ lastPaper)).promoted && r.auditSampled) = true := by
    decide +kernel
  obtain ⟨r, hr, hboth⟩ := List.any_eq_true.1 hdrawn
  rw [Bool.and_eq_true] at hboth
  have hall : AllAllowed (step sampledEnv fun _ _ => false) (fun _ _ => True)
      ⟨noAudits unpricedRule, []⟩ (promotion ++ lastPaper) := by
    simp [AllAllowed, promotion, lastPaper]
  have hnot := h sampledEnv (fun _ _ => false) _ _ unpricedRule_starts (reach_foldl hall) r hr
    (of_decide_eq_true hboth.1)
  rw [hnot] at hboth
  cases hboth.2

end Watched

end Cine.Grading
