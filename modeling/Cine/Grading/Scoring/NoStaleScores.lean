import Cine.Grading.Pipeline.AttemptOperations
import Cine.Grading.Review.ReviewOperations

/-!
# No stale scores

The runs of grading and of the operations of a teacher, each of them one
transaction under the lock of the teacher.  In a run whose steps meet
`Operation.Meets`, every open paper is up to date in every state.

The condition leaves out three steps, one for each place where the code
falls behind: `assign` of a rule in words that an open paper was already
examined with, `pin` of a bundle with other cases, and the end of an attempt
on a paper of a question whose cases are not those of question 1.
`reassigned_is_stale` is a run with the first of them.
-/

namespace Cine.Grading

open Cine.Lib

variable {K : Type}

/-! ## Pinning a bundle -/

/-- The question that the paper `r` is measured by, or the one it is judged
by. -/
def Db.RulesOver (db : Db K) (p : ProblemRow) (r : ResultRow) (sessionId : String) : Prop :=
  r.problemId.bind db.problem = some p ∨ db.firstProblem sessionId = some p

/-- The bundle has the cases of the bundle it replaces, for every question
that an open paper is measured or judged by. -/
def PinHarmless (db : Db K) (sessionId bundleId : String) : Prop :=
  ∀ bundle, db.bundles.find? (fun b => b.id = bundleId ∧ b.sessionId = sessionId) = some bundle →
    ∀ r ∈ db.results, db.IsOpen r → ∀ session, db.sessionOf r = some session → ∀ p : ProblemRow,
      p.id = bundle.problemId → db.RulesOver p r session.id →
      db.bundleCases p.testBundleId = db.bundleCases (some bundleId)

/-- The questions and sessions after a pin. -/
structure Pinned (problemId bundleId : String) (db db' : Db K) : Prop where
  tables : db' = { db with problems := db'.problems, sessions := db'.sessions }
  problems : db'.problems = updateRow ProblemRow.id db.problems problemId fun p =>
    { p with testBundleId := some bundleId }
  sessions : ∀ id, (db'.session id).map SessionRow.id = (db.session id).map SessionRow.id

namespace Pinned

variable {problemId bundleId : String} {db db' : Db K}

/-- The row of a question after a pin. -/
def pinnedRow (problemId bundleId : String) (p : ProblemRow) : ProblemRow :=
  if p.id = problemId then { p with testBundleId := some bundleId } else p

theorem problem (h : Pinned problemId bundleId db db') (id : String) :
    db'.problem id = (db.problem id).map (pinnedRow problemId bundleId) := by
  rw [Db.problem, h.problems]
  exact rowOf_updateRow (f := fun p : ProblemRow => { p with testBundleId := some bundleId })
    (fun _ => rfl) id

theorem pinnedRow_sessionId (p : ProblemRow) :
    (pinnedRow problemId bundleId p).sessionId = p.sessionId := by
  rw [pinnedRow]
  split_ifs
  · rfl
  · rfl

theorem firstProblem (h : Pinned problemId bundleId db db') (sessionId : String) :
    db'.firstProblem sessionId =
      (db.firstProblem sessionId).map (pinnedRow problemId bundleId) := by
  rw [Db.firstProblem, Db.firstProblem, h.problems, updateRow, List.find?_map]
  congr 2
  funext p
  rw [Function.comp_apply]
  split_ifs
  · rfl
  · rfl

theorem isSome_session (h : Pinned problemId bundleId db db') (id : String) :
    (db'.session id).isSome = (db.session id).isSome := by
  have hsame := congrArg Option.isSome (h.sessions id)
  rw [Option.isSome_map, Option.isSome_map] at hsame
  exact hsame

theorem bind_session {β : Type} (o : Option SessionRow) (x : Option β) :
    (o.bind fun _ => x) = if o.isSome then x else none := by
  cases o with
  | none => rfl
  | some s => rfl

theorem cases_pinnedRow (h : Pinned problemId bundleId db db') {p : ProblemRow}
    (hcases : p.id = problemId →
      db.bundleCases p.testBundleId = db.bundleCases (some bundleId)) :
    db'.bundleCases (pinnedRow problemId bundleId p).testBundleId =
      db.bundleCases p.testBundleId := by
  have hsame : ∀ id, db'.bundleCases id = db.bundleCases id := by
    intro id
    rw [h.tables]
    rfl
  rw [hsame, pinnedRow]
  split_ifs with hid
  · exact (hcases hid).symm
  · rfl

theorem firstCases (h : Pinned problemId bundleId db db') {sessionId : String}
    (hcases : ∀ p, p.id = problemId → db.firstProblem sessionId = some p →
      db.bundleCases p.testBundleId = db.bundleCases (some bundleId)) :
    db'.firstCases sessionId = db.firstCases sessionId := by
  rw [Db.firstCases, Db.firstCases, Db.resolveProblemConfig, Db.resolveProblemConfig, bind_session,
    bind_session, h.isSome_session, h.firstProblem]
  split_ifs
  · cases hfirst : db.firstProblem sessionId with
    | none =>
      rw [h.tables]
      rfl
    | some p => exact h.cases_pinnedRow fun hid => hcases p hid hfirst
  · rw [h.tables]
    rfl

theorem ownCases (h : Pinned problemId bundleId db db') {r : ResultRow} {sessionId : String}
    (hcases : ∀ p, p.id = problemId → db.RulesOver p r sessionId →
      db.bundleCases p.testBundleId = db.bundleCases (some bundleId)) :
    db'.ownCases r sessionId = db.ownCases r sessionId := by
  rw [Db.ownCases, Db.ownCases, Db.ownConfig, Db.ownConfig]
  cases hown : r.problemId with
  | none =>
    exact h.firstCases fun p hid hfirst => hcases p hid (Or.inr hfirst)
  | some id =>
    simp only [Db.resolveProblemConfigByProblem, h.problem]
    cases hp : db.problem id with
    | none =>
      rw [h.tables]
      rfl
    | some p =>
      have hsession := h.isSome_session p.sessionId
      simp only [Option.map_some, Option.bind_some, pinnedRow_sessionId]
      cases hold : db.session p.sessionId with
      | none =>
        rw [hold] at hsession
        rw [Option.isSome_eq_false_iff.1 hsession |> Option.isNone_iff_eq_none.1, h.tables]
        rfl
      | some s =>
        rw [hold, Option.isSome_some] at hsession
        obtain ⟨s', hs'⟩ := Option.isSome_iff_exists.1 hsession
        rw [hs']
        refine h.cases_pinnedRow fun hid => hcases p hid (Or.inl ?_)
        rw [hown, Option.bind_some]
        exact hp

end Pinned

theorem setProblemTestBundle_spec {db : Db K} (sessionId problemId bundleId : String) :
    Ensures (setProblemTestBundle sessionId problemId bundleId) db fun _ db' =>
      Pinned problemId bundleId db db' := by
  rw [setProblemTestBundle]
  refine ensures_bind (ensures_get ?_)
  split
  · exact ensures_throw
  · refine ensures_bind (ensures_modify ?_)
    refine ensures_ite (fun _ => ensures_modify ⟨rfl, rfl, fun id => ?_⟩) fun _ =>
      ensures_pure ⟨rfl, rfl, fun _ => rfl⟩
    show (rowOf SessionRow.id (updateRow SessionRow.id db.sessions sessionId _) id).map _ = _
    rw [rowOf_updateRow (f := fun s : SessionRow => { s with testBundleId := some bundleId })
      fun _ => rfl, Option.map_map]
    refine Option.map_congr fun s _ => ?_
    rw [Function.comp_apply]
    split_ifs
    · rfl
    · rfl

variable [Number K] {env : GradingEnv K} {db db' : Db K}

theorem Consistent.pinned (h : AllUpToDate env db) {problemId bundleId : String}
    (hpinned : Pinned problemId bundleId db db')
    (hcases : ∀ r ∈ db.results, db.IsOpen r → ∀ session, db.sessionOf r = some session →
      ∀ p : ProblemRow, p.id = problemId → db.RulesOver p r session.id →
      db.bundleCases p.testBundleId = db.bundleCases (some bundleId)) : AllUpToDate env db' := by
  have htidy : Tidy db' := by
    rw [hpinned.tables]
    exact ⟨h.tidy.ruleKeys, h.tidy.rowIds, h.tidy.uses, h.tidy.rowRules⟩
  have hresults : db'.results = db.results := by rw [hpinned.tables]
  refine ⟨htidy, hresults ▸ h.ids, hresults ▸ h.submissions, fun r hr => ?_⟩
  rw [hresults] at hr
  refine (h.papers r hr).carry ⟨.refl r, ?_, ?_, ?_, ?_, ?_, ?_, ?_⟩ ?_ fun _ hstale =>
    ⟨hstale, ?_⟩
  · rw [hpinned.tables]
    rfl
  · rw [hpinned.tables]
    rfl
  · rw [hpinned.tables]
    exact fun hm => hm
  · have hsubmission : db'.submission r.submissionId = db.submission r.submissionId := by
      rw [hpinned.tables]
      rfl
    rw [Db.sessionOf, Db.sessionOf, hsubmission]
    cases db.submission r.submissionId with
    | none => rfl
    | some s => exact hpinned.sessions s.sessionId
  · rw [hpinned.tables]
    rfl
  · exact fun hopen session hs => hpinned.ownCases (hcases r hr hopen session hs)
  · exact fun hopen session hs => hpinned.firstCases fun p hid hfirst =>
      hcases r hr hopen session hs p hid (Or.inr hfirst)
  · rw [hpinned.tables]
    exact fun _ _ _ ha _ => ha
  · refine keepsView_of_table h.tidy htidy (fun rubric _ => ?_) ?_
    · rw [hpinned.tables]
      rfl
    · rw [hpinned.tables]
      rfl

theorem pin_consistent (h : AllUpToDate env db) {sessionId bundleId : String}
    (hharmless : PinHarmless db sessionId bundleId) :
    Ensures (pin sessionId bundleId) db fun _ db' => AllUpToDate env db' := by
  rw [pin]
  refine ensures_bind (ensures_get ?_)
  split
  · exact ensures_throw
  · rename_i bundle hbundle
    refine ensures_ite (fun _ => ensures_bind ensures_throw) fun _ => ?_
    split
    · exact ensures_throw
    · refine ensures_ite (fun _ => ensures_bind ensures_throw) fun _ => ?_
      exact (setProblemTestBundle_spec _ _ _).mono fun _ db' h' =>
        h.pinned h' (hharmless bundle hbundle)

/-! ## Runs -/

/-- The operations of grading and of a teacher. -/
inductive Operation (K : Type)
  | startAttempt (resultId : String)
  | finishAttempt (resultId attemptId : String) (stored : StoredInvestigation K)
  | finishUngradable (resultId attemptId : String) (u : Ungradable)
  | markUngradable (submissionId reason : String)
  | requeue (resultId : String)
  | assign (input : AssignInput)
  | move (rubricErrorId criterionKey : String)
  | remove (rubricErrorId : String)
  | copy (fromRubricName toRubricName : String)
  | revise (ruleId : String) (changes : RuleChanges)
  | split (ruleId rubricName : String) (changes : RuleChanges)
  | setState (ruleId : String) (state : EndState)
  | setPrice (rubricErrorId : String) (deduction : Option Int)
  | setWaiver (rubricId criterionKey : String)
  | revokeWaiver (waiverId : String)
  | setErrorException (resultId ruleId : String) (direction : ErrorException)
  | setManualScore (resultId : String) (hundredths : Int)
  | pin (sessionId bundleId : String)
  | finalizeGrades (sessionId : String)

namespace Operation

/-- The database after an operation, which leaves no trace when it throws. -/
def run (env : GradingEnv K) (db : Db K) : Operation K → Db K
  | .startAttempt resultId => commit (Grading.startAttempt env resultId) db
  | .finishAttempt resultId attemptId stored =>
    commit (Grading.finishAttempt env resultId attemptId stored) db
  | .finishUngradable resultId attemptId u =>
    commit (Grading.finishUngradable resultId attemptId u) db
  | .markUngradable submissionId reason => commit (Grading.markUngradable env submissionId reason) db
  | .requeue resultId => commit (Grading.requeue resultId) db
  | .assign input => commit (Grading.assign env input) db
  | .move rubricErrorId criterionKey => commit (Grading.move env rubricErrorId criterionKey) db
  | .remove rubricErrorId => commit (Grading.remove env rubricErrorId) db
  | .copy fromRubricName toRubricName => commit (Grading.copy env fromRubricName toRubricName) db
  | .revise ruleId changes => commit (Grading.revise env ruleId changes) db
  | .split ruleId rubricName changes => commit (Grading.split env ruleId rubricName changes) db
  | .setState ruleId state => commit (Grading.setState env ruleId state) db
  | .setPrice rubricErrorId deduction => commit (Grading.setPrice env rubricErrorId deduction) db
  | .setWaiver rubricId criterionKey => commit (Grading.setWaiver env rubricId criterionKey) db
  | .revokeWaiver waiverId => commit (Grading.revokeWaiver env waiverId) db
  | .setErrorException resultId ruleId direction =>
    commit (Grading.setErrorException env resultId ruleId direction) db
  | .setManualScore resultId hundredths => commit (Grading.setManualScore resultId hundredths) db
  | .pin sessionId bundleId => commit (Grading.pin sessionId bundleId) db
  | .finalizeGrades sessionId => commit (Grading.finalizeGrades sessionId) db

/-- The condition on a step that keeps every score up to date. -/
def Meets (env : GradingEnv K) (db : Db K) : Operation K → Prop
  | .finishAttempt resultId _ _ => ∀ r, db.result resultId = some r → db.OneRuler r
  | .assign input => AssignHarmless env db input
  | .pin sessionId bundleId => PinHarmless db sessionId bundleId
  | _ => True

theorem run_consistent (h : AllUpToDate env db) (op : Operation K) (hmeets : op.Meets env db) :
    AllUpToDate env (op.run env db) := by
  cases op with
  | startAttempt resultId => exact commit_of_ensures (startAttempt_consistent h resultId) h
  | finishAttempt resultId attemptId stored =>
    exact commit_of_ensures (finishAttempt_consistent h resultId attemptId stored hmeets) h
  | finishUngradable resultId attemptId u =>
    exact commit_of_ensures (finishUngradable_consistent h resultId attemptId u) h
  | markUngradable submissionId reason =>
    exact commit_of_ensures (markUngradable_consistent h submissionId reason) h
  | requeue resultId => exact commit_of_ensures (requeue_consistent h resultId) h
  | assign input => exact commit_of_ensures (assign_consistent h hmeets) h
  | move rubricErrorId criterionKey =>
    exact commit_of_ensures (move_consistent h rubricErrorId criterionKey) h
  | remove rubricErrorId => exact commit_of_ensures (remove_consistent h rubricErrorId) h
  | copy fromRubricName toRubricName =>
    exact commit_of_ensures (copy_consistent h fromRubricName toRubricName) h
  | revise ruleId changes => exact commit_of_ensures (revise_consistent h ruleId changes) h
  | split ruleId rubricName changes =>
    exact commit_of_ensures (split_consistent h ruleId rubricName changes) h
  | setState ruleId state => exact commit_of_ensures (setState_consistent h ruleId state) h
  | setPrice rubricErrorId deduction =>
    exact commit_of_ensures (setPrice_consistent h rubricErrorId deduction) h
  | setWaiver rubricId criterionKey =>
    exact commit_of_ensures (setWaiver_consistent h rubricId criterionKey) h
  | revokeWaiver waiverId => exact commit_of_ensures (revokeWaiver_consistent h waiverId) h
  | setErrorException resultId ruleId direction =>
    exact commit_of_ensures (setErrorException_consistent h resultId ruleId direction) h
  | setManualScore resultId hundredths =>
    exact commit_of_ensures (setManualScore_consistent h resultId hundredths) h
  | pin sessionId bundleId => exact commit_of_ensures (pin_consistent h hmeets) h
  | finalizeGrades sessionId => exact commit_of_ensures (finalizeGrades_consistent h sessionId) h

end Operation

/-- A database before grading: the rule tables are in order, and no paper has
an attempt. -/
structure Db.Ungraded (db : Db K) : Prop where
  tidy : Tidy db
  ids : (db.results.map ResultRow.id).Nodup
  submissions : (db.results.map ResultRow.submissionId).Nodup
  attempts : ∀ r ∈ db.results, r.currentAttemptId = none

/-- A run of operations that meet their condition. -/
inductive CarefulRun (env : GradingEnv K) (start : Db K) : Db K → Prop
  | nil : CarefulRun env start start
  | step {db : Db K} (op : Operation K) (run : CarefulRun env start db)
      (meets : op.Meets env db) : CarefulRun env start (op.run env db)

theorem allUpToDate_of_ungraded (h : db.Ungraded) : AllUpToDate env db := by
  refine ⟨h.tidy, h.ids, h.submissions, fun r hr => ?_⟩
  have hnone := h.attempts r hr
  refine PaperOk.of_not_graded (fun id hid => ?_) fun hgraded => ?_
  · rw [hnone] at hid
    cases hid
  · obtain ⟨a, ha, _⟩ := hgraded
    rw [Db.currentAttempt, hnone] at ha
    cases ha

theorem allUpToDate_of_run (h : db.Ungraded) (hrun : CarefulRun env db db') :
    AllUpToDate env db' := by
  induction hrun with
  | nil => exact allUpToDate_of_ungraded h
  | step op _ hmeets ih => exact op.run_consistent ih hmeets

/-- The database after a list of operations. -/
def runAll (env : GradingEnv K) (ops : List (Operation K)) (db : Db K) : Db K :=
  ops.foldl (Operation.run env) db

/-- In a run whose steps meet their condition, the newest computation of
every open paper is the one of now. -/
theorem upToDate_of_careful_run (h : db.Ungraded) (hrun : CarefulRun env db db') :
    ∀ r ∈ db'.results, db'.IsOpen r → db'.UpToDate env r :=
  fun r hr hopen => ((allUpToDate_of_run h hrun).papers r hr).upToDate hopen not_false

/-! ## A rule in words, taken out and put back -/

/-- A rubric with one rule in words, and a paper before grading. -/
def wordsRubric : Db ℚ :=
  { twoQuestions with
    rules := [⟨"rule", "naming", .active, .teacher, ⟨"rev", 1, "Đặt tên", "Tên biến rõ nghĩa", none⟩⟩]
    rubricErrors := [⟨"row", "Nhập môn", "rule", "correctness", false⟩]
    priceVersions := [⟨"v1", 1, [⟨"row", some 20⟩]⟩]
    results := [{ secondPaper with problemId := some "q1", currentAttemptId := none }]
    attempts := [] }

/-- An investigation that passes the case of question 1 and names the rule. -/
def namingInvestigation : StoredInvestigation ℚ :=
  { result := { cleanPaper.result with
      verdict := some ⟨[⟨"naming", ["tc-2"]⟩], []⟩
      investigation := { cleanPaper.result.investigation with
        structuredResults := [("tc-1", .runTests none [⟨"sum-1", some "sum", .pass⟩])] } }
    rulesSeen := [⟨"naming", .model⟩]
    ruleTable := [⟨"naming", .model⟩]
    modelCeiling := 0.6
    challenge := none }

/-- The paper is graded, and the rule is taken out of the rubric. -/
def gradeAndRemove : List (Operation ℚ) :=
  [.startAttempt "r2", .finishAttempt "r2" "id-" namingInvestigation, .remove "row"]

def putBack : Operation ℚ :=
  .assign ⟨"Nhập môn", "correctness", none, .existing "rule" none⟩

theorem wordsRubric_ungraded : wordsRubric.Ungraded := by
  refine ⟨⟨by decide, by decide, by decide, fun re hre => ?_⟩, by decide, by decide, ?_⟩
  · rw [List.mem_singleton.1 hre]
    exact ⟨_, rfl, by decide⟩
  · intro r hr
    rw [List.mem_singleton.1 hr]

theorem oneRuler_of_all {db : Db ℚ} {r : ResultRow}
    (h : (db.sessionOf r).all fun s => db.ownCases r s.id = db.firstCases s.id) :
    db.OneRuler r := by
  intro session hs
  rw [hs, Option.all_some] at h
  exact of_decide_eq_true h

theorem gradeAndRemove_careful :
    CarefulRun plainEnv wordsRubric (runAll plainEnv gradeAndRemove wordsRubric) := by
  have hstart : CarefulRun plainEnv wordsRubric
      (Operation.run plainEnv wordsRubric (.startAttempt "r2")) := .step _ .nil trivial
  refine .step (.remove "row") (.step (.finishAttempt "r2" "id-" namingInvestigation) hstart
    fun r hr => oneRuler_of_all ?_) trivial
  have hall : ((Operation.run plainEnv wordsRubric (.startAttempt "r2")).result "r2").all fun r =>
      ((Operation.run plainEnv wordsRubric (.startAttempt "r2")).sessionOf r).all fun s =>
        (Operation.run plainEnv wordsRubric (.startAttempt "r2")).ownCases r s.id =
          (Operation.run plainEnv wordsRubric (.startAttempt "r2")).firstCases s.id := by
    decide
  rw [hr, Option.all_some] at hall
  exact hall

theorem upToDate_after_remove :
    (∃ r ∈ (runAll plainEnv gradeAndRemove wordsRubric).results,
      (runAll plainEnv gradeAndRemove wordsRubric).isRecomputable r) ∧
    ∀ r ∈ (runAll plainEnv gradeAndRemove wordsRubric).results,
      (runAll plainEnv gradeAndRemove wordsRubric).IsOpen r →
        (runAll plainEnv gradeAndRemove wordsRubric).UpToDate plainEnv r := by
  refine ⟨List.any_eq_true.1 (by decide +kernel),
    upToDate_of_careful_run wordsRubric_ungraded gradeAndRemove_careful⟩

theorem isOpen_of_isRecomputable {db : Db ℚ} {r : ResultRow} (h : db.isRecomputable r = true) :
    db.IsOpen r := by
  obtain ⟨hpipeline, hstatus, hgraded, hmanual⟩ := of_decide_eq_true h
  refine ⟨hpipeline, ?_, ?_, hmanual⟩
  · obtain ⟨a, ha, houtcome⟩ := (Option.any_eq_true _ _).1 hgraded
    exact ⟨a, ha, of_decide_eq_true houtcome⟩
  · revert hstatus
    cases r.status <;> decide

/-- The rule is back in the rubric at its old price, and the paper keeps the
score without it. -/
theorem reassigned_is_stale :
    ((runAll plainEnv (gradeAndRemove ++ [putBack]) wordsRubric).latestComputation "r2").map
        ComputationRow.score = some (some 100) ∧
      ((runAll plainEnv (gradeAndRemove ++ [putBack]) wordsRubric).result "r2").map (fun r =>
        ((runAll plainEnv (gradeAndRemove ++ [putBack]) wordsRubric).currentView plainEnv r).map
          ScoreView.score) = some (some (some 80)) ∧
      ¬ ∀ (env : GradingEnv ℚ) (db : Db ℚ) (ops : List (Operation ℚ)), db.Ungraded →
          ∀ r ∈ (runAll env ops db).results, (runAll env ops db).IsOpen r →
            (runAll env ops db).UpToDate env r := by
  refine ⟨by decide +kernel, by decide +kernel, fun h => ?_⟩
  have hstale : (runAll plainEnv (gradeAndRemove ++ [putBack]) wordsRubric).results.any (fun r =>
      (runAll plainEnv (gradeAndRemove ++ [putBack]) wordsRubric).isRecomputable r &&
        ((runAll plainEnv (gradeAndRemove ++ [putBack]) wordsRubric).latestComputation r.id).map
          ComputationRow.view ≠
            (runAll plainEnv (gradeAndRemove ++ [putBack]) wordsRubric).currentView plainEnv r) =
        true := by
    decide +kernel
  obtain ⟨r, hr, hboth⟩ := List.any_eq_true.1 hstale
  rw [Bool.and_eq_true] at hboth
  have hup := h plainEnv wordsRubric (gradeAndRemove ++ [putBack]) wordsRubric_ungraded r hr
    (isOpen_of_isRecomputable hboth.1)
  exact of_decide_eq_true hboth.2 hup.currentView_eq

end Cine.Grading
