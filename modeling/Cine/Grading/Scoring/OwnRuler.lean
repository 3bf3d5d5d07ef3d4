import Cine.Grading.Pipeline.InvestigationContext
import Cine.Grading.Scoring.ScoreService

/-!
# The ruler of a paper

A paper is measured with the test bundle of its question and judged by the
cases of a test bundle.  `buildContext` takes the bundle of the question of
the result; `loadScoreContext` takes the one of question 1 of the session.

`JudgedByOwnRuler` says that the two agree for one paper, in the words of the
functions that use them.  `judgedByOwnRuler_iff` says when they do.
-/

namespace Cine.Grading

open Cine.Lib

variable {K : Type}

namespace Db

variable (db : Db K)

/-- The cases of the question of a result. -/
def ownCases (r : ResultRow) (sessionId : String) : List BundleCase :=
  db.bundleCases ((db.ownConfig r sessionId).bind ProblemConfig.testBundleId)

/-- The cases of question 1 of a session. -/
def firstCases (sessionId : String) : List BundleCase :=
  db.bundleCases ((db.resolveProblemConfig sessionId).bind ProblemConfig.testBundleId)

/-- The cases that a recomputation judges a paper by. -/
def recomputeCases (resultId : String) : Except Failure (List BundleCase) :=
  (db.loadScoreContext resultId none).map ScoreContext.bundleCases

/-- The cases that `finishAttempt` judges an investigation by. -/
def finishCases (resultId attemptId : String) (stored : StoredInvestigation K) :
    Except Failure (List BundleCase) :=
  (lockRunning resultId attemptId (some stored) db).map fun p => p.1.bundleCases

end Db

/-! ## What the loaders return -/

section Loaders

variable {db : Db K} {r : ResultRow} {session : SessionRow} {rubric : RubricRow}

theorem loadScoreContext_of_rows (hr : db.result r.id = some r)
    (hsession : db.sessionOf r = some session) (hrubric : db.rubric r.rubricIdVersion = some rubric)
    (storedOverride : Option (StoredInvestigation K)) :
    db.loadScoreContext r.id storedOverride =
      .ok (db.contextOf r session rubric storedOverride) := by
  rw [Db.loadScoreContext, hr]
  simp only [hsession, hrubric]

theorem rows_of_loadScoreContext {resultId : String}
    {storedOverride : Option (StoredInvestigation K)} {ctx : ScoreContext K}
    (h : db.loadScoreContext resultId storedOverride = .ok ctx) :
    ∃ r session rubric, db.result resultId = some r ∧ db.sessionOf r = some session ∧
      db.rubric r.rubricIdVersion = some rubric ∧
        ctx = db.contextOf r session rubric storedOverride := by
  rw [Db.loadScoreContext] at h
  split at h
  · cases h
  · rename_i r hr
    split at h
    · rename_i session rubric hs hrb
      cases h
      exact ⟨r, session, rubric, hr, hs, hrb, rfl⟩
    · cases h

theorem lockRunning_loads {resultId attemptId : String} {stored : Option (StoredInvestigation K)} :
    Ensures (lockRunning resultId attemptId stored) db fun ctx db' =>
      db' = db ∧ db.loadScoreContext resultId stored = .ok ctx := by
  rw [lockRunning]
  refine ensures_bind (ensures_get ?_)
  split
  · exact ensures_throw
  · refine ensures_ite (fun _ => ensures_bind ensures_throw) fun _ => ?_
    exact ensures_lift fun ctx hctx => ⟨rfl, hctx⟩

theorem buildContext_cases {deps : ContextDeps} {resultId : String}
    {ctx : InvestigationContext} {ruleTable : List RuleSeen} (hr : db.result resultId = some r)
    (hsession : db.sessionOf r = some session)
    (h : db.buildContext deps resultId = .ok (.ok (ctx, ruleTable))) :
    (ctx.cases.map fun c => (⟨c.name, c.group⟩ : BundleCase)) = db.ownCases r session.id := by
  rw [Db.sessionOf] at hsession
  cases hsub : db.submission r.submissionId with
  | none => simp [hsub] at hsession
  | some submission =>
    rw [hsub, Option.bind_some] at hsession
    have hid : submission.sessionId = session.id := (rowOf_key hsession).symm
    simp only [Db.buildContext, hr, hsub, hsession, pure, Except.pure] at h
    split at h
    · split at h
      · split at h
        · rename_i bundleId hbundle
          split_ifs at h
          · cases h
          · split at h
            · split at h
              · split at h
                · cases h
                · cases h
                  rw [Db.ownCases, hbundle, Db.bundleCases, List.map_map]
                  rfl
              · cases h
            · cases h
        · cases h
      · cases h
    · cases h

theorem floor_ne_uncovered {input : DecisionInput K}
    (h : uncoveredCases input.bundle input.toolCalls input.structured = []) :
    input.floor ≠ some .uncovered := by
  rw [DecisionInput.floor, DecisionInput.missing, h]
  split_ifs <;> simp_all

end Loaders

/-! ## One ruler for measuring and judging -/

/-- The paper `r` of `session` is judged with the ruler it was measured
with. -/
structure JudgedByOwnRuler (env : GradingEnv K) (db : Db K) (r : ResultRow)
    (session : SessionRow) : Prop where
  /-- A recomputation judges by the cases of the question of the result. -/
  recompute : db.recomputeCases r.id = .ok (db.ownCases r session.id)
  /-- So does the end of an attempt. -/
  finish : ∀ attemptId stored cases, db.finishCases r.id attemptId stored = .ok cases →
    cases = db.ownCases r session.id
  /-- They are the cases that the investigation was given. -/
  build : ∀ deps ctx ruleTable, db.buildContext deps r.id = .ok (.ok (ctx, ruleTable)) →
    (ctx.cases.map fun c => (⟨c.name, c.group⟩ : BundleCase)) = db.ownCases r session.id
  /-- An investigation that covered them is not ungradable for missing cases. -/
  covered : ∀ ctx storedOverride stored rules,
    db.loadScoreContext r.id storedOverride = .ok ctx →
    uncoveredCases (db.ownCases r session.id) stored.result.investigation.toolCalls
      stored.result.investigation.structuredResults = [] →
    (db.scoreInput env ctx stored rules).decisionInput.floor ≠ some .uncovered

/-- A paper is judged with its own ruler exactly when the bundle of its
question and the one of question 1 have the same cases left. -/
theorem judgedByOwnRuler_iff (env : GradingEnv K) (db : Db K) (r : ResultRow)
    (session : SessionRow) (rubric : RubricRow) (hr : db.result r.id = some r)
    (hsession : db.sessionOf r = some session)
    (hrubric : db.rubric r.rubricIdVersion = some rubric) :
    JudgedByOwnRuler env db r session ↔ db.ownCases r session.id = db.firstCases session.id := by
  have hload := loadScoreContext_of_rows hr hsession hrubric
  constructor
  · intro h
    have hcases := h.recompute
    rw [Db.recomputeCases, hload] at hcases
    exact (Except.ok.inj hcases).symm
  · intro h
    refine ⟨?_, ?_, ?_, ?_⟩
    · rw [Db.recomputeCases, hload, h]
      rfl
    · intro attemptId stored cases hfinish
      rw [Db.finishCases] at hfinish
      cases hlock : lockRunning r.id attemptId (some stored) db with
      | error f =>
        rw [hlock] at hfinish
        cases hfinish
      | ok p =>
        obtain ⟨_, hctx⟩ := lockRunning_loads p.1 p.2 hlock
        rw [hload] at hctx
        rw [hlock] at hfinish
        cases hfinish
        show p.1.bundleCases = _
        rw [← Except.ok.inj hctx, h]
        rfl
    · intro deps ctx ruleTable hbuild
      exact buildContext_cases hr hsession hbuild
    · intro ctx storedOverride stored rules hctx hcovered
      rw [hload] at hctx
      refine floor_ne_uncovered ?_
      rw [← Except.ok.inj hctx]
      rw [h] at hcovered
      exact hcovered

/-! ## A session with two questions -/

/-- Settings without sampling, breakers or gates. -/
def plainEnv : GradingEnv ℚ :=
  { theta := 0.7
    autoBlockedKeys := []
    autoNoErrorEnabled := true
    samplingEnabled := false
    samplingPercent := 0
    auditMinPerSession := 0
    auditBucket := fun _ _ => 0
    hashOfMssv := id
    slugifyRuleKey := id
    missingRuleKey := fun text => "de_xuat_" ++ text
    lower := id
    trim := id
    uuid := fun n => "id-" ++ String.ofList (List.replicate n 'x') }

/-- A paper of question 2 that is being graded. -/
def secondPaper : ResultRow :=
  { id := "r2"
    submissionId := "sub"
    problemId := some "q2"
    rubricIdVersion := "rb"
    pipeline := .investigator
    status := .aiGrading
    currentAttemptId := some "a2"
    aiTotalScore := none
    confidence := none
    modelUsed := none
    flagForReview := false
    ungradable := none
    auditSampled := false
    finalizedComputationId := none }

/-- The session of the paper. -/
def midterm : SessionRow := ⟨"s1", "Giữa kỳ", "seed", none, false, some "b1"⟩

def introRubric : RubricRow := ⟨"rb", "Nhập môn", 1, [⟨"correctness", 100⟩]⟩

/-- Two questions with a bundle each, and the paper of question 2. -/
def twoQuestions : Db ℚ :=
  { sessions := [midterm]
    problems :=
      [⟨"q1", "s1", 1, some "Tính tổng", 100, some "rb", some "b1"⟩,
        ⟨"q2", "s1", 2, some "Tính tích", 100, some "rb", some "b2"⟩]
    submissions := [⟨"sub", "s1", "SV01", some "key", "main.cpp", some "cpp"⟩]
    bundles := [⟨"b1", "s1", "q1", true⟩, ⟨"b2", "s1", "q2", true⟩]
    cases :=
      [⟨"b1", "sum-1", "sum", "1 2", "3", none⟩, ⟨"b2", "product-1", "product", "1 2", "2", none⟩]
    rubrics := [introRubric]
    rules := []
    rubricErrors := []
    priceVersions := []
    waivers := []
    sightings := []
    results := [secondPaper]
    attempts := [⟨"a2", "r2", 1, none, none, none⟩]
    computations := []
    reviews := []
    auditLog := []
    openBreakerRuleKeys := []
    noErrorBreakerOpen := false
    drawnIds := 0 }

/-- An investigation that ran the only case of question 2, and passed it. -/
def productInvestigation : StoredInvestigation ℚ :=
  { result := { cleanPaper.result with
      investigation := { cleanPaper.result.investigation with
        structuredResults := [("tc-1", .runTests none [⟨"product-1", some "product", .pass⟩])] } }
    rulesSeen := []
    ruleTable := []
    modelCeiling := 0.6
    challenge := none }

/-- Services that find a readable submission. -/
def plainDeps : ContextDeps :=
  { loadForGrading := fun _ => ⟨none, none, none⟩
    getObject := fun _ => some .empty
    extractText := fun _ _ => ""
    sourceFilesOf := fun _ _ _ => .ok ⟨[⟨"main.cpp", "int main() {}"⟩], none⟩
    trim := id }

/-- The same session with a paper of question 1. -/
def firstQuestion : Db ℚ :=
  { twoQuestions with results := [{ secondPaper with problemId := some "q1" }] }

theorem firstQuestion_judged_by_own :
    JudgedByOwnRuler plainEnv firstQuestion { secondPaper with problemId := some "q1" } midterm :=
  (judgedByOwnRuler_iff plainEnv firstQuestion _ midterm introRubric rfl rfl rfl).2
    (by decide)

/-- The paper of question 2 is given the case of question 2, passes it, and
is ungradable for want of the case of question 1. -/
theorem twoQuestions_judged_by_first :
    ((twoQuestions.buildContext plainDeps "r2").toOption.bind Except.toOption).map
        (fun p => p.1.cases) = some [⟨"product-1", "product", "1 2", "2"⟩] ∧
      uncoveredCases [⟨"product-1", "product"⟩]
        productInvestigation.result.investigation.toolCalls
        productInvestigation.result.investigation.structuredResults = [] ∧
      (finishAttempt plainEnv "r2" "a2" productInvestigation twoQuestions).toOption.map Prod.fst =
        some (.ungradable ⟨.system,
          "gói test chưa chạy đủ: 1/1 ca chưa có kết quả (nhóm sum) — " ++
            "\"không có gì để trừ\" không phải \"không có gì sai\""⟩) ∧
      ¬ ∀ (env : GradingEnv ℚ) (db : Db ℚ) (r : ResultRow) (session : SessionRow)
          (rubric : RubricRow), db.result r.id = some r → db.sessionOf r = some session →
          db.rubric r.rubricIdVersion = some rubric → JudgedByOwnRuler env db r session := by
  refine ⟨by decide +kernel, by decide +kernel, by decide +kernel, fun h => ?_⟩
  have hown := (h plainEnv twoQuestions secondPaper midterm introRubric rfl rfl rfl).recompute
  have hcases := congrArg Except.toOption hown
  revert hcases
  decide

end Cine.Grading
