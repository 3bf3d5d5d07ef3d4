import Cine.Grading.Review.PublishSession

/-!
# New prices for a published session

`planReapply` and `reapplyFinalizedSession` of `grading/scoring/score.service.ts`.
The prices of a published session change in one way only: every paper keeps
its errors and takes the prices of the newest table.

* `reprice_reprice`: a breakdown that was priced before takes new prices like
  the breakdown it came from, so no price survives an earlier table.
* `planRow` is the plan for one paper and `planReapply` the plan for all.
* `Reapplied` is what the tables are after some papers of the plan.  No other
  operation of the plan reads what it writes, so the plan for the state after
  the last paper is empty (`planReapply_of_reapplied`).

The two locks that the source takes, of the teacher and of the rows, are the
transaction.  A score and its text with two decimals are one number here.
-/

namespace Cine.Grading

open Cine.Lib

variable {K : Type}

/-! ## Prices on prices -/

section Prices

variable {rubric : List RubricCriterion} {prices prices' : OrderedMap String (Option Int)}

/-- The flags of the errors without a price. -/
def unpricedFlags (errors : List BreakdownError) : List ErrorFlag :=
  (errors.filter (fun e => e.counted = .unpriced)).map (fun e => ⟨e.ruleKey, .unpriced⟩)

/-- The flags that no price decides. -/
def keptFlags (flags : List ErrorFlag) : List ErrorFlag :=
  flags.filter fun f => f.code = .refuted ∨ f.code = .unverified

/-- The breakdown with new prices, from the score of its errors. -/
def ScoreBreakdown.repriced (before : ScoreBreakdown K) (prices : OrderedMap String (Option Int))
    (score : DeductionScore) : Repriced K :=
  let errors := before.errors.map (repriceError prices)
  { scoreHundredths := score.scoreHundredths
    breakdown := { before with
      errors := errors
      perCriterion := score.perCriterion
      errorFlags := unpricedFlags errors ++ keptFlags before.errorFlags }
    newlyUnpriced :=
      ((errors.zip before.errors).filter (fun p =>
        p.1.counted = .unpriced ∧ p.2.counted ≠ .unpriced)).map fun p =>
          (p.1.ruleId, p.1.ruleKey) }

/-- The score of errors that have their prices. -/
def scoreOfErrors (rubric : List RubricCriterion) (errors : List BreakdownError) :
    Except String DeductionScore :=
  computeDeductionScore rubric (errors.map BreakdownError.toScoringRule) (scoredKeysOf errors)

theorem repriceBreakdown_eq (before : ScoreBreakdown K) (rubric : List RubricCriterion)
    (prices : OrderedMap String (Option Int)) :
    repriceBreakdown before rubric prices =
      (scoreOfErrors rubric (before.errors.map (repriceError prices))).map
        (before.repriced prices) := by
  unfold repriceBreakdown scoreOfErrors
  rw [scoredKeysOf]
  simp only [bind, Except.bind, pure, Except.pure]
  cases computeDeductionScore rubric _ _ <;> rfl

theorem repriceError_repriceError (e : BreakdownError) :
    repriceError prices' (repriceError prices e) = repriceError prices' e := by
  unfold repriceError
  by_cases h : e.isScored = true
  · have hscored : ∀ d : Option Int, BreakdownError.isScored
        { e with
          deductionHundredths := d
          counted := if d = none then .unpriced else .counted } = true := by
      intro d
      cases d <;> simp [BreakdownError.isScored]
    simp only [h, if_true, hscored]
  · simp only [h, Bool.false_eq_true, if_false]

theorem map_repriceError (errors : List BreakdownError) :
    (errors.map (repriceError prices)).map (repriceError prices') =
      errors.map (repriceError prices') := by
  rw [List.map_map]
  exact List.map_congr_left fun e _ => repriceError_repriceError e

theorem keptFlags_append (errors : List BreakdownError) (flags : List ErrorFlag) :
    keptFlags (unpricedFlags errors ++ keptFlags flags) = keptFlags flags := by
  unfold keptFlags
  rw [List.filter_append, List.filter_filter]
  have hnil : (unpricedFlags errors).filter
      (fun f => f.code = .refuted ∨ f.code = .unverified) = [] := by
    rw [List.filter_eq_nil_iff]
    intro f hf
    obtain ⟨e, _, rfl⟩ := List.mem_map.1 hf
    simp
  rw [hnil, List.nil_append]
  exact List.filter_congr fun f _ => by simp

/-- The score, the breakdown and nothing of the history. -/
def Repriced.outcome (r : Repriced K) : Int × ScoreBreakdown K :=
  (r.scoreHundredths, r.breakdown)

theorem reprice_reprice {before : ScoreBreakdown K} {once : Repriced K}
    (h : repriceBreakdown before rubric prices = .ok once) :
    (repriceBreakdown once.breakdown rubric prices').map Repriced.outcome =
      (repriceBreakdown before rubric prices').map Repriced.outcome := by
  rw [repriceBreakdown_eq] at h
  obtain ⟨score, _, rfl⟩ := map_eq_ok.1 h
  rw [repriceBreakdown_eq, repriceBreakdown_eq]
  show (Except.map _ (scoreOfErrors rubric ((before.errors.map _).map _))).map _ = _
  rw [map_repriceError]
  cases scoreOfErrors rubric (before.errors.map (repriceError prices')) with
  | error e => rfl
  | ok score' =>
    simp only [Except.map, Repriced.outcome, ScoreBreakdown.repriced, map_repriceError,
      keptFlags_append]

theorem reprice_same {before : ScoreBreakdown K} {once : Repriced K}
    (h : repriceBreakdown before rubric prices = .ok once) :
    ∃ again, repriceBreakdown once.breakdown rubric prices = .ok again ∧
      again.scoreHundredths = once.scoreHundredths ∧ again.breakdown = once.breakdown ∧
      again.newlyUnpriced = [] := by
  have hsame : (repriceBreakdown once.breakdown rubric prices).map Repriced.outcome =
      (repriceBreakdown before rubric prices).map Repriced.outcome := reprice_reprice h
  rw [h] at hsame
  obtain ⟨again, hagain, houtcome⟩ := map_eq_ok.1 hsame
  obtain ⟨hscore, hbreakdown⟩ := Prod.mk.inj houtcome
  refine ⟨again, hagain, hscore, hbreakdown, ?_⟩
  rw [repriceBreakdown_eq] at h hagain
  obtain ⟨score, _, rfl⟩ := map_eq_ok.1 h
  obtain ⟨score', _, rfl⟩ := map_eq_ok.1 hagain
  simp only [ScoreBreakdown.repriced, map_repriceError]
  rw [List.map_eq_nil_iff, List.filter_eq_nil_iff]
  rintro ⟨e, e'⟩ hmem
  obtain rfl : e = e' := by
    rw [List.zip_eq_zipWith, List.zipWith_self] at hmem
    obtain ⟨_, _, heq⟩ := List.mem_map.1 hmem
    cases heq
    rfl
  simp

end Prices

/-! ## The plan -/

/-- A rule whose deduction changes, for the audit log. -/
structure ChangedRule where
  ruleId : String
  ruleKey : String
  oldDeduction : Option Int
  newDeduction : Option Int
deriving DecidableEq, Repr

def changedRules (before after : ScoreBreakdown K) : List ChangedRule :=
  let old := OrderedMap.ofList (before.errors.map fun e => (e.ruleId, e))
  (after.errors.filter fun e => (old.get? e.ruleId).all fun o =>
      o.deductionHundredths ≠ e.deductionHundredths ∨ o.counted ≠ e.counted).map
    (fun e => ⟨e.ruleId, e.ruleKey, (old.get? e.ruleId).bind BreakdownError.deductionHundredths,
      e.deductionHundredths⟩) ++
  (before.errors.filter fun o => o.ruleId ∉ after.errors.map BreakdownError.ruleId).map fun o =>
    ⟨o.ruleId, o.ruleKey, o.deductionHundredths, none⟩

/-- A paper whose score changes. -/
structure ReapplyItem (K : Type) where
  resultId : String
  oldScore : Int
  newScore : Int
  changedRules : List ChangedRule
  ctx : ScoreContext K
  breakdown : ScoreBreakdown K
  oldComputationId : String
  oldPriceId : Option String

/-- A paper with an error that would lose its price. -/
structure ReapplySkip where
  resultId : String
  ruleKeys : List String
deriving DecidableEq, Repr

structure ReapplyPlan (K : Type) where
  items : List (ReapplyItem K)
  skipped : List ReapplySkip
  priceVersionId : Option String

/-- What the plan says of one paper. -/
inductive PlannedRow (K : Type)
  | skip (s : ReapplySkip)
  | unchanged
  | change (item : ReapplyItem K)

def PlannedRow.item? : PlannedRow K → Option (ReapplyItem K)
  | .change item => some item
  | _ => none

def PlannedRow.skip? : PlannedRow K → Option ReapplySkip
  | .skip s => some s
  | _ => none

namespace Db

variable (db : Db K)

/-- The computation that a paper was published with. -/
def finalizedComputation (r : ResultRow) : Option (ComputationRow K) :=
  r.finalizedComputationId.bind (rowOf ComputationRow.id db.computations)

/-- The names of the rubrics that the papers of a session were graded by. -/
def usedRubrics (sessionId : String) : List String :=
  (db.resultsOfSession sessionId).filterMap fun p =>
    (db.rubric p.1.rubricIdVersion).map RubricRow.name

/-- The prices of one rubric in a table. -/
def pricesIn (v : PriceVersionRow) (rubricName : String) : OrderedMap String (Option Int) :=
  .ofList <| (db.rubricErrorsOf rubricName).filterMap fun re =>
    (rowOf PriceRow.rubricErrorId v.prices re.id).map fun p => (re.errorRuleId, p.deduction)

/-- `pricesByRubric`: the newest prices of the rubrics in use in the session. -/
def pricesByRubric (sessionId rubricName : String) : OrderedMap String (Option Int) :=
  match db.currentPriceVersion with
  | none => .empty
  | some v => if rubricName ∈ db.usedRubrics sessionId then db.pricesIn v rubricName else .empty

/-- The papers that the plan is about, `ORDER BY g.id`, with the computation
that they were published with and its score. -/
def reapplyRows (sessionId : String) : List (ResultRow × ComputationRow K × Int) :=
  ((db.papersOf sessionId).filter fun r =>
      r.pipeline = .investigator ∧ db.hasManualScore r.id = false).filterMap fun r =>
    (db.finalizedComputation r).bind fun fc => fc.score.map fun score => (r, fc, score)

def planRow (sessionId : String) (row : ResultRow × ComputationRow K × Int) :
    Except Failure (PlannedRow K) :=
  let (r, fc, oldScore) := row
  match db.loadScoreContext r.id none with
  | .error failure => .error failure
  | .ok ctx =>
    match repriceBreakdown fc.breakdown ctx.rubric
        (db.pricesByRubric sessionId ctx.rubricName) with
    | .error message => .error (.error message)
    | .ok re =>
      if re.newlyUnpriced ≠ [] then .ok (.skip ⟨r.id, re.newlyUnpriced.map Prod.snd⟩)
      else if oldScore = re.scoreHundredths then .ok .unchanged
      else
        .ok <| .change
          { resultId := r.id
            oldScore := oldScore
            newScore := re.scoreHundredths
            changedRules := changedRules fc.breakdown re.breakdown
            ctx := ctx
            breakdown := re.breakdown
            oldComputationId := fc.id
            oldPriceId := fc.priceTableVersionId }

/-- What stands in the way of a plan. -/
def reapplyObstacle (sessionId : String) : Option Failure :=
  if (db.session sessionId).isNone then some (.notFound "Không tìm thấy phiên thi")
  else if (db.resultsOfSession sessionId = [] ∨ ∃ p ∈ db.resultsOfSession sessionId,
      p.1.status ≠ .finalized ∧ p.1.status ≠ .exported) then
    some (.conflict "Phiên chưa chốt — giá mới đã tự áp cho phiên chưa chốt")
  else none

def planReapply (sessionId : String) : Except Failure (ReapplyPlan K) := do
  match db.reapplyObstacle sessionId with
  | some failure => throw failure
  | none =>
    let planned ← (db.reapplyRows sessionId).mapM (db.planRow sessionId)
    return {
      items := planned.filterMap PlannedRow.item?
      skipped := planned.filterMap PlannedRow.skip?
      priceVersionId := db.currentPriceVersion.map PriceVersionRow.id }

end Db

/-! ## The operation -/

/-- One paper takes its new score. -/
def reapplyItem (env : GradingEnv K) (item : ReapplyItem K) : DbTx K Unit := do
  let computationId ← insertComputation env item.ctx .finalizedReapply
    { outcome := .flagged
      ungradable := none
      scoreHundredths := some item.newScore
      breakdown := item.breakdown }
  modify fun db =>
    db.updateResult item.resultId fun r => { r with finalizedComputationId := some computationId }
  modify fun db => { db with
    auditLog := db.auditLog ++
      [{ action := "grading_result.score_reapplied_after_finalize"
         targetId := item.resultId
         oldScore := some item.oldScore
         newScore := some item.newScore }] }

/-- `reapplyFinalizedSession`; the answer is how many scores changed. -/
def reapplyFinalizedSession (env : GradingEnv K) (sessionId : String) : PublishTx K Nat := do
  let s ← get
  let plan ← liftM (s.db.planReapply sessionId)
  if plan.skipped ≠ [] then
    throw (.conflict
      (s!"{plan.skipped.length} bài dính luật lúc chốt có giá mà nay chưa có giá " ++
        "— đặt giá trước khi áp cho phiên đã chốt."))
  onTables (plan.items.forM (reapplyItem env))
  modify fun s => { s with pinned := Function.update s.pinned sessionId plan.priceVersionId }
  return plan.items.length

/-! ## The tables while the plan is carried out -/

def withComputation (given : String → Option String) (r : ResultRow) : ResultRow :=
  { r with finalizedComputationId := (given r.id).or r.finalizedComputationId }

/-- The tables after the papers `processed` of the plan, from the tables `db`;
`given` has the computations that were written. -/
structure Reapplied (db : Db K) (processed : List (ReapplyItem K))
    (given : String → Option String) (s : Db K) : Prop where
  tables : s = { db with
    results := db.results.map (withComputation given)
    computations := s.computations
    auditLog := s.auditLog
    drawnIds := s.drawnIds }
  isGiven : ∀ id, (given id).isSome ↔ id ∈ processed.map ReapplyItem.resultId
  written : ∀ id c, given id = some c → ∃ item ∈ processed, item.resultId = id ∧
    ∃ row, rowOf ComputationRow.id s.computations c = some row ∧
      row.breakdown = item.breakdown ∧ row.score = some item.newScore
  kept : ∀ c row, rowOf ComputationRow.id db.computations c = some row →
    rowOf ComputationRow.id s.computations c = some row

theorem insertComputation_fresh (env : GradingEnv K) (ctx : ScoreContext K)
    (reason : ComputationReason) (out : ScoreCoreOutput K) (s : Db K) :
    Ensures (insertComputation env ctx reason out) s fun id s' =>
      id ∉ s.computations.map ComputationRow.id ∧ ∃ row : ComputationRow K, row.id = id ∧
        row.breakdown = out.breakdown ∧ row.score = out.scoreHundredths ∧
        s' = { s with computations := s.computations ++ [row], drawnIds := s'.drawnIds } := by
  rw [insertComputation]
  refine (freshId_spec env _ s).bind fun id s₁ h₁ => ?_
  obtain ⟨hfresh, rfl⟩ := h₁
  exact ensures_bind (ensures_modify (ensures_pure ⟨hfresh, _, rfl, rfl, rfl, rfl⟩))

section Loop

variable {env : GradingEnv K} {db s : Db K} {processed : List (ReapplyItem K)}
  {given : String → Option String} {sessionId : String}

theorem Reapplied.refl (db : Db K) : Reapplied db [] (fun _ => none) db where
  tables := by
    have hresults : db.results.map (withComputation fun _ => none) = db.results := by
      conv_rhs => rw [← List.map_id db.results]
      exact List.map_congr_left fun r _ => rfl
    rw [hresults]
  isGiven := by simp
  written := by simp
  kept := fun _ _ h => h

/-- One paper of the plan is carried out. -/
theorem reapplyItem_reapplied (h : Reapplied db processed given s) (item : ReapplyItem K) :
    Ensures (reapplyItem env item) s fun _ s' =>
      ∃ given', Reapplied db (processed ++ [item]) given' s' := by
  rw [reapplyItem]
  refine (insertComputation_fresh env _ _ _ s).bind fun id s₁ h₁ => ?_
  obtain ⟨hfresh, row, hid, hbreakdown, hscore, hs₁⟩ := h₁
  have hcomputations : s₁.computations = s.computations ++ [row] := by rw [hs₁]
  -- the new row is found under its id, and hides no row that was there
  have hnew : rowOf ComputationRow.id s₁.computations id = some row := by
    have hnone : rowOf ComputationRow.id s.computations id = none :=
      rowOf_eq_none.2 fun r hr he => hfresh (List.mem_map.2 ⟨r, hr, he⟩)
    rw [hcomputations, rowOf_append, hnone, Option.none_or, rowOf, List.find?_singleton]
    simp [hid]
  have hold : ∀ c row', rowOf ComputationRow.id s.computations c = some row' →
      rowOf ComputationRow.id s₁.computations c = some row' := by
    intro c row' hrow
    rw [hcomputations]
    exact rowOf_append_of_some _ hrow
  refine ensures_bind (ensures_modify (ensures_modify ?_))
  refine ⟨Function.update given item.resultId (some id), ?_, ?_, ?_, ?_⟩
  · have hresults : s₁.results = db.results.map (withComputation given) := by
      rw [hs₁, h.tables]
    have hupdate : updateRow ResultRow.id s₁.results item.resultId
        (fun r => { r with finalizedComputationId := some id }) =
          db.results.map
            (withComputation (Function.update given item.resultId (some id))) := by
      rw [hresults, updateRow, List.map_map]
      refine List.map_congr_left fun r _ => ?_
      show (if r.id = item.resultId then _ else _) = _
      unfold withComputation
      split_ifs with hr
      · rw [hr, Function.update_self, Option.some_or]
      · rw [Function.update_of_ne hr]
    have htables : s₁ = { db with
        results := s₁.results
        computations := s₁.computations
        auditLog := s₁.auditLog
        drawnIds := s₁.drawnIds } := by
      rw [hs₁, h.tables]
    unfold Db.updateResult
    rw [hupdate]
    conv_lhs => rw [htables]
  · intro id'
    rw [List.map_append, List.mem_append, List.map_singleton, List.mem_singleton, ← h.isGiven]
    by_cases hne : id' = item.resultId
    · subst hne
      simp
    · rw [Function.update_of_ne hne]
      simp [hne]
  · intro id' c hc
    by_cases hne : id' = item.resultId
    · subst hne
      rw [Function.update_self, Option.some.injEq] at hc
      subst hc
      exact ⟨item, List.mem_append_right _ (List.mem_singleton.2 rfl), rfl, row, hnew, hbreakdown,
        hscore⟩
    · rw [Function.update_of_ne hne] at hc
      obtain ⟨item', hitem', hid', row', hrow', hitem⟩ := h.written id' c hc
      exact ⟨item', List.mem_append_left _ hitem', hid', row', hold c row' hrow', hitem⟩
  · intro c row' hrow
    exact hold c row' (h.kept c row' hrow)

theorem ensures_onTables {α : Type} {m : DbTx K α} {s : PublishDb K} {Q : α → Db K → Prop}
    (h : Ensures m s.db Q) : Ensures (onTables m) s fun a s' => Q a s'.db := by
  intro a s' hrun
  unfold onTables at hrun
  cases hm : m s.db with
  | error e =>
    rw [hm] at hrun
    cases hrun
  | ok p =>
    rw [hm] at hrun
    cases hrun
    exact h p.1 p.2 hm

theorem reapplyItems_reapplied (h : Reapplied db processed given s)
    (items : List (ReapplyItem K)) :
    Ensures (items.forM (reapplyItem env)) s fun _ s' =>
      ∃ given', Reapplied db (processed ++ items) given' s' := by
  induction items generalizing processed given s with
  | nil =>
    rw [List.append_nil]
    exact ensures_pure ⟨given, h⟩
  | cons item items ih =>
    show Ensures (reapplyItem env item >>= fun _ => items.forM (reapplyItem env)) s _
    refine (reapplyItem_reapplied h item).bind fun _ s₁ h₁ => ?_
    obtain ⟨given₁, h₁⟩ := h₁
    rw [List.append_cons]
    exact ih h₁

/-! ## The plan after the plan -/

namespace Reapplied

theorem session (h : Reapplied db processed given s) (id : String) :
    s.session id = db.session id := by
  rw [h.tables]
  rfl

theorem resultsOfSession (h : Reapplied db processed given s) :
    s.resultsOfSession sessionId =
      (db.resultsOfSession sessionId).map fun p => (withComputation given p.1, p.2) := by
  rw [h.tables]
  unfold Db.resultsOfSession
  rw [List.filterMap_map, List.map_filterMap]
  refine List.filterMap_congr fun r _ => ?_
  show ((db.submission r.submissionId).bind fun s => if s.sessionId = sessionId then
    some (withComputation given r, s.studentMssv) else none) = _
  cases db.submission r.submissionId with
  | none => rfl
  | some sub =>
    simp only [Option.bind_some]
    split_ifs <;> rfl

theorem papersOf (h : Reapplied db processed given s) :
    s.papersOf sessionId = (db.papersOf sessionId).map (withComputation given) := by
  unfold Db.papersOf sortByKey
  rw [h.resultsOfSession, List.map_map, List.map_insertionSort _
    (fun a b : ResultRow => a.id ≤ b.id) (withComputation given)]
  · rw [List.map_map]
    rfl
  · exact fun _ _ _ _ => Iff.rfl

theorem loadScoreContext (h : Reapplied db processed given s) (id : String) :
    s.loadScoreContext id none = db.loadScoreContext id none := by
  have hresult : s.result id = (db.result id).map (withComputation given) := by
    rw [h.tables]
    unfold Db.result rowOf
    rw [List.find?_map]
    rfl
  unfold Db.loadScoreContext
  rw [hresult, h.tables]
  cases db.result id with
  | none => rfl
  | some r => rfl

theorem pricesByRubric (h : Reapplied db processed given s) (rubricName : String) :
    s.pricesByRubric sessionId rubricName = db.pricesByRubric sessionId rubricName := by
  have hused : s.usedRubrics sessionId = db.usedRubrics sessionId := by
    unfold Db.usedRubrics
    rw [h.resultsOfSession, List.filterMap_map, h.tables]
    rfl
  unfold Db.pricesByRubric
  rw [hused, h.tables]
  rfl

theorem reapplyObstacle (h : Reapplied db processed given s) :
    s.reapplyObstacle sessionId = db.reapplyObstacle sessionId := by
  unfold Db.reapplyObstacle
  rw [h.session, h.resultsOfSession]
  simp only [List.map_eq_nil_iff, List.mem_map, exists_exists_and_eq_and]
  rfl

end Reapplied

theorem Reapplied.planRow (h : Reapplied db processed given s) (r : ResultRow)
    (fc : ComputationRow K) (oldScore : Int) :
    s.planRow sessionId (withComputation given r, fc, oldScore) =
      db.planRow sessionId (r, fc, oldScore) := by
  have hid : (withComputation given r).id = r.id := rfl
  unfold Db.planRow
  simp only [hid, h.loadScoreContext, h.pricesByRubric]

theorem planRow_change {r : ResultRow} {fc : ComputationRow K} {oldScore : Int}
    {item : ReapplyItem K} (h : db.planRow sessionId (r, fc, oldScore) = .ok (.change item)) :
    ∃ ctx re, db.loadScoreContext r.id none = .ok ctx ∧
      repriceBreakdown fc.breakdown ctx.rubric (db.pricesByRubric sessionId ctx.rubricName) =
        .ok re ∧
      item.resultId = r.id ∧ item.breakdown = re.breakdown ∧
      item.newScore = re.scoreHundredths := by
  unfold Db.planRow at h
  dsimp only at h
  cases hctx : db.loadScoreContext r.id none with
  | error failure =>
    rw [hctx] at h
    cases h
  | ok ctx =>
    rw [hctx] at h
    dsimp only at h
    cases hre : repriceBreakdown fc.breakdown ctx.rubric
        (db.pricesByRubric sessionId ctx.rubricName) with
    | error message =>
      rw [hre] at h
      cases h
    | ok re =>
      rw [hre] at h
      dsimp only at h
      split_ifs at h with hnew hscore
      · cases h
      · cases h
      · cases h
        exact ⟨ctx, re, rfl, hre, rfl, rfl, rfl⟩

theorem planRow_unchanged {r : ResultRow} {fc : ComputationRow K} {ctx : ScoreContext K}
    {re : Repriced K} {before : ScoreBreakdown K} (hctx : db.loadScoreContext r.id none = .ok ctx)
    (hre : repriceBreakdown before ctx.rubric (db.pricesByRubric sessionId ctx.rubricName) = .ok re)
    (hbreakdown : fc.breakdown = re.breakdown) :
    db.planRow sessionId (r, fc, re.scoreHundredths) = .ok .unchanged := by
  obtain ⟨again, hagain, hscore, _, hnew⟩ := reprice_same hre
  unfold Db.planRow
  simp only [hctx, hbreakdown, hagain, hnew, hscore, ne_eq, not_true_eq_false, if_false, if_true]

/-- Every paper was published with a computation that is there, as the foreign
key of the column says. -/
def FinalizedExist (db : Db K) : Prop :=
  ∀ r ∈ db.results, ∀ c, r.finalizedComputationId = some c →
    (rowOf ComputationRow.id db.computations c).isSome

theorem planReapply_ok {plan : ReapplyPlan K} (h : db.planReapply sessionId = .ok plan) :
    db.reapplyObstacle sessionId = none ∧
      ∃ planned, (db.reapplyRows sessionId).mapM (db.planRow sessionId) = .ok planned ∧
        plan.items = planned.filterMap PlannedRow.item? ∧
        plan.skipped = planned.filterMap PlannedRow.skip? := by
  unfold Db.planReapply at h
  cases hob : db.reapplyObstacle sessionId with
  | some failure =>
    rw [hob] at h
    cases h
  | none =>
    rw [hob] at h
    obtain ⟨planned, hplanned, h⟩ := bind_eq_ok.1 h
    cases h
    exact ⟨rfl, planned, hplanned, rfl, rfl⟩

theorem planRow_of_reapplied {plan : ReapplyPlan K} (hfk : FinalizedExist db)
    (hplan : db.planReapply sessionId = .ok plan) (hskip : plan.skipped = [])
    (h : Reapplied db plan.items given s) {row : ResultRow × ComputationRow K × Int}
    (hrow : row ∈ s.reapplyRows sessionId) : s.planRow sessionId row = .ok .unchanged := by
  obtain ⟨_, planned, hplanned, hitems, hskipped⟩ := planReapply_ok hplan
  obtain ⟨r', hr', hrow⟩ := List.mem_filterMap.1 hrow
  obtain ⟨fc, hfc, hrow⟩ := Option.bind_eq_some_iff.1 hrow
  obtain ⟨score, hscore, rfl⟩ := Option.map_eq_some_iff.1 hrow
  rw [List.mem_filter, h.papersOf] at hr'
  obtain ⟨hmem, hkind⟩ := hr'
  obtain ⟨r, hr, rfl⟩ := List.mem_map.1 hmem
  rw [h.planRow]
  obtain ⟨c, hc, hfc⟩ := Option.bind_eq_some_iff.1 hfc
  have hgiven : (given r.id).or r.finalizedComputationId = some c := hc
  cases hg : given r.id with
  | some c' =>
    -- the paper was given its computation by an item of the plan
    rw [hg, Option.some_or, Option.some.injEq] at hgiven
    subst hgiven
    obtain ⟨item, hitem, hid, row, hrow, hbreakdown, hnew⟩ := h.written r.id c' hg
    rw [hrow, Option.some.injEq] at hfc
    subst hfc
    rw [hitems, List.mem_filterMap] at hitem
    obtain ⟨p, hp, hpitem⟩ := hitem
    obtain ⟨⟨r₀, fc₀, score₀⟩, _, hplan₀⟩ := exists_of_mapM hplanned hp
    cases p with
    | skip _ => cases hpitem
    | unchanged => cases hpitem
    | change item' =>
      cases hpitem
      obtain ⟨ctx, re, hctx, hre, hid₀, hbreakdown₀, hnew₀⟩ := planRow_change hplan₀
      rw [← hid₀, hid] at hctx
      rw [hnew, Option.some.injEq, hnew₀] at hscore
      subst hscore
      exact planRow_unchanged hctx hre (hbreakdown.trans hbreakdown₀)
  | none =>
    -- the paper has the computation that the plan saw, and the plan leaves it alone
    rw [hg, Option.none_or] at hgiven
    have hin : r ∈ db.results := by
      obtain ⟨q, hq, rfl⟩ := List.mem_map.1 (mem_sortByKey.1 hr)
      obtain ⟨r₀, hr₀, hq⟩ := List.mem_filterMap.1 hq
      obtain ⟨sub, _, hq⟩ := Option.bind_eq_some_iff.1 hq
      split_ifs at hq
      cases hq
      exact hr₀
    obtain ⟨fc₀, hfc₀⟩ := Option.isSome_iff_exists.1 (hfk r hin c hgiven)
    obtain rfl : fc₀ = fc := by
      rw [h.kept c fc₀ hfc₀, Option.some.injEq] at hfc
      exact hfc
    have hold : (r, fc₀, score) ∈ db.reapplyRows sessionId := by
      refine List.mem_filterMap.2 ⟨r, List.mem_filter.2 ⟨hr, ?_⟩, ?_⟩
      · rw [h.tables] at hkind
        exact hkind
      · unfold Db.finalizedComputation
        rw [hgiven, Option.bind_some, hfc₀, Option.bind_some, hscore]
        rfl
    obtain ⟨p, hp, hplanned₀⟩ := exists_result_of_mapM hplanned hold
    rw [hplanned₀]
    cases p with
    | unchanged => rfl
    | skip skipped =>
      have hmem : skipped ∈ plan.skipped := by
        rw [hskipped]
        exact List.mem_filterMap.2 ⟨_, hp, rfl⟩
      rw [hskip] at hmem
      cases hmem
    | change item =>
      have hmem : item ∈ plan.items := by
        rw [hitems]
        exact List.mem_filterMap.2 ⟨_, hp, rfl⟩
      obtain ⟨_, _, _, _, hid, _⟩ := planRow_change hplanned₀
      have hsome := (h.isGiven r.id).2 (List.mem_map.2 ⟨item, hmem, hid⟩)
      rw [hg] at hsome
      cases hsome

theorem planReapply_of_reapplied {plan : ReapplyPlan K} (hfk : FinalizedExist db)
    (hplan : db.planReapply sessionId = .ok plan) (hskip : plan.skipped = [])
    (h : Reapplied db plan.items given s) :
    ∃ again, s.planReapply sessionId = .ok again ∧ again.items = [] ∧ again.skipped = [] := by
  have hrows := mapM_eq_ok (g := fun _ => PlannedRow.unchanged)
    fun row hrow => planRow_of_reapplied hfk hplan hskip h hrow
  have hobstacle : s.reapplyObstacle sessionId = none := by
    rw [h.reapplyObstacle]
    exact (planReapply_ok hplan).1
  unfold Db.planReapply
  rw [hobstacle, hrows]
  refine ⟨_, rfl, ?_, ?_⟩
  · refine List.filterMap_eq_nil_iff.2 fun p hp => ?_
    obtain ⟨_, _, rfl⟩ := List.mem_map.1 hp
    rfl
  · refine List.filterMap_eq_nil_iff.2 fun p hp => ?_
    obtain ⟨_, _, rfl⟩ := List.mem_map.1 hp
    rfl

end Loop

/-- Repricing forgets its history.  A breakdown that was priced before takes
new prices like the one it came from, and the same prices change nothing; so
after a session has taken its new prices there is nothing left to plan. -/
theorem reprice_forgets_history (env : GradingEnv K) :
    (∀ (before : ScoreBreakdown K) (rubric : List RubricCriterion)
        (prices prices' : OrderedMap String (Option Int)) (once : Repriced K),
        repriceBreakdown before rubric prices = .ok once →
        (repriceBreakdown once.breakdown rubric prices').map Repriced.outcome =
          (repriceBreakdown before rubric prices').map Repriced.outcome) ∧
      (∀ (before : ScoreBreakdown K) (rubric : List RubricCriterion)
        (prices : OrderedMap String (Option Int)) (once : Repriced K),
        repriceBreakdown before rubric prices = .ok once →
        ∃ again, repriceBreakdown once.breakdown rubric prices = .ok again ∧
          again.scoreHundredths = once.scoreHundredths ∧ again.breakdown = once.breakdown ∧
          again.newlyUnpriced = []) ∧
      ∀ (s s' : PublishDb K) (sessionId : String) (changed : Nat), FinalizedExist s.db →
        reapplyFinalizedSession env sessionId s = .ok (changed, s') →
        ∃ plan, s'.db.planReapply sessionId = .ok plan ∧ plan.items = [] ∧ plan.skipped = [] := by
  refine ⟨fun _ _ _ _ _ h => reprice_reprice h, fun _ _ _ _ h => reprice_same h, ?_⟩
  intro s s' sessionId changed hfk hrun
  suffices Ensures (reapplyFinalizedSession env sessionId) s fun _ s' =>
      ∃ plan, s'.db.planReapply sessionId = .ok plan ∧ plan.items = [] ∧ plan.skipped = [] from
    this changed s' hrun
  rw [reapplyFinalizedSession]
  refine ensures_bind (ensures_get ?_)
  refine ensures_bind (ensures_lift fun plan hplan => ?_)
  refine ensures_ite (fun _ => ensures_bind ensures_throw) fun hskip => ?_
  rw [ne_eq, not_not] at hskip
  refine (ensures_onTables (reapplyItems_reapplied (.refl s.db) plan.items)).bind fun _ s₁ h₁ => ?_
  obtain ⟨given, h₁⟩ := h₁
  exact ensures_bind (ensures_modify (ensures_pure
    (planReapply_of_reapplied hfk hplan hskip h₁)))

/-- A session whose only paper was published with a deduction of 30, which the
newest price table puts at 40. -/
def dearerSession : Db ℚ :=
  { twoQuestions with
    rubricErrors := [⟨"re1", "Nhập môn", "rule1", "correctness", false⟩]
    priceVersions := [⟨"pv1", 1, [⟨"re1", some 30⟩]⟩, ⟨"pv2", 2, [⟨"re1", some 40⟩]⟩]
    results := [{ secondPaper with status := .finalized, finalizedComputationId := some "c1" }]
    computations :=
      [{ id := "c1"
         gradingResultId := "r2"
         attemptId := "a2"
         priceTableVersionId := some "pv1"
         rubricIdVersion := "rb"
         testBundleId := some "b2"
         reason := .initial
         score := some 70
         breakdown :=
          { errors := [⟨"rule1", "v1", "naming", "correctness", .llmOnly, [], some 30, .counted⟩]
            perCriterion := [⟨"correctness", 100, 30, false⟩]
            caseFlags := []
            errorFlags := []
            confidence := some 1
            mismatchedRules := []
            notConsidered := []
            ungradable := none } }] }

theorem dearerSession_takes_prices_once :
    ∃ s' plan, reapplyFinalizedSession plainEnv "s1"
        ⟨dearerSession, fun _ => none, fun _ => none⟩ = .ok (1, s') ∧
      s'.db.planReapply "s1" = .ok plan ∧ plan.items = [] := by
  have hrun : (reapplyFinalizedSession plainEnv "s1"
      ⟨dearerSession, fun _ => none, fun _ => none⟩).toOption.map Prod.fst = some 1 := by
    decide
  have hfk : FinalizedExist dearerSession := by
    intro r hr c hc
    obtain rfl := List.mem_singleton.1 hr
    cases hc
    rfl
  cases hok : reapplyFinalizedSession plainEnv "s1"
      ⟨dearerSession, fun _ => none, fun _ => none⟩ with
  | error failure =>
    rw [hok] at hrun
    cases hrun
  | ok p =>
    obtain ⟨changed, s'⟩ := p
    rw [hok] at hrun
    obtain rfl : changed = 1 := Option.some.inj hrun
    obtain ⟨plan, hplan, hitems, _⟩ :=
      (reprice_forgets_history plainEnv).2.2 _ s' "s1" 1 hfk hok
    exact ⟨s', plan, rfl, hplan, hitems⟩

end Cine.Grading
