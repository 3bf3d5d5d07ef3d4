import Cine.Grading.Rules.RuleEdits
import Cine.Grading.Scoring.OwnRuler
import Cine.Grading.Scoring.ScoreView

/-!
# Scores that are up to date

A paper is open when the machine has graded it, it is not published, and no
teacher has given it a score by hand.  `Db.UpToDate` says that the newest
computation of a paper is what `computeScore` gives now.

* `Consistent` is the invariant of a run: every open paper is up to date,
  but for those that an operation has not recomputed yet.
* `SamePaper` says that a step leaves a paper alone, and `KeepsView` that it
  changes nothing that the view of its score reads.  `PaperOk.carry` puts
  the two together.
-/

namespace Cine.Grading

open Cine.Lib

variable {K : Type}

/-! ## Open papers -/

namespace Db

variable (db : Db K)

def currentAttempt (r : ResultRow) : Option (AttemptRow K) := r.currentAttemptId.bind db.attempt

/-- The current attempt of a paper ended with a score. -/
def IsGraded (r : ResultRow) : Prop :=
  ∃ a, db.currentAttempt r = some a ∧ a.outcome = some .graded

/-- A paper graded by the investigator, not published, without a score by
hand. -/
structure IsOpen (r : ResultRow) : Prop where
  pipeline : r.pipeline = .investigator
  graded : db.IsGraded r
  unpublished : r.status.isPublished = false
  unmarked : db.hasManualScore r.id = false

/-! ## What a score is computed from -/

/-- The rows behind a graded paper. -/
structure PaperRows (r : ResultRow) (session : SessionRow) (rubric : RubricRow)
    (stored : StoredInvestigation K) : Prop where
  session : db.sessionOf r = some session
  rubric : db.rubric r.rubricIdVersion = some rubric
  stored : db.gradedInvestigation r = some stored

/-- The stored investigation of a paper with the rules, prices, marked
criteria and exceptions of now, on the cases `cases`. -/
def paperInput (env : GradingEnv K) (r : ResultRow) (session : SessionRow) (rubric : RubricRow)
    (stored : StoredInvestigation K) (cases : List BundleCase) : ScoreCoreInput K :=
  { stored := stored
    bundleCases := cases
    rubric := rubric.criteria
    rules := db.snapshots rubric.name
    waivedCriteria := db.waivedCriteria r.rubricIdVersion
    exceptions := db.exceptionsOf r.id
    theta := env.theta
    rulerTrust := session.rulerTrust
    autoBlockedRuleKeys := some (env.autoBlockedKeys ++ db.openBreakerRuleKeys)
    autoNoErrorEnabled := some (env.autoNoErrorEnabled && !db.noErrorBreakerOpen) }

end Db

/-- The score of a computation and the errors behind it. -/
def ComputationRow.view (c : ComputationRow K) : ScoreView :=
  { score := c.score
    errors := c.breakdown.errors.map BreakdownError.sansRevision }

namespace Db

variable (db : Db K)

/-- The newest computation of `r` has the score and the errors that
`computeScore` gives now, on the cases of the question of `r`. -/
def UpToDate [Number K] (env : GradingEnv K) (r : ResultRow) : Prop :=
  ∃ session rubric stored out c, db.PaperRows r session rubric stored ∧
    (db.paperInput env r session rubric stored (db.ownCases r session.id)).computeScore = .ok out ∧
    db.latestComputation r.id = some c ∧ c.view = out.view

/-- The view of the score of `r` now, for a run. -/
def currentView [Number K] (env : GradingEnv K) (r : ResultRow) : Option ScoreView :=
  (db.sessionOf r).bind fun session =>
    (db.rubric r.rubricIdVersion).bind fun rubric =>
      (db.gradedInvestigation r).bind fun stored =>
        (db.paperInput env r session rubric stored
          (db.ownCases r session.id)).computeScore.toOption.map ScoreCoreOutput.view

theorem UpToDate.currentView_eq [Number K] {db : Db K} {env : GradingEnv K} {r : ResultRow}
    (h : db.UpToDate env r) :
    (db.latestComputation r.id).map ComputationRow.view = db.currentView env r := by
  obtain ⟨session, rubric, stored, out, c, hrows, hout, hc, hview⟩ := h
  rw [currentView, hrows.session, Option.bind_some, hrows.rubric, Option.bind_some, hrows.stored,
    Option.bind_some, hout, hc, Option.map_some, hview]
  rfl

/-- The paper is judged with the cases it was measured with. -/
def OneRuler (r : ResultRow) : Prop :=
  ∀ session, db.sessionOf r = some session → db.ownCases r session.id = db.firstCases session.id

end Db

/-! ## The invariant -/

/-- The statuses that the machine has left behind. -/
def ResultStatus.isSettled (s : ResultStatus) : Bool := s ≠ .aiGrading ∧ s ≠ .aiGraded

/-- What the invariant says of one paper.  `stale` excuses a paper that is
still to be recomputed. -/
structure PaperOk [Number K] (env : GradingEnv K) (stale : Prop) (db : Db K) (r : ResultRow) :
    Prop where
  owner : ∀ id, r.currentAttemptId = some id →
    ∃ a, db.attempt id = some a ∧ a.gradingResultId = r.id
  settled : db.IsGraded r → r.status.isSettled = true ∧ r.ungradable = none
  ruler : db.IsOpen r → db.OneRuler r
  upToDate : db.IsOpen r → ¬ stale → db.UpToDate env r

/-- The invariant of a run. -/
structure Consistent [Number K] (env : GradingEnv K) (stale : String → Prop) (db : Db K) :
    Prop where
  tidy : Tidy db
  ids : (db.results.map ResultRow.id).Nodup
  submissions : (db.results.map ResultRow.submissionId).Nodup
  papers : ∀ r ∈ db.results, PaperOk env (stale r.id) db r

/-! ## Steps that leave a paper alone -/

/-- A move of the status that neither takes a paper back to the machine nor
takes a publication back. -/
structure QuietMove (r r' : ResultRow) : Prop where
  row : r' = { r with
    status := r'.status
    flagForReview := r'.flagForReview
    auditSampled := r'.auditSampled
    finalizedComputationId := r'.finalizedComputationId }
  settled : r.status.isSettled = true → r'.status.isSettled = true
  published : r.status.isPublished = true → r'.status.isPublished = true

namespace QuietMove

variable {r r' r'' : ResultRow}

theorem refl (r : ResultRow) : QuietMove r r := ⟨rfl, id, id⟩

theorem trans (h : QuietMove r r') (h' : QuietMove r' r'') : QuietMove r r'' := by
  refine ⟨?_, h'.settled ∘ h.settled, h'.published ∘ h.published⟩
  have hrow := h'.row
  rw [h.row] at hrow
  exact hrow

theorem id_eq (h : QuietMove r r') : r'.id = r.id := by rw [h.row]

end QuietMove

/-- `r'` in `db'` is the paper `r` of `db`, with the same attempt and the
same newest computation. -/
structure SamePaper (db db' : Db K) (r r' : ResultRow) : Prop where
  move : QuietMove r r'
  attempt : db'.currentAttempt r = db.currentAttempt r
  latest : db'.latestComputation r.id = db.latestComputation r.id
  manual : db.hasManualScore r.id = true → db'.hasManualScore r.id = true
  session : (db'.sessionOf r).map SessionRow.id = (db.sessionOf r).map SessionRow.id
  rubric : db'.rubric r.rubricIdVersion = db.rubric r.rubricIdVersion
  own : db.IsOpen r → ∀ session, db.sessionOf r = some session →
    db'.ownCases r session.id = db.ownCases r session.id
  first : db.IsOpen r → ∀ session, db.sessionOf r = some session →
    db'.firstCases session.id = db.firstCases session.id

/-- The view of a score of `r` is the same in both databases. -/
def KeepsView [Number K] (env : GradingEnv K) (db db' : Db K) (r : ResultRow) : Prop :=
  ∀ session session' rubric stored cases out c, db.PaperRows r session rubric stored →
    (db.paperInput env r session rubric stored cases).computeScore = .ok out →
    db.latestComputation r.id = some c → c.view = out.view →
    ∃ out', (db'.paperInput env r session' rubric stored cases).computeScore = .ok out' ∧
      out.view = out'.view

namespace SamePaper

variable {db db' : Db K} {r r' : ResultRow}

theorem currentAttempt_eq (h : SamePaper db db' r r') :
    db'.currentAttempt r' = db.currentAttempt r := by
  rw [← h.attempt, h.move.row]
  rfl

theorem isGraded (h : SamePaper db db' r r') (hgraded : db'.IsGraded r') : db.IsGraded r := by
  rw [Db.IsGraded, h.currentAttempt_eq] at hgraded
  exact hgraded

theorem isOpen (h : SamePaper db db' r r') (hopen : db'.IsOpen r') : db.IsOpen r := by
  refine ⟨?_, h.isGraded hopen.graded, ?_, ?_⟩
  · have hpipeline := hopen.pipeline
    rw [h.move.row] at hpipeline
    exact hpipeline
  · refine Bool.eq_false_iff.2 fun hp => ?_
    exact Bool.eq_false_iff.1 hopen.unpublished (h.move.published hp)
  · refine Bool.eq_false_iff.2 fun hm => ?_
    have hmarked := h.manual hm
    have hunmarked := hopen.unmarked
    rw [h.move.id_eq, hmarked] at hunmarked
    cases hunmarked

theorem gradedInvestigation_eq (h : SamePaper db db' r r') :
    db'.gradedInvestigation r' = db.gradedInvestigation r := by
  show (db'.currentAttempt r').bind _ = (db.currentAttempt r).bind _
  rw [h.currentAttempt_eq]

theorem sessionOf_eq (h : SamePaper db db' r r') : db'.sessionOf r' = db'.sessionOf r := by
  rw [h.move.row]
  rfl

theorem session_left (h : SamePaper db db' r r') {session' : SessionRow}
    (hs : db'.sessionOf r' = some session') :
    ∃ session, db.sessionOf r = some session ∧ session'.id = session.id := by
  rw [h.sessionOf_eq] at hs
  have hid := h.session
  rw [hs, Option.map_some, eq_comm, Option.map_eq_some_iff] at hid
  obtain ⟨session, hsession, hsame⟩ := hid
  exact ⟨session, hsession, hsame.symm⟩

theorem session_right (h : SamePaper db db' r r') {session : SessionRow}
    (hs : db.sessionOf r = some session) :
    ∃ session', db'.sessionOf r' = some session' ∧ session'.id = session.id := by
  rw [h.sessionOf_eq]
  have hid := h.session
  rw [hs, Option.map_some, Option.map_eq_some_iff] at hid
  exact hid

theorem ownCases_eq (h : SamePaper db db' r r') (sessionId : String) :
    db'.ownCases r' sessionId = db'.ownCases r sessionId := by
  rw [h.move.row]
  rfl

theorem oneRuler (h : SamePaper db db' r r') (hopen : db.IsOpen r) (hruler : db.OneRuler r) :
    db'.OneRuler r' := by
  intro session' hs'
  obtain ⟨session, hs, hid⟩ := h.session_left hs'
  rw [hid, h.ownCases_eq, h.own hopen session hs, h.first hopen session hs]
  exact hruler session hs

variable [Number K] {env : GradingEnv K}

theorem upToDate (h : SamePaper db db' r r') (hopen : db.IsOpen r)
    (hview : KeepsView env db db' r) (hup : db.UpToDate env r) : db'.UpToDate env r' := by
  obtain ⟨session, rubric, stored, out, c, hrows, hout, hc, hcview⟩ := hup
  obtain ⟨session', hs', hid⟩ := h.session_right hrows.session
  obtain ⟨out', hout', hsame⟩ := hview session session' rubric stored _ out c hrows hout hc hcview
  refine ⟨session', rubric, stored, out', c, ⟨hs', ?_, ?_⟩, ?_, ?_, hcview.trans hsame⟩
  · have hrubric := h.rubric
    rw [hrows.rubric] at hrubric
    rw [h.move.row]
    exact hrubric
  · rw [h.gradedInvestigation_eq]
    exact hrows.stored
  · rw [hid, h.ownCases_eq, h.own hopen session hrows.session, ← hout', h.move.row]
    rfl
  · rw [h.move.id_eq, h.latest]
    exact hc

end SamePaper

section Carry

variable [Number K] {env : GradingEnv K} {db db' : Db K}

variable {r : ResultRow}

theorem PaperOk.carry {stale stale' : Prop} {r' : ResultRow} (h : PaperOk env stale db r)
    (hsame : SamePaper db db' r r')
    (howner : ∀ id a, r.currentAttemptId = some id → db.attempt id = some a →
      a.gradingResultId = r.id → db'.attempt id = some a)
    (hview : db.IsOpen r → ¬ stale' → ¬ stale ∧ KeepsView env db db' r) :
    PaperOk env stale' db' r' := by
  constructor
  · intro id hid
    have hid' : r.currentAttemptId = some id := by
      rw [hsame.move.row] at hid
      exact hid
    obtain ⟨a, ha, hresult⟩ := h.owner id hid'
    exact ⟨a, howner id a hid' ha hresult, hresult.trans hsame.move.id_eq.symm⟩
  · intro hgraded
    obtain ⟨hsettled, hnone⟩ := h.settled (hsame.isGraded hgraded)
    refine ⟨hsame.move.settled hsettled, ?_⟩
    rw [hsame.move.row]
    exact hnone
  · intro hopen
    exact hsame.oneRuler (hsame.isOpen hopen) (h.ruler (hsame.isOpen hopen))
  · intro hopen hstale
    obtain ⟨hfresh, hkeeps⟩ := hview (hsame.isOpen hopen) hstale
    exact hsame.upToDate (hsame.isOpen hopen) hkeeps (h.upToDate (hsame.isOpen hopen) hfresh)

/-! ## Changes that keep the view -/

theorem keepsView_of_sameErrors (htidy' : Tidy db')
    (h : ∀ session session' rubric stored cases, db.PaperRows r session rubric stored →
      SameErrors (db.paperInput env r session rubric stored cases)
        (db'.paperInput env r session' rubric stored cases)) : KeepsView env db db' r := by
  intro session session' rubric stored cases out c hrows hout _ _
  obtain ⟨out', hout'⟩ : ∃ out',
      (db'.paperInput env r session' rubric stored cases).computeScore = .ok out' :=
    computeScore_isOk (htidy'.keys_nodup rubric.name)
  exact ⟨out', hout', (h session session' rubric stored cases hrows).view_eq hout hout'⟩

theorem keepsView_of_table (htidy : Tidy db) (htidy' : Tidy db')
    (htable : ∀ rubric, db.rubric r.rubricIdVersion = some rubric →
      db'.snapshots rubric.name = db.snapshots rubric.name)
    (hexceptions : db'.exceptionsOf r.id = db.exceptionsOf r.id) : KeepsView env db db' r := by
  refine keepsView_of_sameErrors htidy' fun session session' rubric stored cases hrows => ?_
  refine sameErrors_of_rules (htidy.keys_nodup rubric.name) rfl rfl rfl ?_ ?_
  · exact (htable rubric hrows.rubric).symm
  · exact hexceptions.symm

theorem keepsView_of_revised {ruleId revisionId : String} (htidy : Tidy db) (htidy' : Tidy db')
    (htable : ∀ name, db'.snapshots name =
      (db.snapshots name).map (RuleSnapshot.revised ruleId revisionId))
    (hexceptions : db'.exceptionsOf r.id = db.exceptionsOf r.id) : KeepsView env db db' r := by
  refine keepsView_of_sameErrors htidy' fun session session' rubric stored cases _ => ?_
  have hsansRevision : ∀ s : RuleSnapshot,
      (s.revised ruleId revisionId).sansRevision = s.sansRevision := by
    intro s
    rw [RuleSnapshot.revised]
    split_ifs
    · rfl
    · rfl
  have hfield : ∀ {β : Type} (g : RuleSnapshot → β),
      (∀ s : RuleSnapshot, g s.sansRevision = g s) →
        ∀ s : RuleSnapshot, g (s.revised ruleId revisionId) = g s := by
    intro β g hg s
    rw [← hg (s.revised ruleId revisionId), hsansRevision, hg]
  have hchanged : ChangedBy (RuleSnapshot.revised ruleId revisionId)
      (db.paperInput env r session rubric stored cases)
      (db'.paperInput env r session' rubric stored cases) :=
    { stored := rfl
      bundleCases := rfl
      rubric := rfl
      exceptions := hexceptions.symm
      rules := htable rubric.name
      ruleKey := hfield RuleSnapshot.ruleKey fun _ => rfl
      criterionKey := hfield RuleSnapshot.criterionKey fun _ => rfl
      predicate := hfield RuleSnapshot.predicate fun _ => rfl }
  exact hchanged.sameErrors (htidy.keys_nodup rubric.name) fun e _ => (hsansRevision _).symm

theorem keepsView_of_price {rubric : RubricRow} {ruleId : String} {deduction : Option Int}
    (htidy : Tidy db) (hrubric : db.rubric r.rubricIdVersion = some rubric)
    (htable : db'.snapshots rubric.name =
      (db.snapshots rubric.name).map (RuleSnapshot.priceOnly ruleId deduction))
    (hexceptions : db'.exceptionsOf r.id = db.exceptionsOf r.id)
    (hunused : ∀ c, db.latestComputation r.id = some c →
      ∀ e ∈ c.breakdown.errors, e.ruleId ≠ ruleId) : KeepsView env db db' r := by
  intro session session' rubric' stored cases out c hrows hout hc hview
  have hsame : rubric' = rubric := by
    have hrow := hrows.rubric
    rw [hrubric] at hrow
    exact (Option.some.inj hrow).symm
  subst hsame
  have hfield : ∀ {β : Type} (g : RuleSnapshot → β),
      (∀ s : RuleSnapshot, g { s with deductionHundredths := deduction } = g s) →
        ∀ s : RuleSnapshot, g (s.priceOnly ruleId deduction) = g s := by
    intro β g hg s
    rw [RuleSnapshot.priceOnly]
    split_ifs
    · exact hg s
    · rfl
  have hchanged : ChangedBy (RuleSnapshot.priceOnly ruleId deduction)
      (db.paperInput env r session rubric' stored cases)
      (db'.paperInput env r session' rubric' stored cases) :=
    { stored := rfl
      bundleCases := rfl
      rubric := rfl
      exceptions := hexceptions.symm
      rules := htable
      ruleKey := hfield RuleSnapshot.ruleKey fun _ => rfl
      criterionKey := hfield RuleSnapshot.criterionKey fun _ => rfl
      predicate := hfield RuleSnapshot.predicate fun _ => rfl }
  have hkeys := htidy.keys_nodup rubric'.name
  obtain ⟨out', hout'⟩ : ∃ out',
      (db'.paperInput env r session' rubric' stored cases).computeScore = .ok out' :=
    computeScore_isOk (hchanged.keys hkeys)
  refine ⟨out', hout', hchanged.view_eq hkeys hout hout' fun s hs => ?_⟩
  obtain ⟨e, he, hid⟩ := hs
  -- The newest computation has the same errors, and none of the priced rule.
  have hmem : e.sansRevision ∈ c.breakdown.errors.map BreakdownError.sansRevision := by
    have herrors : c.breakdown.errors.map BreakdownError.sansRevision =
        out.breakdown.errors.map BreakdownError.sansRevision := congrArg ScoreView.errors hview
    rw [herrors]
    exact List.mem_map_of_mem he
  obtain ⟨e', he', hsans⟩ := List.mem_map.1 hmem
  have hruleId : e'.ruleId = e.ruleId := by
    have hfields := congrArg BreakdownError.ruleId hsans
    exact hfields
  rw [RuleSnapshot.priceOnly, if_neg]
  rw [← hid, ← hruleId]
  exact hunused c hc e' he'

theorem keepsView_of_new_rule {rubric : RubricRow} {ruleKey criterionKey : String}
    {predicate : Option RulePredicate} (htidy' : Tidy db')
    (hrubric : db.rubric r.rubricIdVersion = some rubric)
    (hnew : NewRuleIn rubric.name ruleKey criterionKey predicate db db')
    (hexceptions : db'.exceptionsOf r.id = db.exceptionsOf r.id)
    (hwords : isMachineChecked predicate = false)
    (hharmless : ∀ stored, db.gradedInvestigation r = some stored →
      criterionKey ∈ rubric.criteria.map RubricCriterion.key →
      ruleKey ∈ (stored.ruleTable.filter (fun t => t.checkedBy = .model)).map RuleSeen.ruleKey →
      stored.names ruleKey = false) : KeepsView env db db' r := by
  refine keepsView_of_sameErrors htidy' fun session session' rubric' stored cases hrows => ?_
  have hsame : rubric' = rubric := by
    have hrow := hrows.rubric
    rw [hrubric] at hrow
    exact (Option.some.inj hrow).symm
  subst hsame
  refine sameErrors_of_new_rule (k := ruleKey) (htidy'.keys_nodup rubric'.name) rfl rfl rfl
    hnew.old.symm hexceptions.symm ?_ ?_
  · intro s hs hkey
    rw [(hnew.new s hs hkey).2]
    exact hwords
  · intro s hs hkey
    obtain ⟨hcriterion, hpredicate⟩ := hnew.new s ((used_sublist _).subset hs) hkey
    have hconsidered := (List.mem_filter.1 hs).2
    rw [ScoreCoreInput.considered, hpredicate, hwords, Bool.false_or, decide_eq_true_eq,
      hkey] at hconsidered
    refine hharmless stored hrows.stored ?_ hconsidered
    rw [← hcriterion]
    exact criterion_mem_of_used hs

end Carry

end Cine.Grading
