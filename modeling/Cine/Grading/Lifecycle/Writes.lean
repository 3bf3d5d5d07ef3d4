import Cine.Grading.Lifecycle.RowMoves
import Cine.Grading.Review.ReviewOperations

/-!
# What an operation writes

Every operation is a sequence of a few kinds of writes, and `Write` lists
them: an edit of the tables around the papers, a computation with the move
that follows it, a row of a teacher with its move, a publication, and what
happens to an attempt.  The writes of one constructor belong together: no
invariant below is asked for between them.

`Linked` is what the foreign keys and the unique indexes of the tables
promise.  Every write keeps it, so every invariant of a run needs one proof
for each constructor and nothing about the operations.
-/

namespace Cine.Grading

open Cine.Lib

variable {K : Type}

/-! ## The links between the tables -/

/-- The paper with an id is there. -/
def Db.HasResult (db : Db K) (id : String) : Prop := id ∈ db.results.map ResultRow.id

/-- The keys of the papers, the attempt that a paper points to, and the
papers that attempts, computations and scores by hand belong to. -/
structure Linked (db : Db K) : Prop where
  ids : (db.results.map ResultRow.id).Nodup
  submissions : (db.results.map ResultRow.submissionId).Nodup
  papers : (db.submissions.map SubmissionRow.id).Nodup
  current : ∀ r ∈ db.results, ∀ id, r.currentAttemptId = some id →
    ∃ a, db.attempt id = some a ∧ a.gradingResultId = r.id
  attempts : ∀ a ∈ db.attempts, db.HasResult a.gradingResultId
  computations : ∀ c ∈ db.computations, db.HasResult c.gradingResultId
  manual : ∀ id, db.hasManualScore id = true → db.HasResult id

/-! ## Edits around the papers -/

def KeepsRuleKeys (db db' : Db K) : Prop :=
  ∀ id rule, db.rule id = some rule → ∃ rule', db'.rule id = some rule' ∧ rule'.ruleKey = rule.ruleKey

/-- An edit that leaves the papers, their attempts and their computations
alone. -/
structure Edit (db db' : Db K) : Prop where
  tables : db' = { db with
    sessions := db'.sessions
    problems := db'.problems
    rules := db'.rules
    rubricErrors := db'.rubricErrors
    priceVersions := db'.priceVersions
    waivers := db'.waivers
    sightings := db'.sightings
    reviews := db'.reviews
    auditLog := db'.auditLog
    drawnIds := db'.drawnIds }
  manual : ∀ id, db'.hasManualScore id = db.hasManualScore id
  ruleKeys : KeepsRuleKeys db db'
  seeds : ∀ id, (db'.session id).map SessionRow.gradingSeed =
    (db.session id).map SessionRow.gradingSeed

namespace Edit

variable {db db' db'' : Db K}

theorem refl (db : Db K) : Edit db db :=
  ⟨rfl, fun _ => rfl, fun _ rule h => ⟨rule, h, rfl⟩, fun _ => rfl⟩

theorem trans (h : Edit db db') (h' : Edit db' db'') : Edit db db'' := by
  refine ⟨?_, fun id => (h'.manual id).trans (h.manual id), fun id rule hrule => ?_,
    fun id => (h'.seeds id).trans (h.seeds id)⟩
  · have htables := h'.tables
    rw [h.tables] at htables
    exact htables
  · obtain ⟨rule', hrule', hkey⟩ := h.ruleKeys id rule hrule
    obtain ⟨rule'', hrule'', hkey'⟩ := h'.ruleKeys id rule' hrule'
    exact ⟨rule'', hrule'', hkey'.trans hkey⟩

theorem results (h : Edit db db') : db'.results = db.results := by rw [h.tables]

theorem attempts (h : Edit db db') : db'.attempts = db.attempts := by rw [h.tables]

theorem computations (h : Edit db db') : db'.computations = db.computations := by rw [h.tables]

theorem submissions (h : Edit db db') : db'.submissions = db.submissions := by rw [h.tables]

theorem hasResult (h : Edit db db') (id : String) : db'.HasResult id ↔ db.HasResult id := by
  rw [Db.HasResult, Db.HasResult, h.results]

theorem linked (h : Edit db db') (hl : Linked db) : Linked db' where
  ids := h.results ▸ hl.ids
  submissions := h.results ▸ hl.submissions
  papers := h.submissions ▸ hl.papers
  current := by
    intro r hr id hid
    rw [Db.attempt, h.attempts]
    exact hl.current r (h.results ▸ hr) id hid
  attempts a ha := (h.hasResult _).2 (hl.attempts a (h.attempts ▸ ha))
  computations c hc := (h.hasResult _).2 (hl.computations c (h.computations ▸ hc))
  manual id hm := (h.hasResult _).2 (hl.manual id (h.manual id ▸ hm))

end Edit

/-! ## Computations -/

/-- A computation of the paper `r` with the result `out`. -/
structure ComputationOf (r : ResultRow) (reason : ComputationReason) (out : ScoreCoreOutput K)
    (c : ComputationRow K) : Prop where
  owner : c.gradingResultId = r.id
  attempt : c.attemptId = r.currentAttemptId.getD ""
  reason : c.reason = reason
  score : c.score = out.scoreHundredths
  breakdown : c.breakdown = out.breakdown

/-- `out` is what `computeScore` gives for the paper `r` with the
investigation `stored`, by the tables of now. -/
def Db.Computes [Number K] (db : Db K) (env : GradingEnv K) (r : ResultRow)
    (stored : StoredInvestigation K) (out : ScoreCoreOutput K) : Prop :=
  ∃ session rubric, db.sessionOf r = some session ∧ db.rubric r.rubricIdVersion = some rubric ∧
    (db.paperInput env r session rubric stored (db.firstCases session.id)).computeScore = .ok out

/-- The database with one computation more. -/
def Db.addComputation (db : Db K) (c : ComputationRow K) (n : Nat) : Db K :=
  { db with computations := db.computations ++ [c], drawnIds := n }

/-! ## Attempts -/

/-- The attempt `a` of the paper `r` is running. -/
structure Db.IsRunning (db : Db K) (r : ResultRow) (a : AttemptRow K) : Prop where
  result : db.result r.id = some r
  status : r.status = .aiGrading
  current : r.currentAttemptId = some a.id
  attempt : db.attempt a.id = some a
  outcome : a.outcome = none

/-- The row of a paper after its first decision. -/
def ResultRow.decided (auto drawn : Bool) (score : Int) (confidence modelUsed : Option String)
    (r : ResultRow) : ResultRow :=
  { r with
    status := if auto then if drawn then .auditPending else .autoApproved else .flaggedForReview
    auditSampled := if auto && drawn then true else r.auditSampled
    flagForReview := !auto
    aiTotalScore := some score
    confidence := confidence
    modelUsed := modelUsed
    ungradable := none }

/-- The row of a paper that could not be graded. -/
def ResultRow.failed (u : Ungradable) (r : ResultRow) : ResultRow :=
  { r with
    status := .flaggedForReview
    flagForReview := true
    confidence := some "0"
    ungradable := some u }

/-- The row of a paper that is graded again. -/
def ResultRow.requeued (r : ResultRow) : ResultRow :=
  { r with
    status := .aiGrading
    ungradable := none
    flagForReview := false
    confidence := none }

/-- `UPDATE grading_attempt … WHERE id = …`. -/
def Db.updateAttempt (db : Db K) (id : String) (g : AttemptRow K → AttemptRow K) : Db K :=
  { db with attempts := updateRow AttemptRow.id db.attempts id g }

/-- The end that `markUngradable` gives to a running attempt. -/
def AttemptRow.exhausted (u : Ungradable) (a : AttemptRow K) : AttemptRow K :=
  { a with outcome := some .ungradable, ungradable := some u }

/-- The database with a new attempt, the current one of its paper. -/
def Db.addAttempt (db : Db K) (a : AttemptRow K) (n : Nat) : Db K :=
  Db.updateResult { db with attempts := db.attempts ++ [a], drawnIds := n } a.gradingResultId
    fun r => { r with currentAttemptId := some a.id }

/-- A row that `startGrading` has just written. -/
structure ResultRow.IsNew (r : ResultRow) : Prop where
  status : r.status = .aiGrading
  attempt : r.currentAttemptId = none
  score : r.aiTotalScore = none
  reason : r.ungradable = none
  unsampled : r.auditSampled = false

/-! ## Writes -/

/-- One group of writes that belong together. -/
inductive Write [Number K] (env : GradingEnv K) (db : Db K) : Db K → Prop
  | edit {db' : Db K} (h : Edit db db') : Write env db db'
  /-- The new rows of `startGrading`. -/
  | enlist {rows : List ResultRow} (n : Nat)
      (ids : ((db.results ++ rows).map ResultRow.id).Nodup)
      (submissions : ((db.results ++ rows).map ResultRow.submissionId).Nodup)
      (new : ∀ r ∈ rows, r.IsNew) :
      Write env db { db with results := db.results ++ rows, drawnIds := n }
  /-- A recomputation and the move of the rule layer. -/
  | rejudge {r : ResultRow} {stored : StoredInvestigation K} {out : ScoreCoreOutput K}
      {c : ComputationRow K} {reason : ComputationReason} (n : Nat)
      (result : db.result r.id = some r) (graded : db.gradedInvestigation r = some stored)
      (score : db.Computes env r stored out) (computation : ComputationOf r reason out c)
      (later : reason ≠ .initial) :
      Write env db
        ((db.addComputation c n).updateResult r.id (ResultRow.ruleLayer (out.outcome = .auto)))
  /-- A recomputation for an exception of the teacher. -/
  | recheck {r : ResultRow} {stored : StoredInvestigation K} {out : ScoreCoreOutput K}
      {c : ComputationRow K} {reason : ComputationReason} (n : Nat)
      (result : db.result r.id = some r) (editable : r.status ∈ editableStatuses)
      (graded : db.gradedInvestigation r = some stored)
      (score : db.Computes env r stored out) (computation : ComputationOf r reason out c)
      (later : reason ≠ .initial) :
      Write env db ((db.addComputation c n).updateResult r.id ResultRow.reviewed)
  /-- A score by hand. -/
  | manual {r : ResultRow} {row : ReviewRow} (log : List AuditRow)
      (result : db.result r.id = some r)
      (allowed : r.status ∈ editableStatuses ++ publishedStatuses)
      (owner : row.gradingResultId = r.id) :
      Write env db
        (Db.updateResult { db with reviews := db.reviews ++ [row], auditLog := log } r.id
          ResultRow.reviewed)
  /-- A paper of the one-shot pipeline is accepted as it is. -/
  | accept (resultId : String) :
      Write env db (db.updateResult resultId
        (ResultRow.advance [.autoApproved] .teacherReviewed id))
  | publish (resultId : String) {source : ResultStatus} (finalizable : source ∈ finalizableStatuses)
      (computationId : Option String → Option String) :
      Write env db (db.updateResult resultId (ResultRow.advance [source] .finalized fun r =>
        { r with finalizedComputationId := computationId r.finalizedComputationId }))
  | openAttempt {r : ResultRow} {a : AttemptRow K} (n : Nat)
      (result : db.result r.id = some r) (status : r.status = .aiGrading)
      (idle : db.runningAttempt r = none) (fresh : a.id ∉ db.attempts.map AttemptRow.id)
      (row : a = ⟨a.id, r.id, db.nextAttemptNo r.id, none, none, none⟩) :
      Write env db (db.addAttempt a n)
  /-- The end of an attempt with a score, and the first decision. -/
  | firstScore {r : ResultRow} {a : AttemptRow K} {stored : StoredInvestigation K}
      {out : ScoreCoreOutput K} {c : ComputationRow K} {score : Int} (n : Nat)
      (confidence modelUsed : Option String)
      (running : db.IsRunning r a) (pipeline : r.pipeline = .investigator)
      (computes : db.Computes env r stored out) (scored : out.scoreHundredths = some score)
      (computation : ComputationOf r .initial out c) :
      Write env db
        (((db.updateAttempt a.id (AttemptRow.close .graded none (some stored))).addComputation
          c n).updateResult r.id (ResultRow.decided (out.outcome = .auto)
            (db.drawnForAudit env r.id) score confidence modelUsed))
  /-- The end of an attempt without a score. -/
  | fail {r : ResultRow} {a : AttemptRow K} (u : Ungradable)
      (stored : Option (StoredInvestigation K)) (running : db.IsRunning r a)
      (pipeline : r.pipeline = .investigator) :
      Write env db
        ((db.updateAttempt a.id (AttemptRow.close .ungradable (some u) stored)).updateResult r.id
          (ResultRow.failed u))
  /-- The retries of a job are used up while its attempt is running. -/
  | exhaust {r : ResultRow} {a : AttemptRow K} (u : Ungradable) (running : db.IsRunning r a) :
      Write env db
        ((db.updateResult r.id (ResultRow.failed u)).updateAttempt a.id (AttemptRow.exhausted u))
  /-- The retries are used up and no attempt is running. -/
  | exhaustIdle {r : ResultRow} {a : AttemptRow K} (u : Ungradable) (n : Nat)
      (result : db.result r.id = some r) (status : r.status = .aiGrading)
      (idle : db.runningAttempt r = none) (fresh : a.id ∉ db.attempts.map AttemptRow.id)
      (row : a = ⟨a.id, r.id, db.nextAttemptNo r.id, some .ungradable, some u, none⟩) :
      Write env db ((db.updateResult r.id (ResultRow.failed u)).addAttempt a n)
  | requeue {r : ResultRow} (result : db.result r.id = some r) (requeuable : r.isRequeuable = true) :
      Write env db (db.updateResult r.id ResultRow.requeued)

abbrev Writes [Number K] (env : GradingEnv K) : Db K → Db K → Prop :=
  Relation.ReflTransGen (Write env)

end Cine.Grading
