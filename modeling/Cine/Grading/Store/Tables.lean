import Cine.Grading.Lifecycle.Transitions
import Cine.Grading.Scoring.ScoreCore
import Cine.Lib.Table
import Mathlib.Data.String.Basic

/-!
# The tables of one teacher

The rows that grading and the operations of a teacher read and write
(`grading/entities/*.entity.ts` and the migrations).  All operations of a
teacher that change a score hold the lock of that teacher, and every query
below asks for rows of that teacher only, so `Db` holds the rows of one
teacher and the column `teacher_id` is left out.

* A table is the list of its rows in the order in which they were written.
  `ORDER BY created_at DESC` and `ORDER BY reviewed_at DESC` ask for the last
  one: both columns are the clock at the moment of the write, under the lock.
* `required_deliverable` is part of its submission, the criteria of a rubric
  are part of their rubric in the order of `sort_order`, and the current
  revision of a rule is part of its rule.
* Points are whole hundredths.
-/

namespace Cine.Grading

open Cine.Lib

/-! ## Sessions, questions, bundles, rubrics -/

structure SessionRow where
  id : String
  name : String
  gradingSeed : String
  /-- `grading_reference.ruler_trust` of the session. -/
  rulerTrust : Option RulerTrust
  blueprintConfirmed : Bool
  testBundleId : Option String
deriving DecidableEq, Repr, Inhabited

/-- `exam_problem`: a question of a session. -/
structure ProblemRow where
  id : String
  sessionId : String
  ordinal : Nat
  statement : Option String
  pointsHundredths : Int
  rubricId : Option String
  testBundleId : Option String
deriving DecidableEq, Repr, Inhabited

structure SubmissionRow where
  id : String
  sessionId : String
  studentMssv : String
  storageKey : Option String
  requiredFilename : String
  language : Option String
deriving DecidableEq, Repr, Inhabited

structure TestBundleRow where
  id : String
  sessionId : String
  problemId : String
  approved : Bool
deriving DecidableEq, Repr, Inhabited

structure TestCaseRow where
  bundleId : String
  caseKey : String
  group : String
  input : String
  expectedOutput : String
  autoDroppedReason : Option String
deriving DecidableEq, Repr, Inhabited

structure RubricRow where
  id : String
  name : String
  version : Nat
  criteria : List RubricCriterion
deriving DecidableEq, Repr, Inhabited

/-! ## Rules and prices -/

inductive RuleState
  | proposed
  | active
  | dismissed
  | retired
deriving DecidableEq, Repr, Inhabited

inductive RuleOrigin
  | teacher
  | seed
  | agentReported
deriving DecidableEq, Repr, Inhabited

structure RuleRevision where
  id : String
  revision : Nat
  name : String
  description : String
  predicate : Option RulePredicate
deriving DecidableEq, Repr, Inhabited

structure ErrorRuleRow where
  id : String
  ruleKey : String
  state : RuleState
  origin : RuleOrigin
  current : RuleRevision
deriving DecidableEq, Repr, Inhabited

/-- `rubric_error`: a rule in use in a rubric. -/
structure RubricErrorRow where
  id : String
  rubricName : String
  errorRuleId : String
  criterionKey : String
  removed : Bool
deriving DecidableEq, Repr, Inhabited

/-- `rubric_error_price`. -/
structure PriceRow where
  rubricErrorId : String
  deduction : Option Int
deriving DecidableEq, Repr, Inhabited

/-- `price_table_version` with its prices. -/
structure PriceVersionRow where
  id : String
  version : Nat
  prices : List PriceRow
deriving DecidableEq, Repr, Inhabited

structure WaiverRow where
  id : String
  rubricId : String
  criterionKey : String
  revoked : Bool
deriving DecidableEq, Repr, Inhabited

/-- `error_rule_sighting`: a paper whose investigation reported a rule as
missing. -/
structure SightingRow where
  errorRuleId : String
  gradingResultId : String
  sessionId : String
  rubricName : String
deriving DecidableEq, Repr, Inhabited

/-! ## Papers -/

inductive AttemptOutcome
  | graded
  | ungradable
deriving DecidableEq, Repr, Inhabited

structure AttemptRow (K : Type) where
  id : String
  gradingResultId : String
  attemptNo : Nat
  outcome : Option AttemptOutcome
  ungradable : Option Ungradable
  investigation : Option (StoredInvestigation K)
deriving Inhabited

structure ResultRow where
  id : String
  submissionId : String
  problemId : Option String
  rubricIdVersion : String
  pipeline : Pipeline
  status : ResultStatus
  currentAttemptId : Option String
  aiTotalScore : Option Int
  confidence : Option String
  modelUsed : Option String
  flagForReview : Bool
  ungradable : Option Ungradable
  auditSampled : Bool
  finalizedComputationId : Option String
deriving DecidableEq, Repr

/-- `SCORE_COMPUTATION_REASONS`, those of the modelled operations. -/
inductive ComputationReason
  | initial
  | priceChange
  | ruleRevision
  | errorException
  | criterionWaiver
  | autoRuleTripped
  | finalizedReapply
deriving DecidableEq, Repr, Inhabited

structure ComputationRow (K : Type) where
  id : String
  gradingResultId : String
  attemptId : String
  priceTableVersionId : Option String
  rubricIdVersion : String
  testBundleId : Option String
  reason : ComputationReason
  score : Option Int
  breakdown : ScoreBreakdown K

inductive ReviewKind
  | review
  | errorException
  | manualScore
  | bulkAccept
  | systemConfirm
deriving DecidableEq, Repr, Inhabited

structure ReviewRow where
  gradingResultId : String
  kind : ReviewKind
  finalScore : Option Int
  errorRuleId : Option String
  direction : Option ErrorException
deriving DecidableEq, Repr

/-- An entry of the audit log about the score of a result. -/
structure AuditRow where
  action : String
  targetId : String
  oldScore : Option Int
  newScore : Option Int
deriving DecidableEq, Repr, Inhabited

/-! ## The database -/

structure Db (K : Type) where
  sessions : List SessionRow
  problems : List ProblemRow
  submissions : List SubmissionRow
  bundles : List TestBundleRow
  cases : List TestCaseRow
  rubrics : List RubricRow
  rules : List ErrorRuleRow
  rubricErrors : List RubricErrorRow
  priceVersions : List PriceVersionRow
  waivers : List WaiverRow
  sightings : List SightingRow
  results : List ResultRow
  attempts : List (AttemptRow K)
  computations : List (ComputationRow K)
  reviews : List ReviewRow
  auditLog : List AuditRow
  /-- The rule keys whose breaker is open, and the breaker of the papers
  without an error. -/
  openBreakerRuleKeys : List String
  noErrorBreakerOpen : Bool
  /-- How many ids the database has drawn. -/
  drawnIds : Nat

namespace Db

variable {K : Type} (db : Db K)

def session (id : String) : Option SessionRow := rowOf SessionRow.id db.sessions id

def problem (id : String) : Option ProblemRow := rowOf ProblemRow.id db.problems id

def submission (id : String) : Option SubmissionRow := rowOf SubmissionRow.id db.submissions id

def bundle (id : String) : Option TestBundleRow := rowOf TestBundleRow.id db.bundles id

def rubric (id : String) : Option RubricRow := rowOf RubricRow.id db.rubrics id

def rule (id : String) : Option ErrorRuleRow := rowOf ErrorRuleRow.id db.rules id

def result (id : String) : Option ResultRow := rowOf ResultRow.id db.results id

def attempt (id : String) : Option (AttemptRow K) := rowOf AttemptRow.id db.attempts id

/-- The question with ordinal 1 of a session. -/
def firstProblem (sessionId : String) : Option ProblemRow :=
  db.problems.find? fun p => p.sessionId = sessionId ∧ p.ordinal = 1

/-- The newest price table. -/
def currentPriceVersion : Option PriceVersionRow := db.priceVersions.getLast?

/-- The newest computation of a paper. -/
def latestComputation (resultId : String) : Option (ComputationRow K) :=
  (db.computations.filter fun c => c.gradingResultId = resultId).getLast?

/-- Whether a teacher has given the paper a score of its own. -/
def hasManualScore (resultId : String) : Bool :=
  db.reviews.any fun t => t.gradingResultId = resultId ∧ t.kind = .manualScore

/-- The newest version of the rubric with a name. -/
def latestRubric (name : String) : Option RubricRow :=
  (sortByKey RubricRow.version (db.rubrics.filter fun r => r.name = name)).getLast?

end Db

end Cine.Grading
