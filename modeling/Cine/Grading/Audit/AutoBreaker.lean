import Cine.Grading.Scoring.CurrentScore
import Cine.Grading.Scoring.ScoreService

/-!
# The breakers of automatic approval

`grading/auto-breaker/auto-breaker.service.ts` with `breaker-queries.ts`, and
`grading/audit/audit-compare.ts`.  Every audited paper leaves labels, one for
each rule that the teacher or the machine named and one where the machine
found no error.  Too many labels of disagreement open a breaker, and the
papers of its class are computed again.

`AuditDb` has the tables that only the audit reads and writes.  The breakers
enter a computation through `AuditDb.view`.  The verdict on the labels, a
binomial tail in floating point, is the parameter `trips`.
-/

namespace Cine.Grading

open Cine.Lib

/-! ## Tables -/

inductive AuditVerdict
  | both
  | teacherOnly
  | systemOnly
deriving DecidableEq, Repr, Inhabited

/-- `scope` and `rule_id` of a breaker: `ck_auto_rule_breaker_scope_rule`. -/
inductive BreakerScope
  | rule (ruleId : String)
  | noError
deriving DecidableEq, Repr, Inhabited

/-- `auto_rule_breaker`, with the evidence that opened it. -/
structure BreakerRow where
  id : String
  scope : BreakerScope
  trippedAt : Nat
  n : Nat
  disagreements : Nat
  resetAt : Option Nat
deriving DecidableEq, Repr, Inhabited

/-- `audit_rule_label`. -/
structure RuleLabelRow where
  gradingResultId : String
  ruleId : String
  verdict : AuditVerdict
  recordedAt : Nat
deriving DecidableEq, Repr, Inhabited

/-- `audit_no_error_label`. -/
structure NoErrorLabelRow where
  gradingResultId : String
  agree : Bool
  recordedAt : Nat
deriving DecidableEq, Repr, Inhabited

/-- `audit_sample_review`. -/
structure SampleReviewRow where
  gradingResultId : String
  pickedRuleIds : List String
  extraErrors : List String
deriving DecidableEq, Repr, Inhabited

structure AuditDb (K : Type) where
  db : Db K
  breakers : List BreakerRow
  ruleLabels : List RuleLabelRow
  noErrorLabels : List NoErrorLabelRow
  sampleReviews : List SampleReviewRow

/-- An operation on the tables of a teacher and of the audit. -/
abbrev AuditTx (K : Type) (α : Type) := Tx (AuditDb K) Failure α

/-! ## Queries -/

def BreakerRow.isOpen (b : BreakerRow) : Bool := b.resetAt.isNone

def BreakerRow.rule (b : BreakerRow) : Option String :=
  match b.scope with
  | .rule ruleId => some ruleId
  | .noError => none

namespace AuditDb

variable {K : Type} (s : AuditDb K)

/-- `loadOpenBreakerRuleKeys`. -/
def openBreakerRuleKeys : List String :=
  sortByKey id ((s.breakers.filter BreakerRow.isOpen).filterMap fun b =>
    b.rule.bind fun ruleId => (s.db.rule ruleId).map ErrorRuleRow.ruleKey)

/-- A breaker of the scope is open: `isRuleBreakerOpen` and
`isNoErrorBreakerOpen`. -/
def isOpen (scope : BreakerScope) : Bool :=
  s.breakers.any fun b => b.scope = scope && b.isOpen

/-- The tables of the teacher as a computation reads them now. -/
def view : Db K :=
  { s.db with
    openBreakerRuleKeys := s.openBreakerRuleKeys
    noErrorBreakerOpen := s.isOpen .noError }

/-- The last time that a breaker of the scope was closed. -/
def lastReset (scope : BreakerScope) : Option Nat :=
  ((s.breakers.filter fun b => b.scope = scope).filterMap BreakerRow.resetAt).max?

/-- A label counts when it was recorded after the last reset. -/
def countsFrom (scope : BreakerScope) (recordedAt : Nat) : Bool :=
  (s.lastReset scope).all fun t => t < recordedAt

/-- `countRuleLabelsSinceReset`: all labels and those of disagreement. -/
def countRuleLabelsSinceReset (ruleId : String) : Nat × Nat :=
  let labels := s.ruleLabels.filter fun l => l.ruleId = ruleId && s.countsFrom (.rule ruleId) l.recordedAt
  (labels.length, labels.countP fun l => l.verdict ≠ .both)

def countNoErrorLabelsSinceReset : Nat × Nat :=
  let labels := s.noErrorLabels.filter fun l => s.countsFrom .noError l.recordedAt
  (labels.length, labels.countP fun l => !l.agree)

end AuditDb

/-! ## The comparison of an audit -/

inductive AuditAgreement
  | full
  | partly
  | none
deriving DecidableEq, Repr

structure AuditSummary where
  both : Nat
  teacherOnly : Nat
  systemOnly : Nat
  neither : Nat
  extra : Nat
  agreement : AuditAgreement
deriving DecidableEq, Repr

structure AuditComparison where
  perRule : List (String × AuditVerdict)
  summary : AuditSummary
deriving DecidableEq, Repr

def compareAudit (picked systemRuleIds : List String) (extraCount activeRuleCount : Nat) :
    AuditComparison :=
  let perRule := (picked ++ systemRuleIds).eraseDups.map fun ruleId =>
    (ruleId,
      if ruleId ∈ picked ∧ ruleId ∈ systemRuleIds then AuditVerdict.both
      else if ruleId ∈ picked then .teacherOnly
      else .systemOnly)
  let count := fun verdict => perRule.countP fun r => r.2 = verdict
  let disagreement := count .teacherOnly + count .systemOnly + extraCount
  { perRule := perRule
    summary :=
      { both := count .both
        teacherOnly := count .teacherOnly
        systemOnly := count .systemOnly
        neither := activeRuleCount - perRule.length
        extra := extraCount
        agreement :=
          if disagreement = 0 then .full else if count .both = 0 then .none else .partly } }

/-! ## Labels and breakers -/

section Evaluate

variable {K : Type}

/-- An operation on the tables of the teacher, inside one on the audit. -/
def onDb {α : Type} (m : DbTx K α) : AuditTx K α := fun s =>
  match m s.view with
  | .ok (a, db') => .ok (a, { s with db := db' })
  | .error e => .error e

def trip (env : GradingEnv K) (now : Nat) (scope : BreakerScope) (counts : Nat × Nat) :
    AuditTx K String := do
  let s : AuditDb K ← get
  let id := env.uuid s.db.drawnIds
  if id ∈ s.breakers.map BreakerRow.id then
    throw (.error "duplicate key value violates unique constraint")
  modify fun s => { s with
    db := { s.db with drawnIds := s.db.drawnIds + 1 }
    breakers := s.breakers ++ [⟨id, scope, now, counts.1, counts.2, none⟩] }
  return id

variable [Number K]

/-- One scope: where its breaker is closed and the labels since its last
reset are too bad, it opens, and its papers are computed again. -/
def evaluate (env : GradingEnv K) (trips : Nat → Nat → Bool) (now : Nat) (scope : BreakerScope)
    (counts : AuditDb K → Nat × Nat) (recompute : RecomputeScope) : AuditTx K (List String) := do
  let s : AuditDb K ← get
  if s.isOpen scope then return []
  if !trips (counts s).1 (counts s).2 then return []
  let id ← trip env now scope (counts s)
  onDb (recomputeForTeacher env .autoRuleTripped recompute)
  return [id]

/-- The scopes of the rules, in their order. -/
def evaluateRules (env : GradingEnv K) (trips : Nat → Nat → Bool) (now : Nat) (resultId : String) :
    List String → AuditTx K (List String)
  | [] => return []
  | ruleId :: rest => do
    let one ← evaluate env trips now (.rule ruleId) (·.countRuleLabelsSinceReset ruleId)
      { ruleId := some ruleId, exceptResultId := some resultId }
    let others ← evaluateRules env trips now resultId rest
    return one ++ others

/-- `recordLabelsAndEvaluate`: all labels first, then each scope. -/
def recordLabelsAndEvaluate (env : GradingEnv K) (trips : Nat → Nat → Bool) (now : Nat)
    (resultId : String) (cmp : AuditComparison) : AuditTx K (List String) := do
  let s : AuditDb K ← get
  let noErrorClass := (s.db.latestComputation resultId).any fun c => c.breakdown.errors.isEmpty
  modify fun s => { s with
    ruleLabels := s.ruleLabels ++ cmp.perRule.map fun r => ⟨resultId, r.1, r.2, now⟩ }
  if noErrorClass then
    modify fun s => { s with
      noErrorLabels := s.noErrorLabels ++ [⟨resultId, cmp.summary.agreement = .full, now⟩] }
  let rules ← evaluateRules env trips now resultId (cmp.perRule.map Prod.fst)
  if noErrorClass then
    let noError ← evaluate env trips now .noError (·.countNoErrorLabelsSinceReset)
      { noErrors := true, exceptResultId := some resultId }
    return rules ++ noError
  else return rules

end Evaluate

/-- The row of a breaker after a reset of `breakerId`. -/
def BreakerRow.resetBy (now : Nat) (breakerId : String) (b : BreakerRow) : BreakerRow :=
  if b.id = breakerId ∧ b.isOpen then { b with resetAt := some now } else b

/-- `reset` closes an open breaker and computes nothing again. -/
def reset {K : Type} (now : Nat) (breakerId : String) : AuditTx K Unit := do
  let s : AuditDb K ← get
  if s.breakers.any fun b => b.id = breakerId && b.isOpen then
    modify fun s => { s with breakers := s.breakers.map (BreakerRow.resetBy now breakerId) }
  else if s.breakers.any fun b => b.id = breakerId then
    throw (.conflict "Cầu dao này đã được bật lại.")
  else throw (.notFound "Không tìm thấy cầu dao tự chốt.")

end Cine.Grading
