import Cine.Grading.Audit.AutoBreaker

/-!
# The review of a sampled paper

`grading/audit/audit-review.service.ts`.  `recordAudit` is its `record`: one
transaction under the lock of the teacher writes what the teacher saw, moves
the paper to `teacher_reviewed`, and tells what the machine had found.
-/

namespace Cine.Grading

open Cine.Lib

variable {K : Type}

/-- An error that the machine kept. -/
structure RevealedError where
  ruleId : String
  ruleKey : String
  ruleName : String
  counted : Counted
deriving DecidableEq, Repr

structure RevealedRule where
  ruleId : String
  ruleKey : String
  ruleName : String
  verdict : AuditVerdict
deriving DecidableEq, Repr

structure AuditReveal where
  currentScore : CurrentScore
  systemErrors : List RevealedError
  perRule : List RevealedRule
  extraErrors : List String
  summary : AuditSummary
deriving DecidableEq, Repr

/-- The errors of the newest computation that were neither refuted nor
excluded. -/
def Db.keptErrors (db : Db K) (resultId : String) : List BreakdownError :=
  ((db.latestComputation resultId).map fun c => c.breakdown.errors).getD [] |>.filter fun e =>
    e.counted = .counted ∨ e.counted = .unpriced

/-- The key and the name of a rule, or the key that was stored. -/
def Db.ruleLabel (db : Db K) (ruleId fallbackKey : String) : String × String :=
  ((db.rule ruleId).map fun r => (r.ruleKey, r.current.name)).getD (fallbackKey, fallbackKey)

/-- The comparison behind `reveal`. -/
def Db.auditComparison (db : Db K) (resultId : String) (picked extras : List String)
    (activeRuleCount : Nat) : AuditComparison :=
  compareAudit picked ((db.keptErrors resultId).map BreakdownError.ruleId) extras.length
    activeRuleCount

def Db.reveal (db : Db K) (resultId : String) (extras : List String) (cmp : AuditComparison) :
    Except Failure AuditReveal := do
  let score ← db.loadCurrentScore resultId
  return {
    currentScore := score
    systemErrors := (db.keptErrors resultId).map fun e =>
      let label := db.ruleLabel e.ruleId e.ruleKey
      ⟨e.ruleId, label.1, label.2, e.counted⟩
    perRule := cmp.perRule.map fun r =>
      let label := db.ruleLabel r.1 r.1
      ⟨r.1, label.1, label.2, r.2⟩
    extraErrors := extras
    summary := cmp.summary }

/-- `AUDIT_EXTRA_MAX_LENGTH`. -/
def auditExtraMaxLength : Nat := 500

/-- The active rules of the teacher. -/
def Db.activeRuleIds (db : Db K) : List String :=
  (db.rules.filter fun r => r.state = .active).map ErrorRuleRow.id

/-- `record`. -/
def recordAudit [Number K] (env : GradingEnv K) (trips : Nat → Nat → Bool) (now : Nat)
    (resultId : String) (pickedRuleIds extraErrors : List String) : AuditTx K AuditReveal := do
  let picked := pickedRuleIds.eraseDups
  let extras := extraErrors.map env.trim
  if extras.any (· = "") then throw (.badRequest "Mỗi lỗi khác phải có nội dung.")
  if extras.any fun line => auditExtraMaxLength < (utf16 line).length then
    throw (.badRequest s!"Mỗi lỗi khác tối đa {auditExtraMaxLength} ký tự.")
  let s : AuditDb K ← get
  match s.db.result resultId with
  | none =>
    throw (.conflict "Bài này không ở trạng thái kiểm mẫu — không ghi nhận xét kiểm mẫu được.")
  | some row =>
    if s.sampleReviews.any fun t => t.gradingResultId = resultId then
      throw (.conflict "Nhận xét kiểm mẫu của bài này đã ghi — khoá, không ghi lại được.")
    if row.status ≠ .auditPending then
      throw (.conflict "Bài này không ở trạng thái kiểm mẫu — không ghi nhận xét kiểm mẫu được.")
    let activeIds := s.db.activeRuleIds
    if picked.any fun id => id ∉ activeIds then
      throw (.badRequest "Có luật được chọn không thuộc bảng lỗi đang dùng của bạn.")
    modify fun s => { s with sampleReviews := s.sampleReviews ++ [⟨resultId, picked, extras⟩] }
    let moved ← onDb (advanceStatus resultId [.auditPending] .teacherReviewed fun r =>
      { r with flagForReview := false })
    if !moved then
      throw (.conflict "Bài này không ở trạng thái kiểm mẫu — không ghi nhận xét kiểm mẫu được.")
    let s : AuditDb K ← get
    let cmp := s.db.auditComparison resultId picked extras activeIds.length
    let reveal ← liftM (s.db.reveal resultId extras cmp)
    let _ ← recordLabelsAndEvaluate env trips now resultId cmp
    return reveal

end Cine.Grading
