import Cine.Grading.Decision.Confidence
import Cine.Grading.Decision.Diagnose
import Cine.Grading.Scoring.DeductionScore

/-!
# The decision

`grading/decision/decide.ts`, the one function that lets a paper be graded
without a teacher.  The order of its steps is part of the rule: the floors
come first, and below a floor there is neither a score nor a flag.

* The floors.  `floor` is the first floor that the input is below, and
  `Floor.ungradable` is the reason the source gives for it.
* The challenge.  `challengedKeys` are the keys of the errors a lens refuted
  or left unverified.  An error that the machine decided is immune.
* The flags, in the order in which the source pushes them: one definition for
  each group.
* `decide` puts them together.  It throws what `computeDeductionScore`
  throws.
-/

namespace Cine.Grading

open Cine.Lib

/-- `BUDGET_STOPS`. -/
def budgetStops : List StopReason := [.maxToolCalls, .maxRounds, .maxWall, .maxTokens]

/-- `AUTO_THETA_EPSILON`. -/
def autoThetaEpsilon {K : Type} [Number K] : K := 1e-9

/-- `CONTRADICTION_CAP`. -/
def contradictionCap {K : Type} [Number K] : K := 0.5

/-- `UNVERIFIED_CONFIDENCE_CAP`. -/
def unverifiedConfidenceCap {K : Type} [Number K] : K := 0.5

/-- The statuses that the lenses gave to one rule key. -/
def statusesOf (ruleKey : String) (perError : List ChallengeConclusion) : List ChallengeStatus :=
  perError.flatMap fun c =>
    (c.perError.filter (fun e => e.ruleKey = ruleKey)).map ErrorConclusion.status

/-- One refutation is enough to refute, and otherwise one confirmation is
enough to confirm. -/
def mergedStatusOf (ruleKey : String) (perError : List ChallengeConclusion) :
    Option ChallengeStatus :=
  let statuses := statusesOf ruleKey perError
  if statuses = [] then none
  else if .refuted ∈ statuses then some .refuted
  else if .confirmed ∈ statuses then some .confirmed
  else some .unverified

/-- The part of a rule that the score reads. -/
def ErrorRule.toScoringRule (r : ErrorRule) : ScoringRule :=
  { ruleKey := r.ruleKey
    criterionKey := r.criterionKey
    deductionHundredths := r.deductionHundredths }

/-- The floors of a decision, in the order in which they are tried. -/
inductive Floor
  | notAVerdict
  | emptyBundle
  | uncovered
  | exhausted
deriving DecidableEq, Repr

namespace DecisionInput

variable {K : Type}

section Parts

variable (input : DecisionInput K)

def toolCalls : List ToolCall := input.result.investigation.toolCalls

/-- The structured parts of the tool calls. -/
def structured : StructuredResults := input.result.investigation.structuredResults

def maxHundredths : Int := (input.rubric.map RubricCriterion.maxHundredths).sum

def diagnosis : Diagnosis := diagnose input.rules input.bundle input.result

def errors : List DiagnosedError := input.diagnosis.errors

/-! ## The floors -/

/-- The cases of the bundle without a result. -/
def missing : List BundleCase := uncoveredCases input.bundle input.toolCalls input.structured

/-- The first floor that the input is below. -/
def floor : Option Floor :=
  if input.result.kind = .ungradable then some .notAVerdict
  else if input.pipeline = .investigator ∧ input.bundle = [] then some .emptyBundle
  else if input.pipeline = .investigator ∧ input.missing ≠ [] then some .uncovered
  else if input.result.investigation.stopReason ∈ budgetStops ∧ input.errors = [] then
    some .exhausted
  else none

/-- The reason the source gives for a floor. -/
def ungradableAt : Floor → Ungradable
  | .notAVerdict => input.result.ungradable.getD ⟨.system, "không có kết luận"⟩
  | .emptyBundle => ⟨.system, "gói test rỗng — không có thước nào để chạy"⟩
  | .uncovered =>
    let groups := ", ".intercalate (input.missing.map BundleCase.group).eraseDups
    ⟨.system,
      s!"gói test chưa chạy đủ: {input.missing.length}/{input.bundle.length} " ++
        s!"ca chưa có kết quả (nhóm {groups}) — " ++
        "\"không có gì để trừ\" không phải \"không có gì sai\""⟩
  | .exhausted =>
    ⟨.system,
      s!"cạn ngân sách ({input.result.investigation.stopReason.text}) " ++
        "với 0 phát hiện — không phải bài sạch (T-FLOOR-1)"⟩

/-- The decision below a floor.  Only the last floor has a diagnosis. -/
def flooredAt (f : Floor) : Decision K :=
  { outcome := .ungradable
    ungradable := some (input.ungradableAt f)
    scoreHundredths := none
    maxHundredths := input.maxHundredths
    errors := []
    confidence := none
    caseFlags := []
    errorFlags := []
    diagnosis := if f = .exhausted then some input.diagnosis else none }

/-! ## The challenge -/

/-- The keys of the errors, other than the machine's, whose merged status
is `status`. -/
def challengedKeys (status : ChallengeStatus) : List String :=
  match input.challenge with
  | none => []
  | some challenge =>
    ((input.errors.filter (fun e => e.source ≠ .deterministic ∧
      mergedStatusOf e.ruleKey challenge.perError = some status)).map
        DiagnosedError.ruleKey).eraseDups

def refutedKeys : List String := input.challengedKeys .refuted

def unverifiedKeys : List String := input.challengedKeys .unverified

/-- The keys that the score is computed from: a refuted error stays in the
record and leaves the score. -/
def scoredKeys : List String :=
  (input.errors.filter (fun e => e.ruleKey ∉ input.refutedKeys)).map DiagnosedError.ruleKey

def score : Except String DeductionScore :=
  computeDeductionScore input.rubric (input.rules.map ErrorRule.toScoringRule) input.scoredKeys

/-! ## The flags of the criteria -/

/-- Whether the agent read a file of the submission. -/
def readSubmission : Bool :=
  input.toolCalls.any fun t =>
    t.tool = .readFile ∧ t.status = .ok ∧
      (t.stringArg "path").any fun path => path.startsWith "bai-nop/"

/-- `seen`: how the model was shown a rule. -/
def seen : OrderedMap String CheckedBy :=
  .ofList (input.rulesSeen.map fun r => (r.ruleKey, r.checkedBy))

/-- What is missing for a rule to count as examined. -/
def ruleGap (r : ErrorRule) : Option String :=
  match r.predicate with
  | some _ =>
    match input.diagnosis.measurements.find? (fun m => m.ruleKey = r.ruleKey) with
    | none => some s!"{r.ruleKey}: chưa đo"
    | some m =>
      if m.outcome.state = .unmeasured then
        some (r.ruleKey ++ ": " ++ m.outcome.reason.getD "chưa đo")
      else none
  | none =>
    match input.seen.get? r.ruleKey with
    | none => some s!"{r.ruleKey}: chưa xét — luật có sau cuộc điều tra"
    | some .machine =>
      some s!"{r.ruleKey}: lúc điều tra model được dặn KHÔNG đề xuất luật này (máy kiểm)"
    | some .model =>
      if input.readSubmission then none
      else some s!"{r.ruleKey}: agent chưa đọc file bài nộp nào"

def ownRules (c : RubricCriterion) : List ErrorRule :=
  input.rules.filter fun r => r.criterionKey = c.key

def criterionFlag (c : RubricCriterion) : Option CaseFlag :=
  if c.maxHundredths ≤ 0 then none
  else
    let own := input.ownRules c
    if own = [] then
      if c.key ∈ input.waivedCriteria then none
      else
        some ⟨.criterionWithoutRules, s!"tiêu chí \"{c.key}\" không có luật nào trỏ vào"⟩
    else
      let gaps := own.filterMap input.ruleGap
      if gaps = [] then none
      else
        some ⟨.criterionUntouched,
          s!"tiêu chí \"{c.key}\" chưa chạm tới — " ++ "; ".intercalate gaps⟩

def criterionFlags : List CaseFlag := input.rubric.filterMap input.criterionFlag

def coverageComplete : Bool := input.criterionFlags.isEmpty

/-! ## The flags of the whole case -/

/-- The results of the successful `run_tests` calls. -/
def runs : List (Option CompileInfo × List TestCaseResult) :=
  input.toolCalls.filterMap fun t => t.runTestsResult input.structured

def ran : Bool := input.runs.any fun s => compileFailed s.1 || !s.2.isEmpty

def anyPass : Bool := input.runs.any fun s => s.2.any fun c => c.status = .pass

def nothingPassed : Bool := input.ran && !input.anyPass

def nothingPassedFlags : List CaseFlag :=
  if input.nothingPassed then
    [⟨.nothingPassed,
      "mọi ca của gói test đều không đạt — mâu thuẫn với chẩn đoán phải do giảng viên xem"⟩]
  else []

/-- The flags of the investigation; a suspicion of injection names its sources. -/
def investigationFlags : List CaseFlag :=
  input.result.flags.map fun f =>
    let sources := if f = .injectionSuspected then input.result.injectionSources.getD [] else []
    ⟨.investigationFlag,
      if sources = [] then f.text
      else f.text ++ ":" ++ ",".intercalate (sources.map InjectionSource.text)⟩

def pipelineFlags : List CaseFlag :=
  if input.pipeline ≠ .investigator then
    [⟨.notCodePipeline, "bài tự luận không bao giờ tự quyết"⟩]
  else []

/-- The notes of the lenses on the whole case. -/
def caseNotes : List CaseLensNote := (input.challenge.map StoredChallenge.caseNotes).getD []

/-- One flag for all notes that `p` selects. -/
def noteFlags (code : CaseFlagCode) (p : CaseLensNote → Bool) : List CaseFlag :=
  let notes := input.caseNotes.filter p
  if notes = [] then []
  else [⟨code, " · ".intercalate (notes.map fun n => n.lens ++ ": " ++ n.note)⟩]

def suspectedFlags : List CaseFlag := input.noteFlags .challengeSuspected fun n => n.suspected

def incompleteFlags : List CaseFlag := input.noteFlags .challengeIncomplete fun n => !n.concluded

def rulerFlags : List CaseFlag :=
  if input.rulerTrust = some .unverified then
    [⟨.rulerUnverified, "đáp án mẫu của đề chưa được kiểm chứng bằng chạy thử"⟩]
  else []

/-! ## The automatic gates -/

def noErrorGateFlags : List CaseFlag :=
  if input.errors = [] ∧ input.autoNoErrorEnabled = some false then
    [⟨.noErrorAutoDisabled, "tự chốt bài không có lỗi đang tắt — bài cần giảng viên duyệt"⟩]
  else []

def ruleGateFlags : List CaseFlag :=
  ((input.errors.map DiagnosedError.ruleKey).eraseDups.filter
      (· ∈ input.autoBlockedRuleKeys.getD [])).map
    fun ruleKey => ⟨.typeAutoDisabled, s!"tự chốt đang tắt cho lỗi \"{ruleKey}\""⟩

/-- All flags of the case but the last one. -/
def ownCaseFlags : List CaseFlag :=
  input.criterionFlags ++ input.nothingPassedFlags ++ input.investigationFlags ++
    input.pipelineFlags ++ input.suspectedFlags ++ input.incompleteFlags ++ input.rulerFlags ++
    input.noErrorGateFlags ++ input.ruleGateFlags

def errorFlagsOf (score : DeductionScore) : List ErrorFlag :=
  score.unpricedRuleKeys.map (⟨·, .unpriced⟩) ++ input.refutedKeys.map (⟨·, .refuted⟩) ++
    input.unverifiedKeys.map (⟨·, .unverified⟩)

end Parts

/-! ## The decision -/

variable [Number K] (input : DecisionInput K)

/-- The computed confidence with its caps. -/
def confidence : K :=
  let c₀ := caseConfidence input.errors input.modelCeiling input.coverageComplete
  let c₁ := min c₀ input.result.confidenceCap
  let c₂ := if input.nothingPassed then min c₁ contradictionCap else c₁
  if input.unverifiedKeys ≠ [] then min c₂ unverifiedConfidenceCap else c₂

/-- A confidence below the threshold is a flag of its own, when there is no
other. -/
def lowConfidenceFlags (errorFlags : List ErrorFlag) : List CaseFlag :=
  if input.ownCaseFlags = [] ∧ errorFlags = [] ∧
      input.confidence < input.theta - autoThetaEpsilon then
    [⟨.lowConfidence,
      s!"confidence {Number.toFixed input.confidence 2} < θ {Number.text input.theta}"⟩]
  else []

/-- The decision above the floors. -/
def decisionOf (score : DeductionScore) : Decision K :=
  let errorFlags := input.errorFlagsOf score
  let caseFlags := input.ownCaseFlags ++ input.lowConfidenceFlags errorFlags
  { outcome := if caseFlags = [] ∧ errorFlags = [] then .auto else .flagged
    ungradable := none
    scoreHundredths := some score.scoreHundredths
    maxHundredths := input.maxHundredths
    errors := input.errors
    confidence := some input.confidence
    caseFlags := caseFlags
    errorFlags := errorFlags
    diagnosis := some input.diagnosis }

def decide : Except String (Decision K) :=
  match input.floor with
  | some f => .ok (input.flooredAt f)
  | none => input.score.map input.decisionOf

end DecisionInput

end Cine.Grading
