import Cine.Grading.Scoring.ScoreInputs

/-!
# The context of an investigation

`grading/pipeline/investigation-context.service.ts` and
`pipeline/rule-entries.ts`: what an investigation is given.  The bundle is
the one of the question of the result.

Files, archives and the reference of the session live outside the tables
and come in through `ContextDeps`.  The budget of the investigation and the
notes on machine-checked rules are left out.
-/

namespace Cine.Grading

open Cine.Lib

inductive SandboxLanguage
  | cpp
  | python
deriving DecidableEq, Repr

/-- `sandboxLanguage.safeParse`. -/
def SandboxLanguage.parse : Option String → Option SandboxLanguage
  | some "cpp" => some .cpp
  | some "python" => some .python
  | _ => none

/-- What `loadForGrading` returns, as far as the context reads it. -/
structure GradingReference where
  questionPdf : Option ByteArray
  questionFilename : Option String
  modelAnswer : Option ByteArray

structure SourceFile where
  path : String
  content : String
deriving DecidableEq, Repr

structure SourceFiles where
  files : List SourceFile
  entry : Option String
deriving DecidableEq, Repr

/-- The services that the context calls. -/
structure ContextDeps where
  loadForGrading : String → GradingReference
  getObject : String → Option ByteArray
  extractText : ByteArray → String → String
  sourceFilesOf : ByteArray → String → SandboxLanguage → Except Ungradable SourceFiles
  trim : String → String

/-- A rule as the model is shown it. -/
structure RuleEntry where
  ruleKey : String
  title : String
  description : String
  criterionKey : String
  priced : Bool
  checkedBy : CheckedBy
deriving DecidableEq, Repr

/-- A case of the bundle as the sandbox runs it. -/
structure ContextCase where
  name : String
  group : String
  input : String
  expected : String
deriving DecidableEq, Repr

structure InvestigationContext where
  language : SandboxLanguage
  problemStatement : String
  entry : Option String
  files : List SourceFile
  bundleId : String
  cases : List ContextCase
  modelAnswerAvailable : Bool
  rules : List RuleEntry
deriving DecidableEq, Repr

/-- Who checks a rule. -/
def checkedByOf (predicate : Option RulePredicate) : CheckedBy :=
  if isMachineChecked predicate then .machine else .model

namespace Db

variable {K : Type} (db : Db K)

/-- One row of `loadRuleEntries`. -/
def ruleEntryOf (re : RubricErrorRow) : Option RuleEntry :=
  match db.rule re.errorRuleId with
  | none => none
  | some r =>
    if r.state = .active then
      some
        { ruleKey := r.ruleKey
          title := r.current.name
          description := r.current.description
          criterionKey := re.criterionKey
          priced := (db.currentPrice re.id).isSome
          checkedBy := checkedByOf r.current.predicate }
    else none

/-- `loadRuleEntries`. -/
def ruleEntries (rubricName : String) : List RuleEntry :=
  sortByKey RuleEntry.ruleKey ((db.rubricErrorsOf rubricName).filterMap db.ruleEntryOf)

/-- The configuration of the question of a result. -/
def ownConfig (r : ResultRow) (sessionId : String) : Option ProblemConfig :=
  match r.problemId with
  | some problemId => db.resolveProblemConfigByProblem problemId
  | none => db.resolveProblemConfig sessionId

/-- The text of the question of a result: its own one, or the one of the
session. -/
def problemStatement (deps : ContextDeps) (r : ResultRow) (reference : GradingReference) :
    String :=
  let own := deps.trim (((r.problemId.bind db.problem).bind ProblemRow.statement).getD "")
  if own ≠ "" then own
  else
    match reference.questionPdf with
    | some pdf => deps.trim (deps.extractText pdf (reference.questionFilename.getD ""))
    | none => ""

/-- `InvestigationContextService.build`: the context with the table of rules
that is stored with the attempt, or why there is none. -/
def buildContext (deps : ContextDeps) (resultId : String) :
    Except Failure (Except Ungradable (InvestigationContext × List RuleSeen)) := do
  let missing := Failure.error s!"không có kết quả chấm {resultId}"
  let some r := db.result resultId | throw missing
  let some submission := db.submission r.submissionId | throw missing
  let some session := db.session submission.sessionId | throw missing
  let some rubric := db.rubric r.rubricIdVersion | throw missing
  let some language := SandboxLanguage.parse submission.language
    | return .error ⟨.system,
        "bài khai ngôn ngữ \"" ++ submission.language.getD "null" ++
          "\" — đường chấm điều tra chỉ chạy C++ và Python"⟩
  let some bundleId := (db.ownConfig r session.id).bind ProblemConfig.testBundleId
    | return .error ⟨.system, "phiên chưa ghim gói test — không có thước để chạy"⟩
  let reference := deps.loadForGrading session.id
  let statement := db.problemStatement deps r reference
  if statement = "" then
    let name := (reference.questionFilename.map fun f => " (" ++ f ++ ")").getD ""
    return .error ⟨.system,
      s!"đề bài chưa đọc được thành chữ{name} — đường chấm điều tra cần đề dạng DOCX hay TXT"⟩
  let some storageKey := submission.storageKey
    | return .error ⟨.system, "bài nộp chưa có file trên kho lưu trữ"⟩
  let some bytes := deps.getObject storageKey
    | return .error ⟨.system, "không đọc được bài nộp từ kho lưu trữ"⟩
  match deps.sourceFilesOf bytes submission.requiredFilename language with
  | .error u => return .error u
  | .ok sources =>
    let entries := db.ruleEntries rubric.name
    return .ok (
      { language := language
        problemStatement := statement
        entry := sources.entry
        files := sources.files
        bundleId := bundleId
        cases := (db.liveCases (some bundleId)).map fun c =>
          { name := c.caseKey
            group := c.group
            input := c.input
            expected := c.expectedOutput }
        modelAnswerAvailable := reference.modelAnswer.isSome
        rules := entries },
      entries.map fun e => { ruleKey := e.ruleKey, checkedBy := e.checkedBy })

end Db

end Cine.Grading
