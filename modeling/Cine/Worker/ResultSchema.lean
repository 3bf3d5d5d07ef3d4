import Cine.Lib.Schema
import Cine.Worker.HandleMeasure

/-!
# The answer of a worker

`execResult` and `measureResult` of `sandbox/contract.ts`, and what `submit` of
`sandbox/sandbox.client.ts` does with an answer.

The queue carries the answer as JSON, which has no infinite numbers: a time that a
program has written with too many digits arrives as `null`.

* The schemas, and `checkAnswer`.
* The values that results are written as.
* `answer_accepted`: whatever a program does, its worker's answer is accepted, and the
  cases of a result are those of the job, in order.
-/

namespace Cine.Worker

open Cine.Lib Cine.Lib.JsonText Cine.Lib.Schema Cine.Grading

/-! ## The schemas -/

def anyText : Schema := string fun _ => true
def nonnegative : Schema := int fun n => 0 ≤ n
def positive : Schema := int fun n => 0 < n
def contract : Schema := int fun n => n = SANDBOX_CONTRACT_VERSION
def uuid : Schema := string isUuid

def hostFingerprint : Schema := object
  [("hostname", anyText), ("cpuModel", anyText), ("cpuCount", positive), ("kernel", anyText),
    ("runtime", oneOf ["runc", "runsc"]), ("dockerVersion", anyText), ("images", record anyText),
    ("workerVersion", anyText)]

def caseStatus : Schema := oneOf
  ["pass", "fail", "ran", "timeout", "runtime_crash", "recursion_limit", "output_limit"]

def limitHit : Schema := oneOf ["time", "memory", "output"]

def compileInfo : Schema := object
  [("ok", bool), ("log", string (atMost 16384)), ("ms", nonnegative)]

def isNull : Option (Value Int) → Bool
  | some .null => true
  | _ => false

def hostWhenAvailable : Schema
  | .obj fields =>
    !isNull (fields.last? "unavailable".toList) || !isNull (fields.last? "host".toList)
  | _ => false

def caseResult : Schema := object
  [("name", anyText), ("group", nullable anyText), ("status", caseStatus), ("ms", nonnegative),
    ("stdout", nullable (string (atMost 65536))), ("diff", nullable (string (atMost 1024))),
    ("limitsHit", array limitHit)]

/-- A worker always writes `aborted`, so its default is left out. -/
def execFields : List (String × Schema) :=
  [("contract", contract), ("kind", oneOf ["exec"]), ("jobId", uuid),
    ("host", nullable hostFingerprint), ("compile", nullable compileInfo),
    ("cases", array caseResult), ("totalMs", nonnegative),
    ("aborted", nullable (oneOf ["budget"])),
    ("unavailable", nullable (string (atMost 1000)))]

def execResult : Schema := refine (object execFields) hostWhenAvailable

def programName : Schema := oneOf ["submission", "reference"]

def measureSample : Schema := object
  [("program", programName), ("n", positive), ("repeat", nonnegative),
    ("status", oneOf ["ok", "timeout", "runtime_crash", "recursion_limit", "output_limit"]),
    ("innerNs", nullable nonnegative), ("outerNs", nonnegative),
    ("checksum", nullable (string (atMost 64)))]

def baselineSample : Schema := object
  [("program", programName), ("innerNs", nullable nonnegative), ("outerNs", nonnegative)]

def compiledPrograms : Schema := object
  [("submission", compileInfo), ("reference", nullable compileInfo)]

def measureFields : List (String × Schema) :=
  [("contract", contract), ("kind", oneOf ["measure"]), ("jobId", uuid),
    ("host", nullable hostFingerprint), ("slot", nullable anyText),
    ("timingMode", oneOf ["in_process", "process"]), ("compile", nullable compiledPrograms),
    ("baseline", array baselineSample), ("samples", array measureSample),
    ("aborted", nullable (oneOf ["interference", "compile_error", "budget"])),
    ("startedAt", anyText), ("finishedAt", anyText),
    ("unavailable", nullable (string (atMost 1000)))]

def measureResult : Schema := refine (object measureFields) hostWhenAvailable

/-- `jobId` of an answer. -/
def jobIdIn : Value Int → Option (Value Int)
  | .obj fields => fields.last? "jobId".toList
  | _ => none

/-- `submit`, once the answer is there: why it is refused. -/
def checkAnswer (schema : Schema) (jobId : JobId) (raw : Value Int) : Except String Unit :=
  if schema raw then
    match jobIdIn raw with
    | some (.str id) =>
      if id = jobId.text.toList then .ok () else .error "kết quả không khớp jobId — đã từ chối"
    | _ => .error "kết quả không khớp jobId — đã từ chối"
  else .error "kết quả từ worker sai schema — đã từ chối"

/-! ## The values of results -/

def Runtime.name : Runtime → String
  | .runc => "runc"
  | .runsc => "runsc"

def caseStatusName : CaseStatus → String
  | .pass => "pass"
  | .fail => "fail"
  | .ran => "ran"
  | .timeout => "timeout"
  | .runtimeCrash => "runtime_crash"
  | .recursionLimit => "recursion_limit"
  | .outputLimit => "output_limit"

def LimitHit.name : LimitHit → String
  | .time => "time"
  | .memory => "memory"
  | .output => "output"

def Who.name : Who → String
  | .submission => "submission"
  | .reference => "reference"

def SampleStatus.name : SampleStatus → String
  | .ok => "ok"
  | .timeout => "timeout"
  | .runtimeCrash => "runtime_crash"
  | .recursionLimit => "recursion_limit"
  | .outputLimit => "output_limit"

def TimingMode.name : TimingMode → String
  | .inProcess => "in_process"
  | .process => "process"

def MeasureAborted.name : MeasureAborted → String
  | .interference => "interference"
  | .compileError => "compile_error"
  | .budget => "budget"

/-- `JSON.stringify` of a number. -/
def JsNumber.value : JsNumber → Value Int
  | .finite n => .num n
  | .infinity => .null

def natValue (n : Nat) : Value Int := .num n

def HostFingerprint.value (host : HostFingerprint) : Value Int := .obj (Fields.mk
  [("hostname", text host.hostname), ("cpuModel", text host.cpuModel),
    ("cpuCount", natValue host.cpuCount), ("kernel", text host.kernel),
    ("runtime", text host.runtime.name), ("dockerVersion", text host.dockerVersion),
    ("images", .obj (Fields.mk (host.images.map fun f => (f.1, text f.2)))),
    ("workerVersion", text host.workerVersion)])

def CompileInfo.value (info : CompileInfo) : Value Int := .obj (Fields.mk
  [("ok", .bool info.ok), ("log", text info.log), ("ms", .num info.ms)])

def CaseResult.value (r : CaseResult) : Value Int := .obj (Fields.mk
  [("name", text r.name), ("group", orNull text r.group),
    ("status", text (caseStatusName r.status)), ("ms", natValue r.ms),
    ("stdout", orNull text r.stdout), ("diff", orNull text r.diff),
    ("limitsHit", arrOf (fun hit => text hit.name) r.limitsHit)])

def ExecResult.fields (r : ExecResult) : List (String × Value Int) :=
  [("contract", natValue r.contract), ("kind", text r.kind), ("jobId", text r.jobId.text),
    ("host", orNull HostFingerprint.value r.host), ("compile", orNull CompileInfo.value r.compile),
    ("cases", arrOf CaseResult.value r.cases), ("totalMs", .num r.totalMs),
    ("aborted", orNull (fun _ => text "budget") r.aborted),
    ("unavailable", orNull text r.unavailable)]

def ExecResult.value (r : ExecResult) : Value Int := .obj (Fields.mk r.fields)

def MeasureSample.value (s : MeasureSample) : Value Int := .obj (Fields.mk
  [("program", text s.program.name), ("n", natValue s.n), ("repeat", natValue s.round),
    ("status", text s.status.name), ("innerNs", orNull JsNumber.value s.innerNs),
    ("outerNs", s.outerNs.value), ("checksum", orNull text s.checksum)])

def BaselineSample.value (b : BaselineSample) : Value Int := .obj (Fields.mk
  [("program", text b.program.name), ("innerNs", orNull JsNumber.value b.innerNs),
    ("outerNs", b.outerNs.value)])

def Compiled.value (c : Compiled) : Value Int := .obj (Fields.mk
  [("submission", c.submission.value), ("reference", orNull CompileInfo.value c.reference)])

def MeasureResult.fields (r : MeasureResult) : List (String × Value Int) :=
  [("contract", natValue r.contract), ("kind", text r.kind), ("jobId", text r.jobId.text),
    ("host", orNull HostFingerprint.value r.host), ("slot", orNull text r.slot),
    ("timingMode", text r.timingMode.name), ("compile", orNull Compiled.value r.compile),
    ("baseline", arrOf BaselineSample.value r.baseline),
    ("samples", arrOf MeasureSample.value r.samples),
    ("aborted", orNull (fun a => text a.name) r.aborted), ("startedAt", text r.startedAt),
    ("finishedAt", text r.finishedAt), ("unavailable", orNull text r.unavailable)]

def MeasureResult.value (r : MeasureResult) : Value Int := .obj (Fields.mk r.fields)

/-! ## What is accepted -/

theorem nonnegative_nat (n : Nat) : nonnegative (natValue n) = true :=
  decide_eq_true (Int.natCast_nonneg n)

theorem anyText_text (s : String) : anyText (text s) = true := rfl

theorem anyText_orNull (s : Option String) : nullable anyText (orNull text s) = true :=
  nullable_orNull fun x _ => anyText_text x

theorem atMost_orNull {n : Nat} {s : Option String} (h : ∀ x, s = some x → (utf16 x).length ≤ n) :
    nullable (string (atMost n)) (orNull text s) = true :=
  nullable_orNull fun x hx => atMost_text (h x hx)

theorem hostFingerprint_accepts (host : HostFingerprint) :
    hostFingerprint host.value = true := by
  refine object_mk (by decide) ?_
  refine .cons ⟨rfl, rfl⟩ (.cons ⟨rfl, rfl⟩ (.cons ⟨rfl, ?_⟩ (.cons ⟨rfl, rfl⟩ (.cons ⟨rfl, ?_⟩
    (.cons ⟨rfl, rfl⟩ (.cons ⟨rfl, ?_⟩ (.cons ⟨rfl, rfl⟩ .nil)))))))
  · exact decide_eq_true (Int.natCast_pos.2 host.cpuCount_pos)
  · exact oneOf_text (by cases host.runtime <;> decide)
  · refine record_mk fun f hf => ?_
    obtain ⟨g, _, rfl⟩ := List.mem_map.1 hf
    rfl

theorem compileInfo_accepts {info : CompileInfo} (h : CompileFits info) :
    compileInfo info.value = true := by
  refine object_mk (by decide) (.cons ⟨rfl, rfl⟩ (.cons ⟨rfl, ?_⟩ (.cons ⟨rfl, ?_⟩ .nil)))
  · exact atMost_text h.log
  · exact decide_eq_true h.ms

theorem caseStatus_accepts (status : CaseStatus) :
    caseStatus (text (caseStatusName status)) = true :=
  oneOf_text (by cases status <;> decide)

/-- What a case of a result keeps to. -/
structure CaseFits (r : CaseResult) : Prop where
  stdout : ∀ x, r.stdout = some x → (utf16 x).length ≤ 65536
  diff : ∀ x, r.diff = some x → (utf16 x).length ≤ 1024

variable {r : CaseResult} {host : HostFingerprint} {env : WorkerEnv} {job : ExecJob} {k : Nat}

theorem caseResult_accepts (h : CaseFits r) : caseResult r.value = true := by
  refine object_mk (by decide) ?_
  refine .cons ⟨rfl, rfl⟩ (.cons ⟨rfl, anyText_orNull r.group⟩ (.cons ⟨rfl, ?_⟩
    (.cons ⟨rfl, nonnegative_nat r.ms⟩ (.cons ⟨rfl, ?_⟩ (.cons ⟨rfl, ?_⟩ (.cons ⟨rfl, ?_⟩ .nil))))))
  · exact caseStatus_accepts r.status
  · exact atMost_orNull h.stdout
  · exact atMost_orNull h.diff
  · exact array_arrOf fun hit _ => oneOf_text (by cases hit <;> decide)

theorem checkAnswer_ok {schema : List (String × Schema)} {l : List (String × Value Int)}
    {jobId : JobId} (hnames : (schema.map Prod.fst).Nodup) (h : Matches schema l)
    (hid : ("jobId", text jobId.text) ∈ l) (hhost : ("host", host.value) ∈ l) :
    checkAnswer (refine (object schema) hostWhenAvailable) jobId (.obj (Fields.mk l)) = .ok () := by
  have hrefine : hostWhenAvailable (.obj (Fields.mk l)) = true := by
    show (!isNull ((Fields.mk l).last? "unavailable".toList) ||
      !isNull ((Fields.mk l).last? "host".toList)) = true
    rw [h.last? hnames hhost]
    exact Bool.or_true _
  have hjob : jobIdIn (.obj (Fields.mk l)) = some (.str jobId.text.toList) :=
    h.last? hnames hid
  have hschema : refine (object schema) hostWhenAvailable (.obj (Fields.mk l)) = true :=
    Bool.and_eq_true_iff.2 ⟨object_mk hnames h, hrefine⟩
  unfold checkAnswer
  rw [if_pos hschema, hjob]
  exact if_pos rfl

/-! ## Results of the handlers -/

/-- What an exec result keeps to. -/
structure ExecFits (host : HostFingerprint) (r : ExecResult) : Prop where
  contract : r.contract = SANDBOX_CONTRACT_VERSION
  kind : r.kind = "exec"
  host : r.host = some host
  compile : ∀ info, r.compile = some info → CompileFits info
  cases : ∀ c ∈ r.cases, CaseFits c
  totalMs : 0 ≤ r.totalMs
  unavailable : ∀ x, r.unavailable = some x → (utf16 x).length ≤ 1000

theorem ExecFits.accepted {r : ExecResult} (h : ExecFits host r) :
    checkAnswer execResult r.jobId r.value = .ok () := by
  have hmatches : Matches execFields r.fields := by
    refine .cons ⟨rfl, ?_⟩ (.cons ⟨rfl, ?_⟩ (.cons ⟨rfl, ?_⟩ (.cons ⟨rfl, ?_⟩ (.cons ⟨rfl, ?_⟩
      (.cons ⟨rfl, ?_⟩ (.cons ⟨rfl, ?_⟩ (.cons ⟨rfl, ?_⟩ (.cons ⟨rfl, ?_⟩ .nil))))))))
    · exact decide_eq_true (congrArg Nat.cast h.contract)
    · exact oneOf_text (List.mem_singleton.2 h.kind)
    · exact string_text r.jobId.uuid
    · exact nullable_orNull fun host _ => hostFingerprint_accepts host
    · exact nullable_orNull fun info hinfo => compileInfo_accepts (h.compile info hinfo)
    · exact array_arrOf fun c hc => caseResult_accepts (h.cases c hc)
    · exact decide_eq_true h.totalMs
    · exact nullable_orNull fun _ _ => oneOf_text (List.mem_singleton.2 rfl)
    · exact atMost_orNull h.unavailable
  have hhost : ("host", host.value) ∈ r.fields := by
    unfold ExecResult.fields
    rw [h.host]
    simp [orNull]
  exact checkAnswer_ok (by decide) hmatches (by simp [ExecResult.fields]) hhost

theorem nonnegative_finite {t : JsNumber} (h : ∃ n, t = .finite n) :
    nonnegative t.value = true := by
  obtain ⟨n, rfl⟩ := h
  exact nonnegative_nat n

theorem innerNs_accepts (t : Option JsNumber) :
    nullable nonnegative (orNull JsNumber.value t) = true := by
  cases t with
  | none => rfl
  | some t =>
    cases t with
    | finite n => exact nonnegative_nat n
    | infinity => rfl

theorem programName_accepts (p : Who) : programName (text p.name) = true :=
  oneOf_text (by cases p <;> decide)

theorem measureSample_accepts {s : MeasureSample} (h : SampleFits s) :
    measureSample s.value = true := by
  refine object_mk (by decide) ?_
  refine .cons ⟨rfl, programName_accepts s.program⟩ (.cons ⟨rfl, ?_⟩
    (.cons ⟨rfl, nonnegative_nat s.round⟩ (.cons ⟨rfl, ?_⟩ (.cons ⟨rfl, innerNs_accepts s.innerNs⟩
    (.cons ⟨rfl, nonnegative_finite h.outerNs⟩ (.cons ⟨rfl, atMost_orNull h.checksum⟩ .nil))))))
  · exact decide_eq_true (Int.natCast_pos.2 h.n_pos)
  · exact oneOf_text (by cases s.status <;> decide)

theorem baselineSample_accepts {b : BaselineSample} (h : ∃ n, b.outerNs = .finite n) :
    baselineSample b.value = true :=
  object_mk (by decide) (.cons ⟨rfl, programName_accepts b.program⟩
    (.cons ⟨rfl, innerNs_accepts b.innerNs⟩ (.cons ⟨rfl, nonnegative_finite h⟩ .nil)))

/-- What a measure result keeps to. -/
structure MeasureFits (host : HostFingerprint) (r : MeasureResult) : Prop where
  contract : r.contract = SANDBOX_CONTRACT_VERSION
  kind : r.kind = "measure"
  host : r.host = some host
  compile : ∀ c, r.compile = some c →
    CompileFits c.submission ∧ ∀ info, c.reference = some info → CompileFits info
  baseline : ∀ b ∈ r.baseline, ∃ n, b.outerNs = .finite n
  samples : ∀ x ∈ r.samples, SampleFits x
  unavailable : ∀ x, r.unavailable = some x → (utf16 x).length ≤ 1000

theorem MeasureFits.accepted {r : MeasureResult} (h : MeasureFits host r) :
    checkAnswer measureResult r.jobId r.value = .ok () := by
  have hmatches : Matches measureFields r.fields := by
    refine .cons ⟨rfl, ?_⟩ (.cons ⟨rfl, ?_⟩ (.cons ⟨rfl, string_text r.jobId.uuid⟩
      (.cons ⟨rfl, ?_⟩ (.cons ⟨rfl, anyText_orNull r.slot⟩ (.cons ⟨rfl, ?_⟩ (.cons ⟨rfl, ?_⟩
      (.cons ⟨rfl, ?_⟩ (.cons ⟨rfl, ?_⟩ (.cons ⟨rfl, ?_⟩ (.cons ⟨rfl, rfl⟩ (.cons ⟨rfl, rfl⟩
      (.cons ⟨rfl, atMost_orNull h.unavailable⟩ .nil))))))))))))
    · exact decide_eq_true (congrArg Nat.cast h.contract)
    · exact oneOf_text (List.mem_singleton.2 h.kind)
    · exact nullable_orNull fun host _ => hostFingerprint_accepts host
    · exact oneOf_text (by cases r.timingMode <;> decide)
    · refine nullable_orNull fun c hc => ?_
      obtain ⟨hsubmission, hreference⟩ := h.compile c hc
      exact object_mk (by decide) (.cons ⟨rfl, compileInfo_accepts hsubmission⟩
        (.cons ⟨rfl, nullable_orNull fun info hinfo => compileInfo_accepts (hreference info hinfo)⟩
          .nil))
    · exact array_arrOf fun b hb => baselineSample_accepts (h.baseline b hb)
    · exact array_arrOf fun x hx => measureSample_accepts (h.samples x hx)
    · exact nullable_orNull fun a _ => oneOf_text (by cases a <;> decide)
  have hhost : ("host", host.value) ∈ r.fields := by
    unfold MeasureResult.fields
    rw [h.host]
    simp [orNull]
  exact checkAnswer_ok (by decide) hmatches (by simp [MeasureResult.fields]) hhost

theorem unavailableExec_fits (id : JobId) (reason : String) (host : HostFingerprint) :
    ExecFits host (unavailableExec id reason host) where
  contract := rfl
  kind := rfl
  host := rfl
  compile := fun _ h => nomatch h
  cases := fun _ h => nomatch h
  totalMs := Int.le_refl 0
  unavailable := fun _ h => Option.some.inj h ▸ length_utf16_sliceFront reason 1000

theorem length_textOf_le (bytes : List Nat) :
    (textOf bytes).toList.length ≤ 2 * bytes.length + 1 := by
  unfold textOf
  rw [String.toList_ofList]
  exact Utf8.length_decode bytes

theorem caseAt_fits {c : ExecCase} (h : caseAt env job c k = .ok r) : CaseFits r := by
  obtain ⟨_, o, i, _, _, _, _, _, hjudge⟩ := caseAt_ok h
  obtain ⟨_, _, _, hways⟩ := judgeCase_cases hjudge
  constructor
  · intro x hx
    rcases hways with ⟨_, _, _, _, hout⟩ | ⟨_, _, _, _, _, _, _, hout, _⟩ | ⟨_, _, hout, _⟩
    · rw [hout] at hx
      obtain rfl := Option.some.inj hx
      exact length_utf16_sliceFront _ 65536
    · rw [hout] at hx
      cases hx
    · rw [hout] at hx
      cases hx
  · intro x hx
    rcases hways with ⟨_, _, _, hdiff, _⟩ | ⟨_, b, cmp, _, _, _, hcmp, _, hdiff⟩ | ⟨_, _, _, hdiff⟩
    · rw [hdiff] at hx
      cases hx
    · rw [hdiff] at hx
      refine compareOutput_diff ?_ ?_ hcmp hx
      · have := length_textOf_le b.bytes
        have := b.size
        omega
      · have := length_textOf_le (spawnCli job.limits.outputBytes o).stdout
        have := job.limits.outputBytes_le
        have : (spawnCli job.limits.outputBytes o).stdout.length ≤ job.limits.outputBytes :=
          List.length_take_le _ _
        change (textOf (spawnCli job.limits.outputBytes o).stdout).toList.length < _
        omega
    · rw [hdiff] at hx
      cases hx

theorem casesFrom_forall₂ {started : Int} {t : Nat} {cases : List ExecCase}
    {results : List CaseResult} {aborted : Option ExecAborted}
    (h : casesFrom env job started k t cases = .ok (results, aborted)) :
    ∃ first, first <+: cases ∧
      List.Forall₂ (fun r c => ∃ k, caseAt env job c k = .ok r) results first := by
  induction cases generalizing k t results with
  | nil =>
    cases h
    exact ⟨[], List.nil_prefix, .nil⟩
  | cons c cases ih =>
    unfold casesFrom at h
    split_ifs at h with hbudget
    · cases h
      exact ⟨[], List.nil_prefix, .nil⟩
    · obtain ⟨r, hcase, h⟩ := bind_eq_ok.1 h
      obtain ⟨rest, hrest, h⟩ := bind_eq_ok.1 h
      obtain ⟨rfl, rfl⟩ := Prod.mk.inj (pure_eq_ok.1 h)
      obtain ⟨first, hfirst, hall⟩ := ih hrest
      exact ⟨c :: first, List.cons_prefix_cons.2 ⟨rfl, hfirst⟩, .cons ⟨k, hcase⟩ hall⟩

/-- The results are those of the first cases of the job, in order, and only a case without
an expected output has its output in the result. -/
def AnswersCases (job : ExecJob) (results : List CaseResult) : Prop :=
  ∃ first, first <+: job.cases ∧ List.Forall₂ (fun (r : CaseResult) (c : ExecCase) =>
    r.name = c.name ∧ r.group = c.group ∧ (r.stdout = none ∨ c.expected = none)) results first

/-- What there is to say of an exec result besides its schema. -/
structure ExecAnswers (job : ExecJob) (r : ExecResult) : Prop where
  jobId : r.jobId = job.jobId
  cases : AnswersCases job r.cases
  complete : r.cases.length = job.cases.length ∨ r.aborted = some .budget ∨
    (∃ info, r.compile = some info ∧ info.ok = false) ∨ r.unavailable.isSome = true

theorem unavailableExec_answers (job : ExecJob) (reason : String) (host : HostFingerprint) :
    ExecAnswers job (unavailableExec job.jobId reason host) where
  jobId := rfl
  cases := ⟨[], List.nil_prefix, .nil⟩
  complete := Or.inr (Or.inr (Or.inr rfl))

theorem caseAt_answers {c : ExecCase} (h : caseAt env job c k = .ok r) :
    r.name = c.name ∧ r.group = c.group ∧ (r.stdout = none ∨ c.expected = none) := by
  obtain ⟨_, _, _, _, _, _, _, _, hjudge⟩ := caseAt_ok h
  obtain ⟨hname, hgroup, _, hways⟩ := judgeCase_cases hjudge
  refine ⟨hname, hgroup, ?_⟩
  rcases hways with ⟨_, hnone, _⟩ | ⟨_, _, _, _, _, _, _, hout, _⟩ | ⟨_, _, hout, _⟩
  · exact Or.inr hnone
  · exact Or.inl hout
  · exact Or.inl hout

theorem resultOf_answers {o : CliOutcome} {cases : List CaseResult × Option ExecAborted}
    {totalMs : Int} (hcases : casesOf env job o = .ok cases) (htotal : 0 ≤ totalMs) :
    ExecFits host (resultOf job host (compiledOf env o) cases totalMs) ∧
      ExecAnswers job (resultOf job host (compiledOf env o) cases totalMs) := by
  have hcompile : CompileFits (compiledOf env o) :=
    ⟨length_utf16_sliceFront _ _, Int.sub_nonneg.2 (env.clock_mono (by decide))⟩
  have hfirst : ∃ first, first <+: job.cases ∧
      List.Forall₂ (fun r c => ∃ k, caseAt env job c k = .ok r) cases.1 first := by
    unfold casesOf at hcases
    split_ifs at hcases
    · exact casesFrom_forall₂ hcases
    · cases hcases
      exact ⟨[], List.nil_prefix, .nil⟩
  obtain ⟨first, hprefix, hall⟩ := hfirst
  constructor
  · refine ⟨rfl, rfl, rfl, fun info h => Option.some.inj h ▸ hcompile, fun r hr => ?_, htotal,
      fun _ h => nomatch h⟩
    obtain ⟨i, hi, rfl⟩ := List.mem_iff_getElem.1 hr
    obtain ⟨hlength, hget⟩ := List.forall₂_iff_get.1 hall
    obtain ⟨k, hcase⟩ := hget i hi (hlength ▸ hi)
    exact caseAt_fits hcase
  · refine ⟨rfl, ⟨first, hprefix, hall.imp fun r c ⟨k, hcase⟩ => caseAt_answers hcase⟩, ?_⟩
    unfold casesOf at hcases
    split_ifs at hcases with hok
    · obtain ⟨_, hlength, _⟩ := casesFrom_ok hcases
      cases ha : cases.2 with
      | none => exact Or.inl (hlength ha)
      | some a => exact Or.inr (Or.inl ha)
    · exact Or.inr (Or.inr (Or.inl ⟨_, rfl, Bool.eq_false_iff.2 hok⟩))

theorem handleExec_answers (env : WorkerEnv) (host : HostFingerprint) (job : ExecJob) :
    ExecFits host (handleExec env host (.ok job)) ∧
      ExecAnswers job (handleExec env host (.ok job)) := by
  have hunavailable : ∀ reason, ExecFits host (unavailableExec job.jobId reason host) ∧
      ExecAnswers job (unavailableExec job.jobId reason host) := fun reason =>
    ⟨unavailableExec_fits job.jobId reason host, unavailableExec_answers job reason host⟩
  unfold handleExec
  dsimp only
  split
  · exact hunavailable _
  · rcases execute_cases env job host with ⟨_, e, he⟩ | ⟨o, _, _, hloop⟩
    · rw [he]
      exact hunavailable e
    rcases hloop with ⟨e, _, he⟩ | ⟨cases, t, s', hcases, he⟩
    · rw [he]
      exact hunavailable e
    · rw [he]
      exact resultOf_answers hcases (Int.sub_nonneg.2 (env.clock_mono (Nat.zero_le t)))

theorem handleMeasure_fits (env : MeasureEnv) (host : HostFingerprint) (slot : Option String)
    (job : MeasureJob) :
    MeasureFits host (handleMeasure env host slot (.ok job)) ∧
      (handleMeasure env host slot (.ok job)).jobId = job.jobId := by
  unfold handleMeasure
  dsimp only
  cases h : measure env job host slot (env.clock 1) ⟨0, 0, 0⟩ with
  | error reason =>
    exact ⟨⟨rfl, rfl, rfl, (fun _ h => nomatch h), (fun _ h => nomatch h), (fun _ h => nomatch h),
      fun _ h => Option.some.inj h ▸ length_utf16_sliceFront reason 1000⟩, rfl⟩
  | ok p =>
    obtain ⟨r, s⟩ := p
    obtain ⟨m, finishedAt, hm, rfl⟩ := measure_ensures r s h
    refine ⟨⟨rfl, rfl, rfl, fun c hc => ?_, hm.baseline, hm.samples, fun _ h => nomatch h⟩, rfl⟩
    obtain rfl := Option.some.inj hc
    exact ⟨hm.submission, hm.reference⟩

/-- Nothing that a program does makes the answer unreadable: an answer is accepted with the
id of its job, and the cases of an exec result are those of the job, in order. -/
theorem answer_accepted (env : MeasureEnv) (host : HostFingerprint) :
    (∀ job : ExecJob,
      let r := handleExec env.toWorkerEnv host (.ok job)
      checkAnswer execResult job.jobId r.value = .ok () ∧ ExecAnswers job r) ∧
    ∀ (job : MeasureJob) (slot : Option String),
      checkAnswer measureResult job.jobId (handleMeasure env host slot (.ok job)).value =
        .ok () := by
  constructor
  · intro job r
    obtain ⟨hfits, hanswers⟩ := handleExec_answers env.toWorkerEnv host job
    have haccepted := hfits.accepted
    rw [hanswers.jobId] at haccepted
    exact ⟨haccepted, hanswers⟩
  · intro job slot
    obtain ⟨hfits, hid⟩ := handleMeasure_fits env host slot job
    have haccepted := hfits.accepted
    rwa [hid] at haccepted

/-- A program that does not compile has no cases, and nothing was aborted. -/
theorem no_cases_without_compile :
    let r := handleExec (answering (exited 1) (exited 0) (ranWith "0") (exited 0)) sandboxHost
      (.ok oneCase)
    r.aborted ≠ some .budget ∧ r.cases.length ≠ oneCase.cases.length := by
  decide

end Cine.Worker
