import Cine.Worker.HandleExec

/-!
# A job that measures a program

`sandbox-worker/handle-measure.ts`: the submission, and the reference if there is
one, each keep one container for the whole job, and every sample is a `docker exec`
in it.  A sample is timed outside by the worker and inside by a line that the
program writes on `stderr`, so what stands in that line is the program's choice.

* `roundDouble` and `parseTiming`: the number of such a line.
* The job, its result, and `handleMeasure`.
* `Fits`: what every sample keeps to, and that the loops keep it.

The containers are removed when the job is over, and nothing of the result depends
on it.  The loops over the repeats, the points and the programs run through one
list of turns.
-/

namespace Cine.Worker

open Cine.Lib Cine.Grading.Sandbox

/-! ## The numbers of a timing line -/

/-- A whole number of the script that is not negative. -/
inductive JsNumber
  | finite (n : Nat)
  | infinity
deriving DecidableEq, Repr

/-- `Number` of decimal digits: the closest double, the even one of two. -/
def roundDouble (n : Nat) : JsNumber :=
  if n < 2 ^ 53 then .finite n
  else
    let unit := 2 ^ (n.log2 - 52)
    let low := n / unit
    let up := unit < 2 * (n % unit) ∨ (unit = 2 * (n % unit) ∧ low % 2 = 1)
    let rounded := (if up then low + 1 else low) * unit
    if rounded < 2 ^ 1024 then .finite rounded else .infinity

structure Timing where
  ns : JsNumber
  checksum : Option String
deriving DecidableEq, Repr

/-- `\S+`. -/
def isWord (text : List Char) : Bool := text ≠ [] && text.all fun c => !isSpace c

/-- A line that has the code of the sample. -/
def timingOf (nonce : String) (line : List Char) : Option Timing :=
  match line.splitOn ' ' with
  | [tag, code, digits, checksum] =>
    if tag = "CINE_T".toList ∧ isWord code ∧ isWord checksum ∧ code = nonce.toList then
      (exitCodeOf.decimal digits).map fun n =>
        { ns := roundDouble n
          checksum := if checksum = ['-'] then none else
            some (sliceFront (String.ofList checksum) 64) }
    else none
  | _ => none

/-- `parseTiming`: the last such line. -/
def parseTiming (stderr nonce : String) : Option Timing :=
  ((stderr.toList.splitOnP isLineEnd).filterMap (timingOf nonce)).getLast?

example : parseTiming "CINE_T abc 5 1\nCINE_T xyz 7 2\nCINE_T abc 9 3\n" "abc" =
    some ⟨.finite 9, some "3"⟩ := by
  decide +kernel

/-! ## The job and its result -/

inductive TimingMode
  | inProcess
  | process
deriving DecidableEq, Repr

inductive Who
  | submission
  | reference
deriving DecidableEq, Repr

structure MeasurePoint where
  n : Nat
  n_pos : 0 < n
  stdin : FileRef
deriving Repr

/-- A `measureJob` that has passed its schema, as far as the worker reads it. -/
structure MeasureJob where
  jobId : JobId
  language : SandboxLanguage
  timingMode : TimingMode
  submission : ProgramSpec
  reference : Option ProgramSpec
  points : List MeasurePoint
  repeats : Nat
  limits : Limits
  budgetMs : Int

inductive SampleStatus
  | ok
  | timeout
  | runtimeCrash
  | recursionLimit
  | outputLimit
deriving DecidableEq, Repr

/-- What is taken down of one run. -/
structure Measured where
  status : SampleStatus
  innerNs : Option JsNumber
  outerNs : JsNumber
  checksum : Option String
deriving DecidableEq, Repr

structure BaselineSample where
  program : Who
  innerNs : Option JsNumber
  outerNs : JsNumber
deriving DecidableEq, Repr

structure MeasureSample extends Measured where
  program : Who
  n : Nat
  /-- `repeat`. -/
  round : Nat
deriving DecidableEq, Repr

inductive MeasureAborted
  | interference
  | compileError
  | budget
deriving DecidableEq, Repr

/-- `compile` of a result. -/
structure Compiled where
  submission : CompileInfo
  reference : Option CompileInfo
deriving DecidableEq, Repr

structure MeasureResult where
  contract : Nat
  kind : String
  jobId : JobId
  host : Option HostFingerprint
  slot : Option String
  timingMode : TimingMode
  compile : Option Compiled
  baseline : List BaselineSample
  samples : List MeasureSample
  aborted : Option MeasureAborted
  startedAt : String
  finishedAt : String
  unavailable : Option String
deriving DecidableEq, Repr

/-- `unavailableMeasure`, at a time. -/
def unavailableMeasure (at_ : String) (id : JobId) (reason : String) (host : HostFingerprint) :
    MeasureResult where
  contract := SANDBOX_CONTRACT_VERSION
  kind := "measure"
  jobId := id
  host := some host
  slot := none
  timingMode := .inProcess
  compile := none
  baseline := []
  samples := []
  aborted := none
  startedAt := at_
  finishedAt := at_
  unavailable := some (sliceFront reason 1000)

/-- What a job that measures reads besides. -/
structure MeasureEnv extends WorkerEnv where
  /-- The code of the sample that makes the call with this number. -/
  nonce : Nat → String
  toISOString : Int → String
  /-- The time at which the job is found unavailable, if it is. -/
  failedAt : Int

/-! ## Checks on docker and the container -/

def MAX_TIMED_STDOUT : Nat := 64 * 1024
def BASELINE_RUNS : Nat := 5
def EXPECTED_PROCESSES : Nat := 2

def require (c : Bool) (message : String) : Except String Unit :=
  if c then .ok () else .error message

/-- The lines of a text, trimmed, without those that are empty. -/
def trimmedLines (text : List Char) : List (List Char) :=
  ((text.splitOn '\n').map trimList).filter (· ≠ [])

inductive IpcState
  | clean
  | dirty
  | unknown
deriving DecidableEq, Repr

/-- The text in front of `@@`, and the text behind it. -/
def splitAtMark : List Char → Option (List Char × List Char)
  | '@' :: '@' :: after => some ([], after)
  | c :: text => (splitAtMark text).map fun p => (c :: p.1, p.2)
  | [] => none

/-- `/^key\s+(shmid|msqid|semid)\b/`. -/
def isHead (line : List Char) : Bool :=
  let rest := line.drop 3
  let word := rest.dropWhile isSpace
  "key".toList.isPrefixOf line && word ≠ rest &&
    ["shmid", "msqid", "semid"].any fun name => name.toList.isPrefixOf word &&
      ((word.drop 5).head?.all fun c => !(c.isAlphanum || c = '_'))

def ipcState (out : List Char) : IpcState :=
  match splitAtMark out with
  | none => .unknown
  | some (before, after) =>
    let sysv := trimmedLines before
    let heads := sysv.filter isHead
    if heads.length ≠ 3 then .unknown
    else if heads.length < sysv.length ∨ 0 < (trimmedLines after).length then .dirty
    else .clean

/-- `/No such (object|container)/i`. -/
def noSuchContainer (stderr : String) : Bool :=
  let text := stderr.toList.map Char.toLower
  "no such object".toList <:+: text || "no such container".toList <:+: text

section Docker

variable (env : MeasureEnv)

def slotLabel (slot : Option String) : String := slot.getD "unpinned"

/-- The containers that have the label of the slot. -/
def listContainers : JobStep (List (List Char)) := do
  let r ← dockerRun env.toWorkerEnv (64 * 1024)
  liftM (require (r.code = 0) s!"docker ps lỗi: {sliceFront r.stderr 300}")
  return trimmedLines (Utf8.decode r.stdout)

/-- What is said of a slot that does not become free. -/
def checkSlot (slot : Option String) (still : List (List Char)) : Except String Unit :=
  require still.isEmpty (s!"khe {slotLabel slot} còn container sót (" ++
    ", ".intercalate (still.map String.ofList) ++ ") — không đo trên một khe bẩn")

def clearSlot (slot : Option String) (stale : List (List Char)) : JobStep Unit :=
  if stale = [] then pure ()
  else do
    stale.forM fun _ => removeContainer env.toWorkerEnv
    let still ← listContainers env
    liftM (checkSlot slot still)

def ensureSlotFree (slot : Option String) : JobStep Unit := do
  let stale ← listContainers env
  clearSlot env slot stale

def startContainer : JobStep Unit := do
  let r ← dockerRun env.toWorkerEnv 4096
  liftM (require (r.code = 0) s!"không khởi động được container đo: {sliceFront r.stderr 300}")

def isRunning : JobStep Bool := do
  let r ← dockerRun env.toWorkerEnv 64
  liftM (require (r.code = 0 || noSuchContainer r.stderr)
    s!"docker inspect lỗi: {sliceFront r.stderr 300}")
  return r.code = 0 && trimList (Utf8.decode r.stdout) = "true".toList

/-- After a command that failed: a container that is still there is an error. -/
def goneOr (message : String) : JobStep Bool := do
  let running ← isRunning env
  liftM (require (!running) message)
  return false

/-- The check of what a program left in the IPC namespace. -/
def ipcClean : JobStep Bool := do
  let ipc ← dockerRun env.toWorkerEnv (64 * 1024)
  if ipc.code ≠ 0 then
    goneOr env s!"không kiểm được trạng thái IPC của container đo: {sliceFront ipc.stderr 300}"
  else do
    let state := ipcState (Utf8.decode ipc.stdout)
    liftM (require (state ≠ .unknown)
      "không đọc được trạng thái IPC của container đo — không coi là sạch")
    return state = .clean

def isClean : JobStep Bool := do
  let r ← dockerRun env.toWorkerEnv (64 * 1024)
  if r.code ≠ 0 then goneOr env s!"docker top lỗi: {sliceFront r.stderr 300}"
  else
    if EXPECTED_PROCESSES + 1 < (trimmedLines (Utf8.decode r.stdout)).length then return false
    else ipcClean env

/-- After words of docker: `false` if the container is gone. -/
def stillThere (r : CliResult) : JobStep Bool :=
  if isDockerFailure r.code r.stderr then do
    let running ← isRunning env
    if running then do
      let probe ← dockerRun env.toWorkerEnv 1024
      liftM (require (probe.code = 0) s!"docker exec lỗi: {sliceFront r.stderr 300}")
      return true
    else return false
  else return true

end Docker

/-! ## Samples -/

def RunOutcome.sampleStatus : RunOutcome → SampleStatus
  | .ran => .ok
  | .timeout => .timeout
  | .runtimeCrash => .runtimeCrash
  | .recursionLimit => .recursionLimit
  | .outputLimit => .outputLimit

section Handler

variable (env : MeasureEnv) (job : MeasureJob)

/-- What is taken down of a run, from what docker answered. -/
def measuredOf (nonce : String) (r : CliResult) : Measured :=
  let c := classifyExit r.code none r.stdoutTruncated job.language (r.ns.toNat / 1000000)
    job.limits.wallMsPerCase
  let timing := if c.1 = .ran then parseTiming r.stderr nonce else none
  let printed := sliceFront (trim (textOf r.stdout)) 64
  let stdoutChecksum := if job.timingMode = .process ∧ printed ≠ "" then some printed else none
  { status := c.1.sampleStatus
    innerNs := timing.map Timing.ns
    outerNs := roundDouble r.ns.toNat
    checksum := (timing.bind Timing.checksum).or stdoutChecksum }

/-- `sample`; there is none if the container is gone. -/
def sample : JobStep (Option Measured) := do
  let s ← get
  let r ← dockerRun env.toWorkerEnv MAX_TIMED_STDOUT
  liftM (require (!r.wallTimedOut) "docker exec không trả lời trong hạn")
  let there ← stillThere env r
  return if there then some (measuredOf job (env.nonce s.calls) r) else none

/-- The error has no message. -/
def baselineOf (p : Who) : Option Measured → Except String BaselineSample
  | none => .error ""
  | some s => .ok { program := p, innerNs := s.innerNs, outerNs := s.outerNs }

/-- The turns of the empty program. -/
def warmup (t0 : Int) : List Who → JobStep (List BaselineSample × Option MeasureAborted)
  | [] => return ([], none)
  | p :: turns => do
    let t ← now env.toWorkerEnv
    if job.budgetMs < t - t0 then return ([], some .budget)
    let s ← sample env job
    let b ← liftM (baselineOf p s)
    let (rest, aborted) ← warmup t0 turns
    return (b :: rest, aborted)

structure Turn where
  program : Who
  point : MeasurePoint
  round : Nat
deriving Repr

/-- The order of the programs changes from one round to the next. -/
def turnsOf (programs : List Who) : List Turn :=
  (List.range job.repeats).flatMap fun r => job.points.flatMap fun point =>
    (if r % 2 = 0 then programs else programs.reverse).map fun p => ⟨p, point, r⟩

def Turn.sampleOf (turn : Turn) (s : Measured) : MeasureSample :=
  { s with program := turn.program, n := turn.point.n, round := turn.round }

/-- What happened to a container is laid to the submission, never to the reference. -/
def interference (p : Who) (message : String) (samples : List MeasureSample) :
    Except String (List MeasureSample × Option MeasureAborted) :=
  match p with
  | .submission => .ok (samples, some .interference)
  | .reference => .error message

/-- The turns of the programs. -/
def measuring (t0 : Int) : List Turn → JobStep (List MeasureSample × Option MeasureAborted)
  | [] => return ([], none)
  | turn :: turns => do
    let t ← now env.toWorkerEnv
    if job.budgetMs < t - t0 then return ([], some .budget)
    let s ← sample env job
    match s with
    | none => liftM (interference turn.program "container của đáp án mẫu chết giữa chừng" [])
    | some s =>
      let clean ← isClean env
      if clean then do
        let (rest, aborted) ← measuring t0 turns
        return (turn.sampleOf s :: rest, aborted)
      else
        liftM (interference turn.program "đáp án mẫu để lại tiến trình nền — lỗi của gói chấm"
          [turn.sampleOf s])

/-! ## The handler -/

/-- What a job has measured. -/
structure Measurement where
  compile : Compiled
  baseline : List BaselineSample
  samples : List MeasureSample
  aborted : Option MeasureAborted

def prepare (program : ProgramSpec) : JobStep CompileInfo := do
  let _ ← liftM (writeProgram env.toWorkerEnv job.language program)
  compile env.toWorkerEnv

/-- A reference that does not compile is the fault of the bundle. -/
def prepareReference : JobStep (Option CompileInfo) :=
  match job.reference with
  | none => return none
  | some program => do
    let info ← prepare env job program
    liftM (require info.ok
      "đáp án mẫu không biên dịch được — lỗi của gói chấm, không phải của bài")
    startContainer env
    return some info

/-- There are no samples if the budget was used up before. -/
def measureTurns (t0 : Int) (programs : List Who) :
    Option MeasureAborted → JobStep (List MeasureSample × Option MeasureAborted)
  | none => measuring env job t0 (turnsOf job programs)
  | some aborted => return ([], some aborted)

def measureStarted (t0 : Int) (compiled : Compiled) : JobStep Measurement := do
  let _ ← job.points.mapM fun p => fetch env.toWorkerEnv p.stdin
  let programs := .submission :: (compiled.reference.toList.map fun _ => Who.reference)
  let (baseline, aborted) ← warmup env job t0
    (programs.flatMap fun p => List.replicate BASELINE_RUNS p)
  let (samples, aborted) ← measureTurns env job t0 programs aborted
  return { compile := compiled, baseline := baseline, samples := samples, aborted := aborted }

/-- A submission that does not compile is not measured. -/
def measureCompiled (t0 : Int) (info : CompileInfo) : JobStep Measurement :=
  if info.ok then do
    startContainer env
    let reference ← prepareReference env job
    measureStarted env job t0 ⟨info, reference⟩
  else return ⟨⟨info, none⟩, [], [], some .compileError⟩

/-- The result of a job that was measured. -/
def measureResultOf (host : HostFingerprint) (slot : Option String) (m : Measurement)
    (startedAt finishedAt : Int) : MeasureResult where
  contract := SANDBOX_CONTRACT_VERSION
  kind := "measure"
  jobId := job.jobId
  host := some host
  slot := slot
  timingMode := job.timingMode
  compile := some m.compile
  baseline := m.baseline
  samples := m.samples
  aborted := m.aborted
  startedAt := env.toISOString startedAt
  finishedAt := env.toISOString finishedAt
  unavailable := none

def measure (host : HostFingerprint) (slot : Option String) (startedAt : Int) :
    JobStep MeasureResult := do
  let t0 ← now env.toWorkerEnv
  let _ ← now env.toWorkerEnv
  ensureSlotFree env slot
  let info ← prepare env job job.submission
  let m ← measureCompiled env job t0 info
  let finishedAt ← now env.toWorkerEnv
  return measureResultOf env job host slot m startedAt finishedAt

end Handler

def handleMeasure (env : MeasureEnv) (host : HostFingerprint) (slot : Option String)
    (raw : Payload MeasureJob) : MeasureResult :=
  match raw with
  | .error (id, message) =>
    unavailableMeasure (env.toISOString env.failedAt) id s!"job sai schema: {message}" host
  | .ok job =>
    let startedAt := env.clock 1
    match measure env job host slot startedAt ⟨0, 0, 0⟩ with
    | .ok (result, _) => result
    | .error reason =>
      { unavailableMeasure (env.toISOString env.failedAt) job.jobId reason host with
        slot := slot
        timingMode := job.timingMode
        startedAt := env.toISOString startedAt }

/-! ## What every sample keeps to -/

/-- The outer time is a number, and the checksum is as short as the result wants it. -/
structure Fits (m : Measured) : Prop where
  outerNs : ∃ n, m.outerNs = .finite n
  checksum : ∀ c, m.checksum = some c → (utf16 c).length ≤ 64

theorem roundDouble_finite {n : Nat} (h : n < 2 ^ 64) : ∃ m, roundDouble n = .finite m := by
  unfold roundDouble
  by_cases hexact : n < 2 ^ 53
  · exact ⟨n, if_pos hexact⟩
  rw [if_neg hexact]
  have hunit : 2 ^ (n.log2 - 52) ≤ 2 ^ 64 := by
    refine Nat.pow_le_pow_right (by decide) ?_
    have := (Nat.log2_lt (show n ≠ 0 by omega)).2 h
    omega
  generalize 2 ^ (n.log2 - 52) = unit at hunit ⊢
  have hle : ∀ (up : Prop) [Decidable up],
      (if up then n / unit + 1 else n / unit) ≤ 2 ^ 64 := by
    intro up _
    have := Nat.div_le_self n unit
    split_ifs <;> omega
  have hsmall : 2 ^ 64 * 2 ^ 64 < 2 ^ 1024 :=
    (Nat.pow_add 2 64 64).symm.trans_lt (Nat.pow_lt_pow_right (by decide) (by decide))
  dsimp only
  exact ⟨_, if_pos ((Nat.mul_le_mul (hle _) hunit).trans_lt hsmall)⟩

theorem length_checksum {nonce stderr c : String} {t : Timing}
    (h : parseTiming stderr nonce = some t) (hc : t.checksum = some c) :
    (utf16 c).length ≤ 64 := by
  obtain ⟨line, _, ht⟩ := List.mem_filterMap.1 (List.mem_of_getLast? h)
  unfold timingOf at ht
  split at ht
  · split at ht
    rotate_left
    · cases ht
    obtain ⟨n, _, rfl⟩ := Option.map_eq_some_iff.1 ht
    dsimp only at hc
    split_ifs at hc
    obtain rfl := Option.some.inj hc
    exact length_utf16_sliceFront _ 64
  · cases ht

section Runs

variable {env : MeasureEnv} {job : MeasureJob} {s : WorkerState}

theorem measuredOf_fits (nonce : String) (r : CliResult) : Fits (measuredOf job nonce r) := by
  constructor
  · exact roundDouble_finite r.ns.toNat_lt
  · intro c hc
    rcases Option.or_eq_some_iff.1 hc with hc | ⟨_, hc⟩
    · obtain ⟨t, ht, hc⟩ := Option.bind_eq_some_iff.1 hc
      split_ifs at ht
      exact length_checksum ht hc
    · split_ifs at hc
      obtain rfl := Option.some.inj hc
      exact length_utf16_sliceFront _ 64

theorem sample_ensures : Ensures (sample env job) s fun m _ => ∀ x, m = some x → Fits x := by
  unfold sample
  refine ensures_bind (ensures_get ?_)
  refine ensures_bind fun r s₁ _ => ?_
  refine ensures_bind fun _ s₂ _ => ?_
  refine ensures_bind fun there s₃ _ => ensures_pure ?_
  intro x hx
  split_ifs at hx
  obtain rfl := Option.some.inj hx
  exact measuredOf_fits _ r

theorem warmup_ensures (t0 : Int) (turns : List Who) :
    Ensures (warmup env job t0 turns) s fun b _ => ∀ x ∈ b.1, ∃ n, x.outerNs = .finite n := by
  induction turns generalizing s with
  | nil => exact ensures_pure fun x hx => nomatch hx
  | cons p turns ih =>
    unfold warmup
    refine ensures_bind fun t s₁ _ => ?_
    refine ensures_ite (fun _ => ensures_pure fun x hx => nomatch hx) fun _ => ?_
    refine sample_ensures.bind fun m s₂ hm => ?_
    refine ensures_bind (ensures_lift fun b hb => ?_)
    refine ih.bind fun rest s₃ hrest => ensures_pure ?_
    intro x hx
    rcases List.mem_cons.1 hx with rfl | hx
    · cases m with
      | none => cases hb
      | some m =>
        cases hb
        exact (hm m rfl).outerNs
    · exact hrest x hx

structure SampleFits (m : MeasureSample) : Prop extends Fits m.toMeasured where
  n_pos : 0 < m.n

theorem sampleOf_fits {turn : Turn} {m : Measured} (h : Fits m) : SampleFits (turn.sampleOf m) :=
  ⟨h, turn.point.n_pos⟩

theorem interference_ensures {p : Who} {message : String} {samples : List MeasureSample}
    (h : ∀ x ∈ samples, SampleFits x) :
    Ensures (liftM (interference p message samples) :
      JobStep (List MeasureSample × Option MeasureAborted)) s fun b _ => ∀ x ∈ b.1, SampleFits x := by
  refine ensures_lift fun b hb => ?_
  cases p with
  | submission =>
    cases hb
    exact h
  | reference => cases hb

theorem measuring_ensures (t0 : Int) (turns : List Turn) :
    Ensures (measuring env job t0 turns) s fun b _ => ∀ x ∈ b.1, SampleFits x := by
  induction turns generalizing s with
  | nil => exact ensures_pure fun x hx => nomatch hx
  | cons turn turns ih =>
    unfold measuring
    refine ensures_bind fun t s₁ _ => ?_
    refine ensures_ite (fun _ => ensures_pure fun x hx => nomatch hx) fun _ => ?_
    refine sample_ensures.bind fun m s₂ hm => ?_
    cases m with
    | none => exact interference_ensures fun x hx => nomatch hx
    | some m =>
      have hturn : SampleFits (turn.sampleOf m) := sampleOf_fits (hm m rfl)
      refine ensures_bind fun clean s₃ _ => ensures_ite (fun _ => ?_) fun _ => ?_
      · refine ih.bind fun rest s₄ hrest => ensures_pure ?_
        exact List.forall_mem_cons.2 ⟨hturn, hrest⟩
      · exact interference_ensures (List.forall_mem_singleton.2 hturn)

/-- The log of a compile step is cut, and its clock does not run backwards. -/
structure CompileFits (info : CompileInfo) : Prop where
  log : (utf16 info.log).length ≤ 16384
  ms : 0 ≤ info.ms

theorem compile_fits {env : WorkerEnv} {s : WorkerState} :
    Ensures (compile env) s fun info _ => CompileFits info := by
  intro info s' h
  rw [compile_run] at h
  cases hdocker : env.docker s.calls with
  | error e =>
    rw [hdocker] at h
    cases h
  | ok o =>
    rw [hdocker] at h
    obtain ⟨_, _, h⟩ := map_eq_ok.1 h
    obtain ⟨rfl, _⟩ := Prod.mk.inj h
    exact ⟨length_utf16_sliceFront _ _,
      Int.sub_nonneg.2 (env.clock_mono (Nat.le_succ s.readings))⟩

/-- What a job has measured fits into the result. -/
structure MeasurementFits (m : Measurement) : Prop where
  submission : CompileFits m.compile.submission
  reference : ∀ info, m.compile.reference = some info → CompileFits info
  baseline : ∀ b ∈ m.baseline, ∃ n, b.outerNs = .finite n
  samples : ∀ x ∈ m.samples, SampleFits x

theorem prepare_ensures {program : ProgramSpec} :
    Ensures (prepare env job program) s fun info _ => CompileFits info := by
  unfold prepare
  exact ensures_bind fun _ _ _ => compile_fits

theorem prepareReference_ensures :
    Ensures (prepareReference env job) s fun r _ => ∀ info, r = some info → CompileFits info := by
  unfold prepareReference
  split
  · exact ensures_pure fun info h => nomatch h
  · refine prepare_ensures.bind fun info s₁ hinfo => ?_
    refine ensures_bind fun _ s₂ _ => ensures_bind fun _ s₃ _ => ensures_pure ?_
    intro info' h
    obtain rfl := Option.some.inj h
    exact hinfo

theorem measureTurns_ensures (t0 : Int) (programs : List Who) (aborted : Option MeasureAborted) :
    Ensures (measureTurns env job t0 programs aborted) s fun b _ => ∀ x ∈ b.1, SampleFits x := by
  cases aborted with
  | none => exact measuring_ensures t0 _
  | some aborted => exact ensures_pure fun x hx => nomatch hx

theorem measureCompiled_ensures (t0 : Int) {info : CompileInfo} (h : CompileFits info) :
    Ensures (measureCompiled env job t0 info) s fun m _ => MeasurementFits m := by
  unfold measureCompiled
  refine ensures_ite (fun _ => ?_) fun _ => ensures_pure ?_
  · refine ensures_bind fun _ s₁ _ => prepareReference_ensures.bind fun reference s₂ href => ?_
    unfold measureStarted
    refine ensures_bind fun _ s₃ _ => (warmup_ensures t0 _).bind fun b s₄ hb => ?_
    refine (measureTurns_ensures t0 _ b.2).bind fun x s₅ hx => ensures_pure ?_
    exact ⟨h, href, hb, hx⟩
  · exact ⟨h, (fun _ h => nomatch h), (fun _ h => nomatch h), fun _ h => nomatch h⟩

theorem measure_ensures {host : HostFingerprint} {slot : Option String} {startedAt : Int} :
    Ensures (measure env job host slot startedAt) s fun r _ => ∃ m finishedAt,
      MeasurementFits m ∧ r = measureResultOf env job host slot m startedAt finishedAt := by
  unfold measure
  refine ensures_bind fun t0 s₁ _ => ensures_bind fun _ s₂ _ => ensures_bind fun _ s₃ _ => ?_
  refine prepare_ensures.bind fun info s₄ hinfo => ?_
  refine (measureCompiled_ensures t0 hinfo).bind fun m s₅ hm => ?_
  exact ensures_bind fun finishedAt s₆ _ => ensures_pure ⟨m, finishedAt, hm, rfl⟩

end Runs

end Cine.Worker
