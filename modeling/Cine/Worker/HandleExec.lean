import Cine.Worker.Comparators
import Cine.Worker.Programs

/-!
# A job that checks a program

`sandbox-worker/handle-exec.ts`: the program is written and compiled, and run on
each case in a container of its own.  Whatever is thrown on the way makes the
whole job unavailable.

* The job, its result, and `handleExec`.
* `casesFrom`: the loop over the cases as a function of the answers, where the
  case at an index makes the next three calls of docker.
* `CaseBroken`: what about a case is the fault of the sandbox, and
  `blame_kept_apart`, which says that this, and the same for the steps before,
  is all that makes a job unavailable.
-/

namespace Cine.Worker

open Cine.Lib Cine.Grading Cine.Grading.Sandbox

/-! ## The job and its result -/

def isUuid (text : List Char) : Bool :=
  let isHex (c : Char) := c.isDigit || ('a' ≤ c && c ≤ 'f') || ('A' ≤ c && c ≤ 'F')
  let parts := text.splitOn '-'
  parts.map List.length = [8, 4, 4, 4, 12] && parts.all (List.all · isHex)

structure JobId where
  text : String
  uuid : isUuid text.toList = true
deriving DecidableEq, Repr

inductive Runtime
  | runc
  | runsc
deriving DecidableEq, Repr

structure HostFingerprint where
  hostname : String
  cpuModel : String
  cpuCount : Nat
  cpuCount_pos : 0 < cpuCount
  kernel : String
  runtime : Runtime
  dockerVersion : String
  images : List (String × String)
  workerVersion : String
deriving DecidableEq, Repr

structure ExecCase where
  name : String
  group : Option String
  stdin : FileRef
  /-- There is none for the tool `run`. -/
  expected : Option FileRef
deriving DecidableEq, Repr

/-- An `execJob` that has passed its schema, as far as the worker reads it. -/
structure ExecJob where
  jobId : JobId
  language : Sandbox.SandboxLanguage
  program : ProgramSpec
  cases : List ExecCase
  comparator : Comparator
  limits : Limits
  budgetMs : Int

structure CaseResult where
  name : String
  group : Option String
  status : CaseStatus
  ms : Nat
  stdout : Option String
  diff : Option String
  limitsHit : List LimitHit
deriving DecidableEq, Repr

/-- `aborted: 'budget'`. -/
inductive ExecAborted
  | budget
deriving DecidableEq, Repr

structure ExecResult where
  contract : Nat
  kind : String
  jobId : JobId
  host : Option HostFingerprint
  compile : Option CompileInfo
  cases : List CaseResult
  totalMs : Int
  aborted : Option ExecAborted
  unavailable : Option String
deriving DecidableEq, Repr

def SANDBOX_CONTRACT_VERSION : Nat := 1

def unavailableExec (id : JobId) (reason : String) (host : HostFingerprint) : ExecResult where
  contract := SANDBOX_CONTRACT_VERSION
  kind := "exec"
  jobId := id
  host := some host
  compile := none
  cases := []
  totalMs := 0
  aborted := none
  unavailable := some (sliceFront reason 1000)

/-! ## The handler -/

def RunOutcome.caseStatus : RunOutcome → CaseStatus
  | .ran => .ran
  | .timeout => .timeout
  | .runtimeCrash => .runtimeCrash
  | .recursionLimit => .recursionLimit
  | .outputLimit => .outputLimit

section Handler

variable (env : WorkerEnv) (job : ExecJob)

/-- What becomes of a case that has been run.  The expected output is fetched only
now, and only if the program ran. -/
def judgeCase (c : ExecCase) (r : CaseRun) : Except String CaseResult :=
  let plain : CaseResult :=
    { name := c.name
      group := c.group
      status := r.status.caseStatus
      ms := r.ms
      stdout := none
      diff := none
      limitsHit := r.limitsHit }
  if r.status = .ran then
    match c.expected with
    | none => .ok { plain with stdout := some (sliceFront (textOf r.stdout) 65536) }
    | some ref => do
      let expected ← env.materialize ref
      let cmp ← compareOutput env.numbersClose (textOf expected.bytes) (textOf r.stdout)
        job.comparator
      return { plain with status := if cmp.equal then .pass else .fail, diff := cmp.diff }
  else .ok plain

def handleCase (c : ExecCase) : JobStep CaseResult := do
  let _ ← fetch env c.stdin
  let r ← runCase env job.language job.limits
  liftM (judgeCase env job c r)

/-- The loop over the cases, which stops when the budget is used up. -/
def runCases (started : Int) : List ExecCase → JobStep (List CaseResult × Option ExecAborted)
  | [] => return ([], none)
  | c :: cases => do
    let t ← now env
    if job.budgetMs < t - started then return ([], some .budget)
    let r ← handleCase env job c
    let (rest, aborted) ← runCases started cases
    return (r :: rest, aborted)

/-- The result, once the program was compiled. -/
def resultOf (host : HostFingerprint) (compiled : CompileInfo)
    (cases : List CaseResult × Option ExecAborted) (totalMs : Int) : ExecResult where
  contract := SANDBOX_CONTRACT_VERSION
  kind := "exec"
  jobId := job.jobId
  host := some host
  compile := some compiled
  cases := cases.1
  totalMs := totalMs
  aborted := cases.2
  unavailable := none

/-- A program that does not compile is run on no case. -/
def runCompiled (started : Int) (compiled : CompileInfo) :
    JobStep (List CaseResult × Option ExecAborted) :=
  if compiled.ok then runCases env job started job.cases else pure ([], none)

def execute (host : HostFingerprint) : JobStep ExecResult := do
  let started ← now env
  let _ ← liftM (writeProgram env job.language job.program)
  let compiled ← compile env
  let cases ← runCompiled env job started compiled
  let ended ← now env
  return resultOf job host compiled cases (ended - started)

/-- The job of a payload: one that does not pass the schema comes with its id and
the message. -/
abbrev Payload (J : Type) := Except (JobId × String) J

end Handler

def handleExec (env : WorkerEnv) (host : HostFingerprint) (raw : Payload ExecJob) : ExecResult :=
  match raw with
  | .error (id, message) => unavailableExec id s!"job sai schema: {message}" host
  | .ok job =>
    match job.comparator with
    | .checker name =>
      unavailableExec job.jobId s!"checker \"{name}\" chưa được cài ở worker" host
    | _ =>
      match execute env job host ⟨0, 0, 0⟩ with
      | .ok (result, _) => result
      | .error reason => unavailableExec job.jobId reason host

/-! ## The loop as a function of the answers -/

section Loop

variable (env : WorkerEnv) (job : ExecJob)

/-- A case whose first call of docker has the number `k`. -/
def caseAt (c : ExecCase) (k : Nat) : Except String CaseResult := do
  let _ ← env.materialize c.stdin
  let o ← env.docker k
  let r := spawnCli job.limits.outputBytes o
  if r.wallTimedOut then .error "docker không trả lời trong hạn của ca"
  else
    let i ← env.docker (k + 1)
    let state := stateOf (spawnCli 4096 i)
    checkCase state r
    judgeCase env job c (caseRunOf job.language job.limits state r)

/-- The loop, from the numbers of its first call and its first reading on. -/
def casesFrom (started : Int) (k t : Nat) :
    List ExecCase → Except String (List CaseResult × Option ExecAborted)
  | [] => .ok ([], none)
  | c :: cases =>
    if job.budgetMs < env.clock t - started then .ok ([], some .budget)
    else do
      let r ← caseAt env job c k
      let rest ← casesFrom started (k + 3) (t + 1) cases
      return (r :: rest.1, rest.2)

theorem handleCase_run (c : ExecCase) (s : WorkerState) :
    handleCase env job c s = (caseAt env job c s.calls).map fun r =>
      (r, WorkerState.afterRemove env { s with calls := s.calls + 2 }) := by
  unfold handleCase caseAt
  cases hstdin : env.materialize c.stdin with
  | error e =>
    rw [run_bind_error (e := e)]
    · rfl
    · rw [fetch_run, hstdin]
      rfl
  | ok b =>
    have hfetch : fetch env c.stdin s = .ok (b, s) := by
      rw [fetch_run, hstdin]
      rfl
    rw [run_bind_ok hfetch]
    have hrun := runCase_run env s job.language job.limits
    cases hdocker : env.docker s.calls with
    | error e =>
      rw [hdocker] at hrun
      rw [run_bind_error hrun]
      rfl
    | ok o =>
      rw [hdocker] at hrun
      by_cases hwall : (spawnCli job.limits.outputBytes o).wallTimedOut = true
      · have hthrow : runCase env job.language job.limits s =
            .error "docker không trả lời trong hạn của ca" := hrun.trans (if_pos hwall)
        rw [run_bind_error hthrow]
        show _ = Except.map _ (ite _ _ _)
        rw [if_pos hwall]
        rfl
      have hrun := hrun.trans (if_neg hwall)
      show _ = Except.map _ (ite _ _ _)
      rw [if_neg hwall]
      cases hinspect : env.docker (s.calls + 1) with
      | error e =>
        rw [hinspect] at hrun
        rw [run_bind_error hrun]
        rfl
      | ok i =>
        rw [hinspect] at hrun
        show _ = Except.map _ (checkCase (stateOf (spawnCli 4096 i))
          (spawnCli job.limits.outputBytes o) >>= _)
        cases hcheck : checkCase (stateOf (spawnCli 4096 i))
            (spawnCli job.limits.outputBytes o) with
        | error e =>
          have hthrow : runCase env job.language job.limits s = .error e :=
            hrun.trans (congrArg (Except.map _) hcheck)
          rw [run_bind_error hthrow]
          rfl
        | ok _ =>
          have hthrow := hrun.trans (congrArg (Except.map _) hcheck)
          rw [run_bind_ok hthrow]
          show (liftM (judgeCase env job c _) : JobStep CaseResult) _ =
            Except.map _ (judgeCase env job c _)
          cases judgeCase env job c (caseRunOf job.language job.limits
            (stateOf (spawnCli 4096 i)) (spawnCli job.limits.outputBytes o)) <;> rfl

theorem runCases_run (started : Int) (cases : List ExecCase) (s : WorkerState) :
    ∃ s', runCases env job started cases s =
      (casesFrom env job started s.calls s.readings cases).map fun x => (x, s') := by
  induction cases generalizing s with
  | nil => exact ⟨s, rfl⟩
  | cons c cases ih =>
    unfold runCases casesFrom
    rw [run_bind_ok (show now env s = .ok (env.clock s.readings, _) from rfl)]
    by_cases hbudget : job.budgetMs < env.clock s.readings - started
    · rw [if_pos hbudget, if_pos hbudget]
      exact ⟨_, rfl⟩
    rw [if_neg hbudget, if_neg hbudget]
    have hrun := handleCase_run env job c { s with readings := s.readings + 1 }
    dsimp only at hrun
    cases hcase : caseAt env job c s.calls with
    | error e =>
      rw [hcase] at hrun
      refine ⟨s, ?_⟩
      rw [run_bind_error hrun]
      rfl
    | ok r =>
      rw [hcase] at hrun
      rw [run_bind_ok hrun]
      obtain ⟨s', hrest⟩ := ih (WorkerState.afterRemove env
        { s with calls := s.calls + 2, readings := s.readings + 1 })
      refine ⟨s', ?_⟩
      cases hfrom : casesFrom env job started (s.calls + 3) (s.readings + 1) cases with
      | error e =>
        have hthrow := hrest.trans (congrArg (Except.map _) hfrom)
        rw [run_bind_error hthrow]
        rfl
      | ok rest =>
        have hthrow := hrest.trans (congrArg (Except.map _) hfrom)
        rw [run_bind_ok hthrow]
        rfl

/-- The case at an index is reached while the budget lasts. -/
def Reached (started : Int) (t i : Nat) : Prop :=
  ∀ j ≤ i, env.clock (t + j) - started ≤ job.budgetMs

variable {env job} {started : Int} {k t : Nat} {cases : List ExecCase}

theorem reached_succ {i : Nat} (h : env.clock t - started ≤ job.budgetMs) :
    Reached env job started t (i + 1) ↔ Reached env job started (t + 1) i := by
  unfold Reached
  constructor
  · intro hall j hj
    have := hall (j + 1) (by omega)
    rwa [show t + (j + 1) = t + 1 + j by omega] at this
  · intro hall j hj
    cases j with
    | zero => exact h
    | succ j =>
      have := hall j (by omega)
      rwa [show t + 1 + j = t + (j + 1) by omega] at this

theorem casesFrom_error_iff :
    (∃ e, casesFrom env job started k t cases = .error e) ↔
      ∃ i c, cases[i]? = some c ∧ Reached env job started t i ∧
        ∃ e, caseAt env job c (k + 3 * i) = .error e := by
  induction cases generalizing k t with
  | nil =>
    refine iff_of_false (fun ⟨e, h⟩ => nomatch h) ?_
    rintro ⟨i, c, hc, _⟩
    cases hc
  | cons c cases ih =>
    unfold casesFrom
    by_cases hbudget : job.budgetMs < env.clock t - started
    · rw [if_pos hbudget]
      refine iff_of_false (fun ⟨e, h⟩ => nomatch h) ?_
      rintro ⟨i, _, _, hreached, _⟩
      have := hreached 0 (Nat.zero_le i)
      rw [Nat.add_zero] at this
      omega
    rw [if_neg hbudget]
    have hbudget := not_lt.1 hbudget
    cases hcase : caseAt env job c k with
    | error e =>
      refine iff_of_true ⟨e, rfl⟩ ⟨0, c, rfl, fun j hj => ?_, e, hcase⟩
      rw [Nat.le_zero.1 hj]
      exact hbudget
    | ok r =>
      have hrest : (∃ e, ((Except.ok r : Except String CaseResult) >>= fun r =>
          casesFrom env job started (k + 3) (t + 1) cases >>= fun rest =>
            pure (r :: rest.1, rest.2)) = .error e) ↔
          ∃ e, casesFrom env job started (k + 3) (t + 1) cases = .error e := by
        show (∃ e, (casesFrom env job started (k + 3) (t + 1) cases >>= _) = .error e) ↔ _
        cases casesFrom env job started (k + 3) (t + 1) cases with
        | error e => exact Iff.rfl
        | ok rest => exact iff_of_false (fun ⟨e, h⟩ => nomatch h) fun ⟨e, h⟩ => nomatch h
      rw [hrest, ih]
      constructor
      · rintro ⟨i, c', hc', hreached, e, he⟩
        refine ⟨i + 1, c', hc', (reached_succ hbudget).2 hreached, e, ?_⟩
        rwa [show k + 3 * (i + 1) = k + 3 + 3 * i by omega]
      · rintro ⟨i, c', hc', hreached, e, he⟩
        cases i with
        | zero =>
          obtain rfl := Option.some.inj hc'
          rw [Nat.mul_zero, Nat.add_zero, hcase] at he
          cases he
        | succ i =>
          refine ⟨i, c', hc', (reached_succ hbudget).1 hreached, e, ?_⟩
          rwa [show k + 3 * (i + 1) = k + 3 + 3 * i by omega] at he

theorem casesFrom_ok {results : List CaseResult} {aborted : Option ExecAborted}
    (h : casesFrom env job started k t cases = .ok (results, aborted)) :
    results.length ≤ cases.length ∧
      (aborted = none → results.length = cases.length) ∧
      ∀ i c, cases[i]? = some c →
        (Reached env job started t i →
          ∃ r, results[i]? = some r ∧ caseAt env job c (k + 3 * i) = .ok r) ∧
        (¬ Reached env job started t i → results[i]? = none) := by
  induction cases generalizing k t results with
  | nil =>
    cases h
    refine ⟨Nat.le_refl 0, fun _ => rfl, fun i c hc => ?_⟩
    cases hc
  | cons c cases ih =>
    unfold casesFrom at h
    split_ifs at h with hbudget
    · cases h
      refine ⟨Nat.zero_le _, (fun h => nomatch h), fun i _ _ => ⟨fun hreached => ?_, fun _ => rfl⟩⟩
      have := hreached 0 (Nat.zero_le i)
      rw [Nat.add_zero] at this
      omega
    · have hbudget := not_lt.1 hbudget
      obtain ⟨r, hcase, h⟩ := bind_eq_ok.1 h
      obtain ⟨rest, hrest, h⟩ := bind_eq_ok.1 h
      obtain ⟨rfl, rfl⟩ := Prod.mk.inj (pure_eq_ok.1 h)
      obtain ⟨hle, hall, hrs⟩ := ih hrest
      refine ⟨Nat.succ_le_succ hle, fun ha => congrArg Nat.succ (hall ha), fun i c' hc' => ?_⟩
      cases i with
      | zero =>
        obtain rfl := Option.some.inj hc'
        refine ⟨fun _ => ⟨r, rfl, hcase⟩, fun hreached => absurd (fun j hj => ?_) hreached⟩
        rw [Nat.le_zero.1 hj]
        exact hbudget
      | succ i =>
        rw [reached_succ hbudget, show k + 3 * (i + 1) = k + 3 + 3 * i by omega]
        exact hrs i c' hc'

end Loop

/-! ## Whose fault it is -/

section Blame

variable (env : WorkerEnv) (job : ExecJob)

/-- A call of docker that gave no answer in time, or could not be made. -/
def NoAnswer (answer : Except String CliOutcome) : Prop :=
  ∀ o, answer = .ok o → o.wallTimedOut = true

/-- Docker's words, with one of its codes. -/
def DockerFailed (maxStdoutBytes : Nat) (o : CliOutcome) : Prop :=
  isDockerFailure (spawnCli maxStdoutBytes o).code (spawnCli maxStdoutBytes o).stderr = true

/-- A container whose state docker reports: it was started, without an error of docker,
and ended with the code that the CLI gave. -/
def Reported (maxStdoutBytes : Nat) (o i : CliOutcome) : Prop :=
  bySubmission (stateOf (spawnCli 4096 i)) (spawnCli maxStdoutBytes o) = true

/-- What about a case is the fault of the sandbox. -/
inductive CaseBroken (c : ExecCase) (k : Nat) : Prop
  | stdin (e : String) (h : env.materialize c.stdin = .error e)
  | noAnswer (h : NoAnswer (env.docker k))
  | noInspect (e : String) (h : env.docker (k + 1) = .error e)
  | daemon (o i : CliOutcome) (ho : env.docker k = .ok o) (hi : env.docker (k + 1) = .ok i)
      (hfailed : DockerFailed job.limits.outputBytes o)
      (hreported : ¬ Reported job.limits.outputBytes o i)
  | expected (o i : CliOutcome) (ref : FileRef) (e : String) (ho : env.docker k = .ok o)
      (hi : env.docker (k + 1) = .ok i)
      (hran : (caseRunOf job.language job.limits (stateOf (spawnCli 4096 i))
        (spawnCli job.limits.outputBytes o)).status = .ran)
      (href : c.expected = some ref) (h : env.materialize ref = .error e)

/-- What about the steps before the cases is. -/
inductive SetupBroken : Prop
  | file (ref : FileRef) (e : String) (hfile : ref ∈ job.program.refs)
      (h : env.materialize ref = .error e)
  | entry (e : String) (h : entryOf job.language job.program = .error e)
  | noAnswer (h : NoAnswer (env.docker 0))
  | daemon (o : CliOutcome) (ho : env.docker 0 = .ok o) (hfailed : DockerFailed (64 * 1024) o)

variable {env job} {c : ExecCase} {k : Nat}

theorem checkCase_ok_iff {state : ContainerState} {r : CliResult} :
    checkCase state r = .ok () ↔
      (isDockerFailure r.code r.stderr = true → bySubmission state r = true) := by
  unfold checkCase
  cases isDockerFailure r.code r.stderr <;> cases bySubmission state r <;> simp

theorem compareOutput_ok (close : ℚ → String → String → Bool) (expected got : String)
    {comparator : Comparator} (h : ∀ name, comparator ≠ .checker name) :
    ∃ cmp, compareOutput close expected got comparator = .ok cmp := by
  cases comparator with
  | exact => exact ⟨_, rfl⟩
  | unorderedLines => exact ⟨_, rfl⟩
  | floatTolerance eps =>
    unfold compareOutput
    dsimp only
    split_ifs
    · exact ⟨_, rfl⟩
    · exact ⟨_, rfl⟩
    · split <;> exact ⟨_, rfl⟩
  | checker name => exact absurd rfl (h name)

theorem judgeCase_error {r : CaseRun} {e : String} (hcomp : ∀ name, job.comparator ≠ .checker name)
    (h : judgeCase env job c r = .error e) :
    r.status = .ran ∧ ∃ ref e, c.expected = some ref ∧ env.materialize ref = .error e := by
  unfold judgeCase at h
  dsimp only at h
  split_ifs at h with hran
  refine ⟨hran, ?_⟩
  cases hc : c.expected with
  | none =>
    rw [hc] at h
    cases h
  | some ref =>
    rw [hc] at h
    dsimp only at h
    cases hb : env.materialize ref with
    | error e => exact ⟨ref, e, rfl, hb⟩
    | ok b =>
      rw [hb] at h
      obtain ⟨cmp, hcmp⟩ := compareOutput_ok env.numbersClose (textOf b.bytes) (textOf r.stdout)
        hcomp
      change (compareOutput env.numbersClose (textOf b.bytes) (textOf r.stdout) job.comparator
        >>= _) = _ at h
      rw [hcmp] at h
      cases h

theorem judgeCase_cases {r : CaseRun} {result : CaseResult}
    (h : judgeCase env job c r = .ok result) :
    result.name = c.name ∧ result.group = c.group ∧ result.ms = r.ms ∧
      ((r.status = .ran ∧ c.expected = none ∧ result.status = .ran ∧ result.diff = none ∧
          result.stdout = some (sliceFront (textOf r.stdout) 65536)) ∨
        (∃ ref b cmp, r.status = .ran ∧ c.expected = some ref ∧ env.materialize ref = .ok b ∧
          compareOutput env.numbersClose (textOf b.bytes) (textOf r.stdout) job.comparator =
            .ok cmp ∧ result.stdout = none ∧ result.diff = cmp.diff) ∨
        (r.status ≠ .ran ∧ result.status = r.status.caseStatus ∧ result.stdout = none ∧
          result.diff = none)) := by
  unfold judgeCase at h
  dsimp only at h
  split_ifs at h with hran
  · cases hc : c.expected with
    | none =>
      rw [hc] at h
      cases h
      exact ⟨rfl, rfl, rfl, Or.inl ⟨hran, rfl, congrArg RunOutcome.caseStatus hran, rfl, rfl⟩⟩
    | some ref =>
      rw [hc] at h
      obtain ⟨b, hb, h⟩ := bind_eq_ok.1 h
      obtain ⟨cmp, hcmp, h⟩ := bind_eq_ok.1 h
      cases h
      exact ⟨rfl, rfl, rfl, Or.inr (Or.inl ⟨ref, b, cmp, hran, rfl, hb, hcmp, rfl, rfl⟩)⟩
  · cases h
    exact ⟨rfl, rfl, rfl, Or.inr (Or.inr ⟨hran, rfl, rfl, rfl⟩)⟩

theorem caseAt_ok {result : CaseResult} (h : caseAt env job c k = .ok result) :
    ∃ b o i, env.materialize c.stdin = .ok b ∧ env.docker k = .ok o ∧ o.wallTimedOut = false ∧
      env.docker (k + 1) = .ok i ∧
      checkCase (stateOf (spawnCli 4096 i)) (spawnCli job.limits.outputBytes o) = .ok () ∧
      judgeCase env job c (caseRunOf job.language job.limits (stateOf (spawnCli 4096 i))
        (spawnCli job.limits.outputBytes o)) = .ok result := by
  unfold caseAt at h
  obtain ⟨b, hb, h⟩ := bind_eq_ok.1 h
  obtain ⟨o, ho, h⟩ := bind_eq_ok.1 h
  dsimp only at h
  split_ifs at h with hwall
  obtain ⟨i, hi, h⟩ := bind_eq_ok.1 h
  obtain ⟨_, hcheck, h⟩ := bind_eq_ok.1 h
  exact ⟨b, o, i, hb, ho, Bool.eq_false_iff.2 hwall, hi, hcheck, h⟩

theorem caseAt_error_iff (hcomp : ∀ name, job.comparator ≠ .checker name) :
    (∃ e, caseAt env job c k = .error e) ↔ CaseBroken env job c k := by
  constructor
  · rintro ⟨e, h⟩
    cases hstdin : env.materialize c.stdin with
    | error e => exact .stdin e hstdin
    | ok b =>
      cases ho : env.docker k with
      | error e => exact .noAnswer fun o h => nomatch ho.symm.trans h
      | ok o =>
        by_cases hwall : o.wallTimedOut = true
        · refine .noAnswer fun o' h => ?_
          rw [ho] at h
          exact Except.ok.inj h ▸ hwall
        cases hi : env.docker (k + 1) with
        | error e => exact .noInspect e hi
        | ok i =>
          unfold caseAt at h
          rw [hstdin, ho, hi] at h
          change (if o.wallTimedOut = true then _ else _) = _ at h
          rw [if_neg hwall] at h
          change (checkCase (stateOf (spawnCli 4096 i)) (spawnCli job.limits.outputBytes o) >>= _)
            = _ at h
          cases hcheck : checkCase (stateOf (spawnCli 4096 i))
              (spawnCli job.limits.outputBytes o) with
          | error e =>
            have hbad : ¬ (isDockerFailure _ _ = true → bySubmission _ _ = true) := fun himp =>
              nomatch hcheck.symm.trans (checkCase_ok_iff.2 himp)
            obtain ⟨hfailed, hreported⟩ := Classical.not_imp.1 hbad
            exact .daemon o i ho hi hfailed hreported
          | ok _ =>
            rw [hcheck] at h
            obtain ⟨hran, ref, e, href, he⟩ := judgeCase_error hcomp h
            exact .expected o i ref e ho hi hran href he
  · intro hbroken
    cases hcase : caseAt env job c k with
    | error e => exact ⟨e, rfl⟩
    | ok result =>
      exfalso
      obtain ⟨b, o, i, hb, ho, hwall, hi, hcheck, hjudge⟩ := caseAt_ok hcase
      cases hbroken with
      | stdin e h =>
        rw [hb] at h
        cases h
      | noAnswer h =>
        rw [h o ho] at hwall
        cases hwall
      | noInspect e h =>
        rw [hi] at h
        cases h
      | daemon o' i' ho' hi' hfailed hreported =>
        rw [ho] at ho'
        rw [hi] at hi'
        obtain rfl := Except.ok.inj ho'
        obtain rfl := Except.ok.inj hi'
        exact hreported (checkCase_ok_iff.1 hcheck hfailed)
      | expected o' i' ref e ho' hi' hran href h =>
        rw [ho] at ho'
        rw [hi] at hi'
        obtain rfl := Except.ok.inj ho'
        obtain rfl := Except.ok.inj hi'
        obtain ⟨_, _, _, hcases⟩ := judgeCase_cases hjudge
        rcases hcases with ⟨_, hnone, _⟩ | ⟨ref', b', _, _, href', hb', _⟩ | ⟨hnot, _⟩
        · rw [hnone] at href
          cases href
        · rw [href] at href'
          obtain rfl := Option.some.inj href'
          rw [hb'] at h
          cases h
        · exact hnot hran

/-- A case with which nothing is wrong but, perhaps, the program. -/
structure CaseFine (env : WorkerEnv) (job : ExecJob) (c : ExecCase) (k : Nat) : Prop where
  stdin : ∃ b, env.materialize c.stdin = .ok b
  expected : ∀ ref, c.expected = some ref → ∃ b, env.materialize ref = .ok b
  reported : ∃ o i, env.docker k = .ok o ∧ o.wallTimedOut = false ∧ env.docker (k + 1) = .ok i ∧
    Reported job.limits.outputBytes o i

theorem CaseFine.not_broken (h : CaseFine env job c k) : ¬ CaseBroken env job c k := by
  obtain ⟨⟨b, hb⟩, hexpected, o, i, ho, hwall, hi, hreported⟩ := h
  intro hbroken
  cases hbroken with
  | stdin e h =>
    rw [hb] at h
    cases h
  | noAnswer h =>
    rw [h o ho] at hwall
    cases hwall
  | noInspect e h =>
    rw [hi] at h
    cases h
  | daemon o' i' ho' hi' _ hnot =>
    rw [ho] at ho'
    rw [hi] at hi'
    obtain rfl := Except.ok.inj ho'
    obtain rfl := Except.ok.inj hi'
    exact hnot hreported
  | expected o' i' ref e _ _ _ href h =>
    obtain ⟨b', hb'⟩ := hexpected ref href
    rw [hb'] at h
    cases h

theorem mapM_error_iff {α β : Type} {f : α → Except String β} {l : List α} :
    (∃ e, l.mapM f = .error e) ↔ ∃ a ∈ l, ∃ e, f a = .error e := by
  induction l with
  | nil => exact iff_of_false (fun ⟨e, h⟩ => nomatch h) fun ⟨a, ha, _⟩ => nomatch ha
  | cons a l ih =>
    rw [List.mapM_cons]
    cases ha : f a with
    | error e => exact iff_of_true ⟨e, rfl⟩ ⟨a, List.mem_cons_self, e, ha⟩
    | ok b =>
      have hrest : (∃ e, ((Except.ok b : Except String β) >>= fun b =>
          l.mapM f >>= fun bs => pure (b :: bs)) = .error e) ↔ ∃ e, l.mapM f = .error e := by
        show (∃ e, (l.mapM f >>= _) = .error e) ↔ _
        cases l.mapM f with
        | error e => exact Iff.rfl
        | ok bs => exact iff_of_false (fun ⟨e, h⟩ => nomatch h) fun ⟨e, h⟩ => nomatch h
      rw [hrest, ih]
      constructor
      · rintro ⟨x, hx, e, he⟩
        exact ⟨x, List.mem_cons_of_mem _ hx, e, he⟩
      · rintro ⟨x, hx, e, he⟩
        rcases List.mem_cons.1 hx with rfl | hx
        · rw [ha] at he
          cases he
        · exact ⟨x, hx, e, he⟩

theorem writeProgram_error_iff :
    (∃ e, writeProgram env job.language job.program = .error e) ↔
      (∃ ref ∈ job.program.refs, ∃ e, env.materialize ref = .error e) ∨
        ∃ e, entryOf job.language job.program = .error e := by
  rw [← mapM_error_iff]
  unfold writeProgram
  cases job.program.refs.mapM env.materialize with
  | error e => exact iff_of_true ⟨e, rfl⟩ (Or.inl ⟨e, rfl⟩)
  | ok bs =>
    show (∃ e, entryOf job.language job.program = .error e) ↔ _
    exact (or_iff_right fun ⟨e, h⟩ => nomatch h).symm

theorem checkCompile_error_iff {r : CliResult} :
    (∃ e, checkCompile r = .error e) ↔
      r.wallTimedOut = true ∨ isDockerFailure r.code r.stderr = true := by
  unfold checkCompile
  cases r.wallTimedOut <;> cases isDockerFailure r.code r.stderr <;> simp

/-- The compile step that docker answered with this. -/
def compiledOf (env : WorkerEnv) (o : CliOutcome) : CompileInfo where
  ok := (spawnCli (64 * 1024) o).code = 0
  log := compileLog (spawnCli (64 * 1024) o)
  ms := env.clock 2 - env.clock 1

/-- The cases of a job whose program was compiled so. -/
def casesOf (env : WorkerEnv) (job : ExecJob) (o : CliOutcome) :
    Except String (List CaseResult × Option ExecAborted) :=
  if (compiledOf env o).ok then casesFrom env job (env.clock 0) 2 3 job.cases else .ok ([], none)

theorem execute_cases (env : WorkerEnv) (job : ExecJob) (host : HostFingerprint) :
    (SetupBroken env job ∧ ∃ e, execute env job host ⟨0, 0, 0⟩ = .error e) ∨
    ∃ o, ¬ SetupBroken env job ∧ env.docker 0 = .ok o ∧
      ((∃ e, casesOf env job o = .error e ∧ execute env job host ⟨0, 0, 0⟩ = .error e) ∨
      ∃ cases t s', casesOf env job o = .ok cases ∧ execute env job host ⟨0, 0, 0⟩ =
        .ok (resultOf job host (compiledOf env o) cases (env.clock t - env.clock 0), s')) := by
  unfold execute
  rw [run_bind_ok (show now env ⟨0, 0, 0⟩ = .ok (env.clock 0, ⟨0, 1, 0⟩) from rfl)]
  have hwrite : (∃ e, writeProgram env job.language job.program = .error e) → SetupBroken env job := by
    intro h
    rcases writeProgram_error_iff.1 h with ⟨ref, href, e, he⟩ | ⟨e, he⟩
    · exact .file ref e href he
    · exact .entry e he
  cases hprogram : writeProgram env job.language job.program with
  | error e => exact Or.inl ⟨hwrite ⟨e, hprogram⟩, e, rfl⟩
  | ok entry =>
    rw [run_bind_ok (show (liftM (Except.ok entry : Except String String) : JobStep String)
      ⟨0, 1, 0⟩ = .ok (entry, ⟨0, 1, 0⟩) from rfl)]
    have hcompile := compile_run env ⟨0, 1, 0⟩
    cases hdocker : env.docker 0 with
    | error e =>
      rw [show env.docker (⟨0, 1, 0⟩ : WorkerState).calls = .error e from hdocker] at hcompile
      refine Or.inl ⟨.noAnswer (fun o h => nomatch hdocker.symm.trans h), e, ?_⟩
      exact run_bind_error hcompile
    | ok o =>
      rw [show env.docker (⟨0, 1, 0⟩ : WorkerState).calls = .ok o from hdocker] at hcompile
      cases hcheck : checkCompile (spawnCli (64 * 1024) o) with
      | error e =>
        refine Or.inl ⟨?_, e, ?_⟩
        · rcases checkCompile_error_iff.1 ⟨e, hcheck⟩ with hwall | hfailed
          · refine .noAnswer fun o' h => ?_
            rw [hdocker] at h
            exact Except.ok.inj h ▸ hwall
          · exact .daemon o hdocker hfailed
        · exact run_bind_error (hcompile.trans (congrArg (Except.map _) hcheck))
      | ok _ =>
        refine Or.inr ⟨o, ?_, rfl, ?_⟩
        · intro hbroken
          have hfine : ∀ {P : Prop}, (∃ e, checkCompile (spawnCli (64 * 1024) o) = .error e) → P :=
            fun ⟨e, he⟩ => nomatch hcheck.symm.trans he
          cases hbroken with
          | file ref e href h =>
            obtain ⟨e, he⟩ := writeProgram_error_iff.2 (Or.inl ⟨ref, href, e, h⟩)
            rw [hprogram] at he
            cases he
          | entry e h =>
            obtain ⟨e, he⟩ := writeProgram_error_iff.2 (Or.inr ⟨e, h⟩)
            rw [hprogram] at he
            cases he
          | noAnswer h => exact hfine (checkCompile_error_iff.2 (Or.inl (h o hdocker)))
          | daemon o' ho' hfailed =>
            rw [hdocker] at ho'
            obtain rfl := Except.ok.inj ho'
            exact hfine (checkCompile_error_iff.2 (Or.inr hfailed))
        · rw [run_bind_ok (hcompile.trans (congrArg (Except.map _) hcheck))]
          have hrun : ∃ s', runCompiled env job (env.clock 0) (compiledOf env o)
              (WorkerState.afterRemove env ⟨1, 3, 0⟩) =
                (casesOf env job o).map fun x => (x, s') := by
            unfold runCompiled casesOf
            split_ifs
            · exact runCases_run env job (env.clock 0) job.cases _
            · exact ⟨_, rfl⟩
          obtain ⟨s', hrun⟩ := hrun
          cases hcases : casesOf env job o with
          | error e =>
            exact Or.inl ⟨e, rfl, run_bind_error (hrun.trans (congrArg (Except.map _) hcases))⟩
          | ok cases =>
            refine Or.inr ⟨cases, s'.readings, { s' with readings := s'.readings + 1 }, rfl, ?_⟩
            exact run_bind_ok (hrun.trans (congrArg (Except.map _) hcases))

theorem handleExec_job {host : HostFingerprint} (hcomp : ∀ name, job.comparator ≠ .checker name) :
    handleExec env host (.ok job) =
      match execute env job host ⟨0, 0, 0⟩ with
      | .ok (result, _) => result
      | .error reason => unavailableExec job.jobId reason host := by
  unfold handleExec
  dsimp only
  split
  · rename_i name hname
    exact absurd hname (hcomp name)
  · rfl

/-- A case that was run by its own is judged as one that ran. -/
def CountsAsRun (status : CaseStatus) : Prop :=
  status = .ran ∨ status = .pass ∨ status = .fail

theorem classifyExit_ran {exitCode : Int} {oomKilled : Option Bool} {truncated : Bool}
    {language : Sandbox.SandboxLanguage} {elapsedMs wallMs : Nat}
    (h : (classifyExit exitCode oomKilled truncated language elapsedMs wallMs).1 = .ran) :
    exitCode = 0 ∧ truncated = false := by
  unfold classifyExit at h
  split_ifs at h with htruncated _ hcode
  exact ⟨hcode, Bool.eq_false_iff.2 htruncated⟩

theorem caseStatus_of_not_ran {status : RunOutcome} (h : status ≠ .ran) :
    ¬ CountsAsRun status.caseStatus := by
  cases status with
  | ran => exact absurd rfl h
  | timeout | runtimeCrash | recursionLimit | outputLimit =>
    rintro (h | h | h) <;> cases h

theorem spawnCli_code {maxStdoutBytes : Nat} {o : CliOutcome} :
    (spawnCli maxStdoutBytes o).code = 0 ↔ o.code = some 0 := by
  show o.code.getD (-1) = 0 ↔ _
  cases o.code <;> simp

theorem caseAt_status {result : CaseResult} (h : caseAt env job c k = .ok result) :
    result.name = c.name ∧ ∃ o, env.docker k = .ok o ∧
      (CountsAsRun result.status →
        o.code = some 0 ∧ o.stdout.length ≤ job.limits.outputBytes) := by
  obtain ⟨_, o, i, _, ho, _, _, _, hjudge⟩ := caseAt_ok h
  obtain ⟨hname, _, _, hcases⟩ := judgeCase_cases hjudge
  refine ⟨hname, o, ho, fun hc => ?_⟩
  have hran : (caseRunOf job.language job.limits (stateOf (spawnCli 4096 i))
      (spawnCli job.limits.outputBytes o)).status = .ran := by
    rcases hcases with ⟨hran, _⟩ | ⟨_, _, _, hran, _⟩ | ⟨hnot, hstatus, _⟩
    · exact hran
    · exact hran
    · rw [hstatus] at hc
      exact absurd hc (caseStatus_of_not_ran hnot)
  obtain ⟨hcode, htruncated⟩ := classifyExit_ran hran
  exact ⟨spawnCli_code.1 hcode, not_lt.1 (of_decide_eq_false htruncated)⟩

theorem casesOf_error_iff {o : CliOutcome} (hcomp : ∀ name, job.comparator ≠ .checker name) :
    (∃ e, casesOf env job o = .error e) ↔ o.code = some 0 ∧ ∃ i c, job.cases[i]? = some c ∧
      Reached env job (env.clock 0) 3 i ∧ CaseBroken env job c (2 + 3 * i) := by
  have hcompiled : (compiledOf env o).ok = true ↔ o.code = some 0 :=
    decide_eq_true_iff.trans spawnCli_code
  unfold casesOf
  split_ifs with hok
  · rw [casesFrom_error_iff, ← hcompiled]
    simp only [caseAt_error_iff hcomp]
    exact (and_iff_right hok).symm
  · exact iff_of_false (fun ⟨e, h⟩ => nomatch h) fun h => hok (hcompiled.2 h.1)

end Blame

/-! ## The words of docker -/

def exited (code : Int) : CliOutcome := ⟨some code, [], "", false, 0⟩

/-- A program that says what docker says, and ends with one of its codes. -/
def imitation : CliOutcome := ⟨some 125, [], "OCI runtime", false, 0⟩

/-- The answer of `docker inspect` for a container that ran. -/
def ranWith (code : String) : CliOutcome :=
  ⟨some 0, ("false|2026-10-01|" ++ code ++ "|").toList.map Char.toNat, "", false, 0⟩

/-- The answers of docker: compile, `rm`, run, inspect, `rm`. -/
def answering (compile run inspect rm : CliOutcome) : WorkerEnv where
  docker k := .ok (if k = 0 then compile else if k = 2 then run else if k = 3 then inspect else rm)
  clock _ := 0
  clock_mono := fun _ _ _ => Int.le_refl 0
  materialize _ := .ok ⟨[], by decide⟩
  numbersClose _ _ _ := true

/-- One case without an expected output. -/
def oneCase : ExecJob where
  jobId := ⟨"00000000-0000-0000-0000-000000000000", by decide +kernel⟩
  language := .cpp
  program := ⟨[("a.cpp", .inline "")], none, none⟩
  cases := [⟨"c1", none, .inline "", none⟩]
  comparator := .exact
  limits := ⟨2000, 1024, by decide⟩
  budgetMs := 120000

def sandboxHost : HostFingerprint := ⟨"h", "c", 1, by decide, "k", .runc, "26", [], "1"⟩

end Cine.Worker
