import Cine.Grading.Investigator.Types
import Cine.Grading.Sandbox.SourceFiles
import Mathlib.Data.Int.ConditionallyCompleteOrder
import Mathlib.Data.List.Infix

/-!
# The programs of a job

`sandbox-worker/docker-cli.ts`, `classify.ts` and `programs.ts`: what a call of
the docker CLI gives, how the end of a container is judged, and the steps of a
job that call docker.

The calls of docker and the readings of the clock are numbered, and `WorkerEnv`
has the answer to each.  So a statement about every `WorkerEnv` is one about
every sequence of docker outcomes.  The arguments of a call (names, mounts,
limits of the container) only go to docker and are left out, and so is the kill
of a container that has printed too much.  The worker can write its own files.
-/

namespace Cine.Worker

open Cine.Lib Cine.Grading.Sandbox

/-! ## What docker answers -/

/-- A file in memory: a buffer has fewer than `2 ^ 53` bytes. -/
structure Buffer where
  bytes : List Nat
  size : bytes.length < 2 ^ 53

/-- `toString('utf8')`. -/
def textOf (bytes : List Nat) : String := String.ofList (Utf8.decode bytes)

/-- What became of a process of the CLI, all of its output included. -/
structure CliOutcome where
  /-- There is none after a signal. -/
  code : Option Int
  stdout : List Nat
  stderr : String
  wallTimedOut : Bool
  /-- As the clock of the kernel counts them. -/
  ns : UInt64

structure CliResult where
  code : Int
  stdout : List Nat
  stderr : String
  stdoutTruncated : Bool
  wallTimedOut : Bool
  ns : UInt64

def MAX_STDERR : Nat := 64 * 1024

/-- `spawnCli`: the output up to its caps. -/
def spawnCli (maxStdoutBytes : Nat) (o : CliOutcome) : CliResult where
  code := o.code.getD (-1)
  stdout := o.stdout.take maxStdoutBytes
  stderr := sliceFront o.stderr MAX_STDERR
  stdoutTruncated := maxStdoutBytes < o.stdout.length
  wallTimedOut := o.wallTimedOut
  ns := o.ns

inductive FileRef
  | inline (content : String)
  | url (url sha256 : String) (bytes : Nat)
  | generate (n : Nat) (lo hi seed : Int)
deriving DecidableEq, Repr

structure WorkerEnv where
  /-- Call by call; an error is a CLI that cannot be started. -/
  docker : Nat → Except String CliOutcome
  /-- Reading by reading, in milliseconds. -/
  clock : Nat → Int
  clock_mono : Monotone clock
  materialize : FileRef → Except String Buffer
  /-- `numbersClose`, in the arithmetic of the script. -/
  numbersClose : ℚ → String → String → Bool

/-- The calls and readings so far, and the containers that were not removed. -/
structure WorkerState where
  calls : Nat
  readings : Nat
  leaked : Nat
deriving DecidableEq, Repr

/-- A step of a job: an error makes the job unavailable. -/
abbrev JobStep (α : Type) := Tx WorkerState String α

section Docker

variable (env : WorkerEnv)

/-- `docker.run`. -/
def dockerRun (maxStdoutBytes : Nat) : JobStep CliResult := fun s =>
  match env.docker s.calls with
  | .error e => .error e
  | .ok o => .ok (spawnCli maxStdoutBytes o, { s with calls := s.calls + 1 })

/-- `Date.now()`. -/
def now : JobStep Int := fun s =>
  .ok (env.clock s.readings, { s with readings := s.readings + 1 })

/-- `materialize`. -/
def fetch (ref : FileRef) : JobStep Buffer :=
  liftM (env.materialize ref)

/-- Whether `docker rm -f` was carried out. -/
def removed (answer : Except String CliOutcome) : Bool :=
  match answer with
  | .error _ => false
  | .ok o => o.code = some 0

/-- `removeContainer`: a container that stays is only reported. -/
def removeContainer : JobStep Unit := fun s =>
  .ok ((), { s with
    calls := s.calls + 1
    leaked := if removed (env.docker s.calls) then s.leaked else s.leaked + 1 })

end Docker

/-! ## How a container ended -/

inductive RunOutcome
  | ran
  | timeout
  | runtimeCrash
  | recursionLimit
  | outputLimit
deriving DecidableEq, Repr

inductive LimitHit
  | time
  | memory
  | output
deriving DecidableEq, Repr

def RECURSION_EXIT_CODE : Int := 86

/-- `classifyExit`; `oomKilled` is `none` where there is no flag to ask. -/
def classifyExit (exitCode : Int) (oomKilled : Option Bool) (outputTruncated : Bool)
    (language : SandboxLanguage) (elapsedMs wallMs : Nat) : RunOutcome × List LimitHit :=
  if outputTruncated then (.outputLimit, [.output])
  else if oomKilled = some true then (.runtimeCrash, [.memory])
  else if exitCode = 0 then (.ran, [])
  else if exitCode = 124 then (.timeout, [.time])
  else if exitCode = 137 then
    if wallMs ≤ elapsedMs then (.timeout, [.time])
    else (.runtimeCrash, if oomKilled = none then [.memory] else [])
  else if language = .python ∧ exitCode = RECURSION_EXIT_CODE then (.recursionLimit, [])
  else (.runtimeCrash, [])

/-- The characters that end a line of a pattern. -/
def isLineEnd (c : Char) : Bool :=
  c = '\n' || c = '\r' || c = '\u2028' || c = '\u2029'

/-- A line begins with the pattern; `atStart` says that one begins here. -/
def lineStartsWith (pattern : List Char) : Bool → List Char → Bool
  | _, [] => false
  | atStart, c :: text =>
    (atStart && pattern.isPrefixOf (c :: text)) || lineStartsWith pattern (isLineEnd c) text

/-- The words of docker on `stderr`. -/
def dockerSpeaks (stderr : String) : Bool :=
  lineStartsWith "docker: ".toList true stderr.toList ||
    "Error response from daemon".toList <:+: stderr.toList ||
    "OCI runtime".toList <:+: stderr.toList

def isDockerFailure (exitCode : Int) (stderr : String) : Bool :=
  if exitCode < 125 ∨ 127 < exitCode then false else dockerSpeaks stderr

/-- A code of `State.ExitCode`, in decimal. -/
def exitCodeOf : List Char → Option Int
  | '-' :: digits => (decimal digits).map fun n => -(n : Int)
  | digits => (decimal digits).map fun n => (n : Int)
where
  decimal (digits : List Char) : Option Nat :=
    if digits ≠ [] ∧ digits.all Char.isDigit then
      some (digits.foldl (fun n c => 10 * n + (c.toNat - '0'.toNat)) 0)
    else none

structure ContainerState where
  oomKilled : Bool
  started : Bool
  exitCode : Option Int
  error : List Char
deriving DecidableEq, Repr

/-- What `inspectState` reads in the answer. -/
def stateOf (r : CliResult) : ContainerState :=
  let parts := if r.code = 0 then (trimList (Utf8.decode r.stdout)).splitOn '|' else []
  let startedAt := parts.getD 1 []
  { oomKilled := parts.getD 0 [] = "true".toList
    started := startedAt ≠ [] && ! "0001-".toList.isPrefixOf startedAt
    exitCode := exitCodeOf (parts.getD 2 [])
    error := ['|'].intercalate (parts.drop 3) }

def inspectState (env : WorkerEnv) : JobStep ContainerState := do
  let r ← dockerRun env 4096
  return stateOf r

/-! ## The steps of a job -/

structure ProgramSpec where
  files : List (String × FileRef)
  driver : Option FileRef
  entry : Option String
deriving DecidableEq, Repr

/-- `limits` of the contract, as far as the worker reads them. -/
structure Limits where
  wallMsPerCase : Nat
  outputBytes : Nat
  outputBytes_le : outputBytes ≤ 16 * 1024 * 1024

structure CompileInfo where
  ok : Bool
  log : String
  ms : Int
deriving DecidableEq, Repr

structure CaseRun where
  status : RunOutcome
  limitsHit : List LimitHit
  stdout : List Nat
  ms : Nat
deriving DecidableEq, Repr

section Steps

variable (env : WorkerEnv)

def driverFile : SandboxLanguage → String
  | .cpp => "__cine_driver.cpp"
  | .python => "__cine_driver.py"

/-- The program that is started. -/
def entryOf (language : SandboxLanguage) (program : ProgramSpec) : Except String String :=
  match language with
  | .cpp => .ok "a.out"
  | .python =>
    if program.driver.isSome then .ok (driverFile .python)
    else
      let entry := program.entry.getD "undefined"
      if program.files.any fun f => f.1 = entry then .ok entry
      else .error s!"entry {entry} không có trong bài nộp — job dựng sai"

/-- The files of a program, in the order in which they are written. -/
def ProgramSpec.refs (program : ProgramSpec) : List FileRef :=
  program.files.map Prod.snd ++ program.driver.toList

def writeProgram (language : SandboxLanguage) (program : ProgramSpec) : Except String String := do
  let _ ← program.refs.mapM env.materialize
  entryOf language program

/-- The errors of `compile` on what docker answered. -/
def checkCompile (r : CliResult) : Except String Unit :=
  if r.wallTimedOut then .error "docker không trả lời trong hạn biên dịch"
  else if isDockerFailure r.code r.stderr then
    .error s!"docker lỗi khi biên dịch: {sliceFront r.stderr 300}"
  else .ok ()

def compileLog (r : CliResult) : String :=
  sliceFront (if r.code = 124 then "biên dịch quá 60 giây" else textOf r.stdout ++ r.stderr) 16384

/-- `compile`.  After an error the container is removed all the same; nothing reads
what that gives. -/
def compile : JobStep CompileInfo := do
  let started ← now env
  let r ← dockerRun env (64 * 1024)
  liftM (checkCompile r)
  let ended ← now env
  removeContainer env
  return { ok := r.code = 0, log := compileLog r, ms := ended - started }

/-- Docker reports that the code is the program's own. -/
def bySubmission (state : ContainerState) (r : CliResult) : Bool :=
  state.started && state.error = [] && state.exitCode = some r.code

/-- The error of `runCase` on what docker answered. -/
def checkCase (state : ContainerState) (r : CliResult) : Except String Unit :=
  if isDockerFailure r.code r.stderr && !bySubmission state r then
    .error s!"docker lỗi: {sliceFront r.stderr 300}"
  else .ok ()

/-- The outcome of a case, from what docker answered. -/
def caseRunOf (language : SandboxLanguage) (limits : Limits) (state : ContainerState)
    (r : CliResult) : CaseRun :=
  let ms := r.ns.toNat / 1000000
  let c := classifyExit r.code (some state.oomKilled) r.stdoutTruncated language ms
    limits.wallMsPerCase
  { status := c.1, limitsHit := c.2, stdout := r.stdout, ms := ms }

def runCase (language : SandboxLanguage) (limits : Limits) : JobStep CaseRun := do
  let r ← dockerRun env limits.outputBytes
  liftM (if r.wallTimedOut then .error "docker không trả lời trong hạn của ca" else .ok () :
    Except String Unit)
  let state ← inspectState env
  liftM (checkCase state r)
  removeContainer env
  return caseRunOf language limits state r

end Steps

/-! ## What a step comes to -/

section Runs

variable (env : WorkerEnv) (s : WorkerState)

/-- The state after a container was removed, or not. -/
def WorkerState.afterRemove (s : WorkerState) : WorkerState :=
  { s with
    calls := s.calls + 1
    leaked := if removed (env.docker s.calls) then s.leaked else s.leaked + 1 }

theorem dockerRun_run (maxStdoutBytes : Nat) :
    dockerRun env maxStdoutBytes s = (env.docker s.calls).map fun o =>
      (spawnCli maxStdoutBytes o, { s with calls := s.calls + 1 }) := by
  unfold dockerRun
  cases env.docker s.calls <;> rfl

theorem fetch_run (ref : FileRef) :
    fetch env ref s = (env.materialize ref).map fun b => (b, s) := by
  unfold fetch
  cases env.materialize ref <;> rfl

theorem compile_run : compile env s = (env.docker s.calls).bind fun o =>
    let r := spawnCli (64 * 1024) o
    (checkCompile r).map fun _ =>
      ({ ok := r.code = 0
         log := compileLog r
         ms := env.clock (s.readings + 1) - env.clock s.readings },
        WorkerState.afterRemove env
          { s with calls := s.calls + 1, readings := s.readings + 2 }) := by
  unfold compile
  rw [run_bind_ok (show now env s = .ok (env.clock s.readings, _) from rfl)]
  cases hdocker : env.docker s.calls with
  | error e =>
    rw [run_bind_error (e := e)]
    · rfl
    · rw [dockerRun_run, hdocker]
      rfl
  | ok o =>
    rw [run_bind_ok (a := spawnCli (64 * 1024) o)]
    rotate_left
    · rw [dockerRun_run, hdocker]
      rfl
    show _ = Except.map _ (checkCompile (spawnCli (64 * 1024) o))
    cases hcheck : checkCompile (spawnCli (64 * 1024) o) with
    | error e => rfl
    | ok _ => rfl

theorem inspectState_run : inspectState env s = (env.docker s.calls).map fun i =>
    (stateOf (spawnCli 4096 i), { s with calls := s.calls + 1 }) := by
  unfold inspectState
  cases hdocker : env.docker s.calls with
  | error e =>
    rw [run_bind_error (e := e)]
    · rfl
    · rw [dockerRun_run, hdocker]
      rfl
  | ok i =>
    rw [run_bind_ok (a := spawnCli 4096 i)]
    rotate_left
    · rw [dockerRun_run, hdocker]
      rfl
    rfl

theorem runCase_run (language : SandboxLanguage) (limits : Limits) :
    runCase env language limits s = (env.docker s.calls).bind fun o =>
      let r := spawnCli limits.outputBytes o
      if r.wallTimedOut then .error "docker không trả lời trong hạn của ca"
      else (env.docker (s.calls + 1)).bind fun i =>
        let state := stateOf (spawnCli 4096 i)
        (checkCase state r).map fun _ =>
          (caseRunOf language limits state r,
            WorkerState.afterRemove env { s with calls := s.calls + 2 }) := by
  unfold runCase
  cases hdocker : env.docker s.calls with
  | error e =>
    rw [run_bind_error (e := e)]
    · rfl
    · rw [dockerRun_run, hdocker]
      rfl
  | ok o =>
    rw [run_bind_ok (a := spawnCli limits.outputBytes o)]
    rotate_left
    · rw [dockerRun_run, hdocker]
      rfl
    show _ = ite _ _ _
    by_cases hwall : (spawnCli limits.outputBytes o).wallTimedOut = true
    · rw [if_pos hwall, if_pos hwall]
      rfl
    rw [if_neg hwall, if_neg hwall]
    rw [run_bind_ok (show (liftM (Except.ok () : Except String Unit) : JobStep Unit)
      { s with calls := s.calls + 1 } = .ok ((), { s with calls := s.calls + 1 }) from rfl)]
    cases hinspect : env.docker (s.calls + 1) with
    | error e =>
      rw [run_bind_error (e := e)]
      · rfl
      · rw [inspectState_run, hinspect]
        rfl
    | ok i =>
      rw [run_bind_ok (a := stateOf (spawnCli 4096 i))]
      rotate_left
      · rw [inspectState_run, hinspect]
        rfl
      show _ = Except.map _ (checkCase (stateOf (spawnCli 4096 i)) (spawnCli limits.outputBytes o))
      cases hcheck : checkCase (stateOf (spawnCli 4096 i)) (spawnCli limits.outputBytes o) with
      | error e => rfl
      | ok _ => rfl

end Runs

end Cine.Worker
