import Cine.Lib.Machine
import Cine.Lib.OrderedMap

/-!
# The check of an archive, while the student submits again

`checkOne` and `markUnreadable` of `archive-check.service.ts`, the worker of
`archive-check.processor.ts`, the snapshot of `snapshotArchiveExpectations`
in `submission.service.ts` and `requeue` of `archive-recheck.service.ts`, for
one row of `submission`.

Every submission of a student stores its file under the same key.  A job
reads the row, then the size and the bytes under the key, and then writes
what it found; between any two of these steps files and submissions may
arrive.  A read of the storage that fails ends the attempt, and the third
failed attempt ends the job.  The libraries that read archives, and the
rendering of the declared names, are an argument.

There are four groups.

* The verdict on a file.
* The row, the storage and the jobs.
* What one event can do.  `Provenance` says what the recorded verdict was
  made from.
* Runs of any length.
-/

namespace Cine.Submission.ArchiveCheck

open Cine.Lib

abbrev Bytes := List UInt8

inductive ArchiveCheckStatus
  | notApplicable
  | pending
  | passed
  | failed
  | unreadable
  deriving DecidableEq

/-- The columns that a check writes. -/
structure Verdict where
  status : ArchiveCheckStatus
  missing : Option (List String)
  error : Option String
  deriving DecidableEq

inductive ArchiveFormat
  | zip
  | rar
  deriving DecidableEq

inductive ListingError
  | tooManyEntries
  | unreadable (message : String)
  | other

structure FilenameContext where
  studentMssv : String
  studentName : String
  roomName : String
  machineName : Option String

/-- What the check takes from elsewhere. -/
structure ArchiveTools where
  listArchiveEntries : ArchiveFormat → Bytes → Except ListingError (List String)
  toLowerCase : String → String
  renderFilename : String → FilenameContext → String

/-! ## The verdict -/

def archiveCheckMaxBytes : Nat := 200 * 1024 * 1024

def archiveMaxEntries : Nat := 20000

def zipMagics : List Bytes :=
  [[0x50, 0x4b, 0x03, 0x04], [0x50, 0x4b, 0x05, 0x06], [0x50, 0x4b, 0x07, 0x08]]

def rarMagic : Bytes := [0x52, 0x61, 0x72, 0x21, 0x1a, 0x07]

def detectArchiveFormat (buffer : Bytes) : Option ArchiveFormat :=
  if zipMagics.any fun magic => magic.isPrefixOf buffer then some .zip
  else if rarMagic.isPrefixOf buffer then some .rar
  else none

def isSeparator (c : Char) : Bool := c = '/' ∨ c = '\\'

def isDirectory (raw : String) : Bool :=
  match raw.toList.getLast? with
  | none => false
  | some c => isSeparator c

/-- What follows the last separator. -/
def basename (raw : String) : String :=
  .ofList (raw.toList.reverse.takeWhile fun c => !isSeparator c).reverse

/-- The declared names that no entry has. -/
def matchEntries (tools : ArchiveTools) (expected actual : List String) : List String :=
  let names := (actual.filter fun raw => !isDirectory raw).map basename
  let present := (names.filter (· ≠ "")).map tools.toLowerCase
  expected.filter fun name => tools.toLowerCase name ∉ present

def unreadable (reason : String) : Verdict := ⟨.unreadable, none, some reason⟩

def describeError : ListingError → String
  | .tooManyEntries => "File nén khai quá " ++ toString archiveMaxEntries ++ " mục — dừng đọc."
  | .unreadable message => "Không mở được file nén: " ++ message
  | .other => "Không mở được file nén."

/-- What `checkOne` makes of the bytes that it has read. -/
def inspect (tools : ArchiveTools) (expected : List String) (buffer : Bytes) : Verdict :=
  match detectArchiveFormat buffer with
  | none => unreadable "File không phải định dạng .zip hay .rar đọc được."
  | some format =>
    match tools.listArchiveEntries format buffer with
    | .error error => unreadable (describeError error)
    | .ok actual =>
      let missing := matchEntries tools expected actual
      ⟨if missing = [] then .passed else .failed, some missing, none⟩

/-- What an attempt has read when it comes to its conclusion. -/
inductive Evidence
  | noObject
  | oversize (sized : Bytes)
  | whole (expected : List String) (sized buffer : Bytes)
  deriving DecidableEq

def verdictOf (tools : ArchiveTools) : Evidence → Verdict
  | .noObject => unreadable "Không tìm thấy file trên kho lưu trữ."
  | .oversize sized => unreadable ("File quá lớn để mở ra kiểm (" ++ toString sized.length ++
      " byte, trần " ++ toString archiveCheckMaxBytes ++ " byte).")
  | .whole expected _ buffer => inspect tools expected buffer

def exhaustedVerdict : Verdict :=
  unreadable "Không kiểm được sau nhiều lần thử. Bấm \"Kiểm lại\" để chạy lại."

/-! ## The row, the storage and the jobs -/

/-- A submission that was confirmed: the file that was stored, and the names
that its archive should have. -/
structure Confirmed where
  serial : Nat
  file : Bytes
  expected : List String
  deriving DecidableEq

/-- A check of a submission reads this. -/
def Confirmed.evidence (submission : Confirmed) : Evidence :=
  if submission.file.length > archiveCheckMaxBytes then .oversize submission.file
  else .whole submission.expected submission.file submission.file

inductive JobPhase
  | queued
  /-- The row is read. -/
  | sizing (expected : List String)
  /-- The size of the object is read. -/
  | reading (expected : List String) (sized : Bytes)
  | concluding (evidence : Evidence)
  /-- The last attempt has failed. -/
  | exhausted
  deriving DecidableEq

structure ArchiveJob where
  /-- The submission that the job was queued for. -/
  serial : Nat
  attemptsMade : Nat
  phase : JobPhase
  deriving DecidableEq

/-- What a recorded verdict was made from. -/
inductive Provenance
  | evidence (evidence : Evidence)
  | exhausted (serial : Nat)
  deriving DecidableEq

structure SubmissionState where
  verdict : Verdict
  archiveExpectedEntries : Option (List String)
  stored : Option Bytes
  latest : Option Confirmed
  jobs : OrderedMap Nat ArchiveJob
  nextJob : Nat
  /-- The job that has written the verdict. -/
  writer : Option Provenance

/-- A row that nothing was stored for. -/
def unsubmitted : SubmissionState :=
  ⟨⟨.notApplicable, none, none⟩, none, none, none, .empty, 0, none⟩

def attempts : Nat := 3

/-- `queue.add`. -/
def SubmissionState.enqueue (s : SubmissionState) (serial : Nat) : SubmissionState :=
  { s with
    jobs := s.jobs.set s.nextJob ⟨serial, 0, .queued⟩
    nextJob := s.nextJob + 1 }

/-- The queue takes a job, or does not. -/
def SubmissionState.offer (s : SubmissionState) (serial : Nat) (enqueued : Bool) :
    SubmissionState :=
  if enqueued then s.enqueue serial else s

def pending : Verdict := ⟨.pending, none, none⟩

/-- The row after a submission whose archive is to be checked. -/
def SubmissionState.snapshot (s : SubmissionState) (submission : Confirmed) : SubmissionState :=
  { s with
    verdict := pending
    archiveExpectedEntries := some submission.expected
    latest := some submission
    writer := none }

/-- The row after a submission that declares nothing. -/
def SubmissionState.undeclared (s : SubmissionState) (submission : Confirmed) : SubmissionState :=
  { s with
    verdict := ⟨.notApplicable, none, none⟩
    archiveExpectedEntries := none
    latest := some submission
    writer := none }

/-- `writeCollected` with `snapshotArchiveExpectations`, and what follows the
commit.  `enqueued` is whether the queue took the job. -/
def SubmissionState.confirm (s : SubmissionState) (tools : ArchiveTools) (entries : List String)
    (context : FilenameContext) (enqueued : Bool) : SubmissionState :=
  match s.stored with
  | none => s
  | some file =>
    let expected := entries.map fun entry => tools.renderFilename entry context
    let submission : Confirmed := ⟨(s.latest.map (·.serial + 1)).getD 0, file, expected⟩
    if entries = [] then s.undeclared submission
    else (s.snapshot submission).offer submission.serial enqueued

/-- The rows that `requeue` takes. -/
def SubmissionState.recheckable (s : SubmissionState) : Bool :=
  (s.verdict.status = .failed ∨ s.verdict.status = .unreadable ∨ s.verdict.status = .pending) ∧
    s.archiveExpectedEntries.isSome

def SubmissionState.requeue (s : SubmissionState) (enqueued : Bool) : SubmissionState :=
  match s.latest with
  | none => s
  | some submission =>
    if s.recheckable then
      { s with verdict := pending, writer := none }.offer submission.serial enqueued
    else s

def SubmissionState.setPhase (s : SubmissionState) (id : Nat) (job : ArchiveJob)
    (phase : JobPhase) : SubmissionState :=
  { s with jobs := s.jobs.set id { job with phase := phase } }

def SubmissionState.failAttempt (s : SubmissionState) (id : Nat) (job : ArchiveJob) :
    SubmissionState :=
  let job := { job with attemptsMade := job.attemptsMade + 1 }
  s.setPhase id job (if job.attemptsMade < attempts then .queued else .exhausted)

def SubmissionState.endJob (s : SubmissionState) (id : Nat) : SubmissionState :=
  { s with jobs := s.jobs.erase id }

/-- A job ends with a verdict on the row. -/
def SubmissionState.conclude (s : SubmissionState) (id : Nat) (verdict : Verdict)
    (writer : Provenance) : SubmissionState :=
  { s.endJob id with
    verdict := verdict
    writer := some writer }

def SubmissionState.readRow (s : SubmissionState) (id : Nat) (job : ArchiveJob) :
    SubmissionState :=
  match s.archiveExpectedEntries with
  | none => s.endJob id
  | some expected =>
    if s.verdict.status = .notApplicable then s.endJob id else s.setPhase id job (.sizing expected)

/-- `getObjectSize`. -/
def SubmissionState.readSize (s : SubmissionState) (id : Nat) (job : ArchiveJob)
    (expected : List String) : SubmissionState :=
  match s.stored with
  | none => s.setPhase id job (.concluding .noObject)
  | some sized =>
    if sized.length > archiveCheckMaxBytes then s.setPhase id job (.concluding (.oversize sized))
    else s.setPhase id job (.reading expected sized)

/-- `getObject`.  An object that is gone makes it throw. -/
def SubmissionState.readObject (s : SubmissionState) (id : Nat) (job : ArchiveJob)
    (expected : List String) (sized : Bytes) : SubmissionState :=
  match s.stored with
  | none => s.failAttempt id job
  | some buffer => s.setPhase id job (.concluding (.whole expected sized buffer))

/-- A job goes on to its next step.  `reachable` is whether the storage
answers. -/
def SubmissionState.runJob (s : SubmissionState) (tools : ArchiveTools) (id : Nat)
    (reachable : Bool) : SubmissionState :=
  match s.jobs.get? id with
  | none => s
  | some job =>
    match job.phase with
    | .queued => s.readRow id job
    | .sizing expected =>
      if reachable then s.readSize id job expected else s.failAttempt id job
    | .reading expected sized =>
      if reachable then s.readObject id job expected sized else s.failAttempt id job
    | .concluding evidence => s.conclude id (verdictOf tools evidence) (.evidence evidence)
    | .exhausted => s.conclude id exhaustedVerdict (.exhausted job.serial)

inductive SubmissionEvent
  /-- The agent stores a file. -/
  | put (file : Bytes)
  | confirm (context : FilenameContext) (enqueued : Bool)
  | requeue (enqueued : Bool)
  | runJob (id : Nat) (reachable : Bool)

def step (tools : ArchiveTools) (entries : List String) (s : SubmissionState) :
    SubmissionEvent → SubmissionState
  | .put file => { s with stored := some file }
  | .confirm context enqueued => s.confirm tools entries context enqueued
  | .requeue enqueued => s.requeue enqueued
  | .runJob id reachable => s.runJob tools id reachable

/-! ## What one event can do -/

/-- No job of the row is queued or running. -/
def Quiet (s : SubmissionState) : Prop := s.jobs.entries = []

/-- The recorded verdict comes from a check of the submission, or from its own
job that has run out of attempts. -/
def Explained (tools : ArchiveTools) (s : SubmissionState) (submission : Confirmed) : Prop :=
  s.writer = some (.evidence submission.evidence) ∧
      s.verdict = verdictOf tools submission.evidence ∨
    s.writer = some (.exhausted submission.serial) ∧ s.verdict = exhaustedVerdict

/-- When nothing is under way, the row describes the latest submission. -/
def Described (tools : ArchiveTools) (entries : List String) (s : SubmissionState) : Prop :=
  Quiet s → ∀ submission, s.latest = some submission →
    if entries = [] then s.verdict = ⟨.notApplicable, none, none⟩ ∧ s.writer = none
    else Explained tools s submission

/-- What a job that is about to write knows is about the latest submission. -/
def AboutLatest (s : SubmissionState) (job : ArchiveJob) : Prop :=
  ∀ submission, s.latest = some submission →
    match job.phase with
    | .concluding evidence => evidence = submission.evidence
    | .exhausted => job.serial = submission.serial
    | _ => True

/-- The condition on an event.  The job that ends last knows the latest
submission, and a job that the queue refuses is not the only one. -/
def Allowed (entries : List String) (s : SubmissionState) : SubmissionEvent → Prop
  | .put _ => True
  | .confirm _ enqueued =>
    s.stored.isSome = true → entries ≠ [] → enqueued = false → ¬ Quiet s
  | .requeue enqueued =>
    s.latest.isSome = true → s.recheckable = true → enqueued = false → ¬ Quiet s
  | .runJob id _ => ∀ job, s.jobs.get? id = some job → Quiet (s.endJob id) → AboutLatest s job

/-- What every event keeps. -/
structure Inv (entries : List String) (s : SubmissionState) : Prop where
  undeclared : entries = [] → Quiet s ∧ s.archiveExpectedEntries = none ∧
    s.verdict = ⟨.notApplicable, none, none⟩ ∧ s.writer = none
  declared : entries ≠ [] → s.latest.isSome = true →
    s.archiveExpectedEntries.isSome = true ∧ s.verdict.status ≠ .notApplicable
  jobs : ∀ id job, s.jobs.get? id = some job → s.latest.isSome = true

variable {s : SubmissionState} {entries : List String} {tools : ArchiveTools}

theorem not_quiet_of_job {id : Nat} {job : ArchiveJob} (h : s.jobs.get? id = some job) :
    ¬ Quiet s := by
  intro hquiet
  unfold Quiet at hquiet
  unfold OrderedMap.get? at h
  rw [hquiet] at h
  cases h

theorem not_quiet_setPhase (s : SubmissionState) (id : Nat) (job : ArchiveJob)
    (phase : JobPhase) : ¬ Quiet (s.setPhase id job phase) :=
  not_quiet_of_job (OrderedMap.get?_set_self s.jobs id _)

theorem not_quiet_enqueue (s : SubmissionState) (serial : Nat) : ¬ Quiet (s.enqueue serial) :=
  not_quiet_of_job (OrderedMap.get?_set_self s.jobs s.nextJob _)

theorem unreadable_applicable (reason : String) : (unreadable reason).status ≠ .notApplicable := by
  simp [unreadable]

theorem inspect_applicable (tools : ArchiveTools) (expected : List String) (buffer : Bytes) :
    (inspect tools expected buffer).status ≠ .notApplicable := by
  unfold inspect
  split
  · exact unreadable_applicable _
  · split
    · exact unreadable_applicable _
    · dsimp only
      split_ifs <;> simp

theorem verdictOf_applicable (tools : ArchiveTools) (evidence : Evidence) :
    (verdictOf tools evidence).status ≠ .notApplicable := by
  cases evidence with
  | noObject => exact unreadable_applicable _
  | oversize sized => exact unreadable_applicable _
  | whole expected sized buffer => exact inspect_applicable tools expected buffer

/-- An event that writes no verdict and keeps what the row is about, up to the
phases of the jobs. -/
structure Underway (s s' : SubmissionState) : Prop where
  busy : ¬ Quiet s'
  verdict : s'.verdict = s.verdict
  expected : s'.archiveExpectedEntries = s.archiveExpectedEntries
  latest : s'.latest = s.latest

theorem underway_setPhase (s : SubmissionState) (id : Nat) (job : ArchiveJob)
    (phase : JobPhase) : Underway s (s.setPhase id job phase) :=
  ⟨not_quiet_setPhase s id job phase, rfl, rfl, rfl⟩

theorem underway_failAttempt (s : SubmissionState) (id : Nat) (job : ArchiveJob) :
    Underway s (s.failAttempt id job) :=
  underway_setPhase s id _ _

theorem runJob_cases (h : Inv entries s) (tools : ArchiveTools) {id : Nat} {job : ArchiveJob}
    (hjob : s.jobs.get? id = some job) (reachable : Bool) :
    (Underway s (s.runJob tools id reachable) ∧ AboutLatest s job) ∨
    (∃ evidence, job.phase = .concluding evidence ∧ s.runJob tools id reachable =
      s.conclude id (verdictOf tools evidence) (.evidence evidence)) ∨
    (job.phase = .exhausted ∧ s.runJob tools id reachable =
      s.conclude id exhaustedVerdict (.exhausted job.serial)) := by
  have hdeclared : entries ≠ [] := fun hnone => not_quiet_of_job hjob (h.undeclared hnone).1
  obtain ⟨hexpected, happlicable⟩ := h.declared hdeclared (h.jobs id job hjob)
  unfold SubmissionState.runJob AboutLatest
  rw [hjob]
  dsimp only
  cases hphase : job.phase with
  | queued =>
    refine .inl ⟨?_, fun _ _ => trivial⟩
    obtain ⟨expected, hsome⟩ := Option.isSome_iff_exists.1 hexpected
    unfold SubmissionState.readRow
    rw [hsome]
    dsimp only
    rw [if_neg happlicable]
    exact underway_setPhase s id job _
  | sizing expected =>
    refine .inl ⟨?_, fun _ _ => trivial⟩
    dsimp only
    unfold SubmissionState.readSize
    split_ifs
    · split
      · exact underway_setPhase s id job _
      · split_ifs
        · exact underway_setPhase s id job _
        · exact underway_setPhase s id job _
    · exact underway_failAttempt s id job
  | reading expected sized =>
    refine .inl ⟨?_, fun _ _ => trivial⟩
    dsimp only
    unfold SubmissionState.readObject
    split_ifs
    · split
      · exact underway_failAttempt s id job
      · exact underway_setPhase s id job _
    · exact underway_failAttempt s id job
  | concluding evidence => exact .inr (.inl ⟨evidence, rfl, rfl⟩)
  | exhausted => exact .inr (.inr ⟨rfl, rfl⟩)

theorem Inv.underway {s' : SubmissionState} (h : Inv entries s) (hdeclared : entries ≠ [])
    (hlatest : s.latest.isSome = true) (hunder : Underway s s') : Inv entries s' := by
  refine ⟨fun hnone => absurd hnone hdeclared, fun _ _ => ?_, fun _ _ _ => ?_⟩
  · rw [hunder.expected, hunder.verdict]
    exact h.declared hdeclared hlatest
  · rw [hunder.latest]
    exact hlatest

theorem Inv.conclude (h : Inv entries s) (hdeclared : entries ≠ [])
    (hlatest : s.latest.isSome = true) (id : Nat) {verdict : Verdict}
    (happlicable : verdict.status ≠ .notApplicable) (writer : Provenance) :
    Inv entries (s.conclude id verdict writer) :=
  ⟨fun hnone => absurd hnone hdeclared,
    fun _ _ => ⟨(h.declared hdeclared hlatest).1, happlicable⟩, fun _ _ _ => hlatest⟩

theorem Inv.runJob (h : Inv entries s) (tools : ArchiveTools) (id : Nat) (reachable : Bool) :
    Inv entries (s.runJob tools id reachable) := by
  cases hjob : s.jobs.get? id with
  | none =>
    unfold SubmissionState.runJob
    rw [hjob]
    exact h
  | some job =>
    have hlatest := h.jobs id job hjob
    have hdeclared : entries ≠ [] := fun hnone => not_quiet_of_job hjob (h.undeclared hnone).1
    rcases runJob_cases h tools hjob reachable with
      ⟨hunder, _⟩ | ⟨evidence, _, heq⟩ | ⟨_, heq⟩
    · exact h.underway hdeclared hlatest hunder
    · rw [heq]
      exact h.conclude hdeclared hlatest id (verdictOf_applicable tools evidence) _
    · rw [heq]
      exact h.conclude hdeclared hlatest id (unreadable_applicable _) _

theorem offer_rows (s : SubmissionState) (serial : Nat) (enqueued : Bool) :
    (s.offer serial enqueued).verdict = s.verdict ∧
      (s.offer serial enqueued).archiveExpectedEntries = s.archiveExpectedEntries ∧
      (s.offer serial enqueued).latest = s.latest ∧
      (s.offer serial enqueued).writer = s.writer := by
  unfold SubmissionState.offer
  split <;> exact ⟨rfl, rfl, rfl, rfl⟩

theorem quiet_offer_iff (s : SubmissionState) (serial : Nat) (enqueued : Bool) :
    Quiet (s.offer serial enqueued) ↔ enqueued = false ∧ Quiet s := by
  unfold SubmissionState.offer
  cases enqueued with
  | true =>
    refine iff_of_false ?_ fun h => nomatch h.1
    exact not_quiet_enqueue s serial
  | false => exact ⟨fun h => ⟨rfl, h⟩, fun h => h.2⟩

theorem confirm_cases (s : SubmissionState) (tools : ArchiveTools) (entries : List String)
    (context : FilenameContext) (enqueued : Bool) :
    (s.stored.isSome = false ∧ s.confirm tools entries context enqueued = s) ∨
    (entries = [] ∧ ∃ submission,
      s.confirm tools entries context enqueued = s.undeclared submission) ∨
    (s.stored.isSome = true ∧ entries ≠ [] ∧ ∃ submission,
      s.confirm tools entries context enqueued =
        (s.snapshot submission).offer submission.serial enqueued) := by
  unfold SubmissionState.confirm
  cases hstored : s.stored with
  | none => exact .inl ⟨rfl, rfl⟩
  | some file =>
    dsimp only
    by_cases hentries : entries = []
    · rw [if_pos hentries]
      exact .inr (.inl ⟨hentries, _, rfl⟩)
    · rw [if_neg hentries]
      exact .inr (.inr ⟨rfl, hentries, _, rfl⟩)

theorem requeue_cases (s : SubmissionState) (enqueued : Bool) :
    (¬ (s.latest.isSome = true ∧ s.recheckable = true) ∧ s.requeue enqueued = s) ∨
    (s.recheckable = true ∧ ∃ submission, s.latest = some submission ∧
      s.requeue enqueued =
        { s with verdict := pending, writer := none }.offer submission.serial enqueued) := by
  unfold SubmissionState.requeue
  cases hlatest : s.latest with
  | none => exact .inl ⟨fun h => (nomatch h.1), rfl⟩
  | some submission =>
    dsimp only
    by_cases hrecheckable : s.recheckable = true
    · rw [if_pos hrecheckable]
      exact .inr ⟨hrecheckable, submission, rfl, rfl⟩
    · rw [if_neg hrecheckable]
      exact .inl ⟨fun h => hrecheckable h.2, rfl⟩

theorem recheckable_expected (h : s.recheckable = true) :
    s.archiveExpectedEntries.isSome = true := by
  unfold SubmissionState.recheckable at h
  exact (of_decide_eq_true h).2

theorem Inv.step (h : Inv entries s) (tools : ArchiveTools) (event : SubmissionEvent) :
    Inv entries (step tools entries s event) := by
  cases event with
  | put file => exact ⟨h.undeclared, h.declared, h.jobs⟩
  | runJob id reachable => exact h.runJob tools id reachable
  | confirm context enqueued =>
    show Inv entries (s.confirm tools entries context enqueued)
    rcases confirm_cases s tools entries context enqueued with
      ⟨_, heq⟩ | ⟨hnone, submission, heq⟩ | ⟨_, hsome, submission, heq⟩
    · rw [heq]
      exact h
    · rw [heq]
      exact ⟨fun _ => ⟨(h.undeclared hnone).1, rfl, rfl, rfl⟩,
        fun hsome => absurd hnone hsome, fun _ _ _ => rfl⟩
    · rw [heq]
      obtain ⟨hverdict, hexpected, hlatest, _⟩ :=
        offer_rows (s.snapshot submission) submission.serial enqueued
      refine ⟨fun hnone => absurd hnone hsome, fun _ _ => ?_, fun _ _ _ => ?_⟩
      · rw [hexpected, hverdict]
        exact ⟨rfl, by simp [SubmissionState.snapshot, pending]⟩
      · rw [hlatest]
        rfl
  | requeue enqueued =>
    show Inv entries (s.requeue enqueued)
    rcases requeue_cases s enqueued with ⟨_, heq⟩ | ⟨hrecheckable, submission, hsome, heq⟩
    · rw [heq]
      exact h
    · rw [heq]
      have hdeclared : entries ≠ [] := by
        intro hnone
        have hexpected := recheckable_expected hrecheckable
        rw [(h.undeclared hnone).2.1] at hexpected
        cases hexpected
      obtain ⟨hverdict, hexpected, hlatest, _⟩ :=
        offer_rows { s with verdict := pending, writer := none } submission.serial enqueued
      refine ⟨fun hnone => absurd hnone hdeclared, fun _ _ => ?_, fun _ _ _ => ?_⟩
      · rw [hexpected, hverdict]
        exact ⟨recheckable_expected (s := s) hrecheckable, by simp [pending]⟩
      · rw [hlatest]
        show s.latest.isSome = true
        rw [hsome]
        rfl

theorem inv_unsubmitted (entries : List String) : Inv entries unsubmitted :=
  ⟨fun _ => ⟨rfl, rfl, rfl, rfl⟩, fun _ hsome => (nomatch hsome), fun _ _ hjob => (nomatch hjob)⟩

/-! ## Runs -/

theorem described_of_not_quiet (h : ¬ Quiet s) : Described tools entries s :=
  fun hquiet => absurd hquiet h

theorem not_explained_of_writer (h : s.writer = none) (submission : Confirmed) :
    ¬ Explained tools s submission := by
  unfold Explained
  rw [h]
  rintro (⟨hwriter, _⟩ | ⟨hwriter, _⟩) <;> cases hwriter

theorem described_offer_iff {submission : Confirmed} (hdeclared : entries ≠ [])
    (hlatest : s.latest = some submission) (hwriter : s.writer = none) (serial : Nat)
    (enqueued : Bool) :
    Described tools entries (s.offer serial enqueued) ↔ (enqueued = false → ¬ Quiet s) := by
  obtain ⟨_, _, hlatest', hwriter'⟩ := offer_rows s serial enqueued
  unfold Described
  rw [quiet_offer_iff, hlatest', hlatest]
  constructor
  · intro h hrefused hquiet
    have hexplained := h ⟨hrefused, hquiet⟩ submission rfl
    rw [if_neg hdeclared] at hexplained
    exact not_explained_of_writer (hwriter'.trans hwriter) submission hexplained
  · intro h ⟨hrefused, hquiet⟩
    exact absurd hquiet (h hrefused)

theorem described_conclude_evidence_iff (hdeclared : entries ≠ []) (id : Nat) (evidence : Evidence) :
    Described tools entries (s.conclude id (verdictOf tools evidence) (.evidence evidence)) ↔
      (Quiet (s.endJob id) → ∀ submission, s.latest = some submission →
        evidence = submission.evidence) := by
  refine imp_congr_right fun _ => forall_congr' fun submission => imp_congr_right fun _ => ?_
  rw [if_neg hdeclared]
  constructor
  · rintro (⟨hwriter, _⟩ | ⟨hwriter, _⟩)
    · injection hwriter with hwriter
      injection hwriter
    · injection hwriter with hwriter
      cases hwriter
  · rintro rfl
    exact .inl ⟨rfl, rfl⟩

theorem described_conclude_exhausted_iff (hdeclared : entries ≠ []) (id serial : Nat) :
    Described tools entries (s.conclude id exhaustedVerdict (.exhausted serial)) ↔
      (Quiet (s.endJob id) → ∀ submission, s.latest = some submission →
        serial = submission.serial) := by
  refine imp_congr_right fun _ => forall_congr' fun submission => imp_congr_right fun _ => ?_
  rw [if_neg hdeclared]
  constructor
  · rintro (⟨hwriter, _⟩ | ⟨hwriter, _⟩)
    · injection hwriter with hwriter
      cases hwriter
    · injection hwriter with hwriter
      injection hwriter
  · rintro rfl
    exact .inr ⟨rfl, rfl⟩

theorem described_runJob_iff (h : Inv entries s) (hdescribed : Described tools entries s) (id : Nat)
    (reachable : Bool) :
    Described tools entries (s.runJob tools id reachable) ↔
      ∀ job, s.jobs.get? id = some job → Quiet (s.endJob id) → AboutLatest s job := by
  cases hjob : s.jobs.get? id with
  | none =>
    unfold SubmissionState.runJob
    rw [hjob]
    exact iff_of_true hdescribed fun _ hnone => nomatch hnone
  | some job =>
    have hdeclared : entries ≠ [] := fun hnone => not_quiet_of_job hjob (h.undeclared hnone).1
    have hone : (∀ job', some job = some job' → Quiet (s.endJob id) → AboutLatest s job') ↔
        (Quiet (s.endJob id) → AboutLatest s job) := by
      constructor
      · intro hall
        exact hall job rfl
      · rintro hthis _ ⟨⟩
        exact hthis
    rw [hone]
    rcases runJob_cases h tools hjob reachable with
      ⟨hunder, habout⟩ | ⟨evidence, hphase, heq⟩ | ⟨hphase, heq⟩
    · exact iff_of_true (described_of_not_quiet hunder.busy) fun _ => habout
    · rw [heq, described_conclude_evidence_iff hdeclared]
      unfold AboutLatest
      rw [hphase]
    · rw [heq, described_conclude_exhausted_iff hdeclared]
      unfold AboutLatest
      rw [hphase]

theorem described_step_iff (h : Inv entries s) (hdescribed : Described tools entries s)
    (event : SubmissionEvent) :
    Described tools entries (step tools entries s event) ↔ Allowed entries s event := by
  cases event with
  | put file => exact iff_of_true hdescribed trivial
  | runJob id reachable => exact described_runJob_iff h hdescribed id reachable
  | confirm context enqueued =>
    show Described tools entries (s.confirm tools entries context enqueued) ↔
      (s.stored.isSome = true → entries ≠ [] → enqueued = false → ¬ Quiet s)
    rcases confirm_cases s tools entries context enqueued with
      ⟨hstored, heq⟩ | ⟨hnone, submission, heq⟩ | ⟨hstored, hsome, submission, heq⟩
    · rw [heq, hstored]
      exact iff_of_true hdescribed fun hfalse => nomatch hfalse
    · rw [heq]
      refine iff_of_true (fun _ other _ => ?_) fun _ hsome => absurd hnone hsome
      rw [if_pos hnone]
      exact ⟨rfl, rfl⟩
    · rw [heq, described_offer_iff hsome rfl rfl]
      exact ⟨fun hthis _ _ => hthis, fun hthis => hthis hstored hsome⟩
  | requeue enqueued =>
    show Described tools entries (s.requeue enqueued) ↔
      (s.latest.isSome = true → s.recheckable = true → enqueued = false → ¬ Quiet s)
    rcases requeue_cases s enqueued with ⟨hnot, heq⟩ | ⟨hrecheckable, submission, hsome, heq⟩
    · rw [heq]
      exact iff_of_true hdescribed fun hlatest hre => absurd ⟨hlatest, hre⟩ hnot
    · have hdeclared : entries ≠ [] := by
        intro hnone
        have hexpected := recheckable_expected hrecheckable
        rw [(h.undeclared hnone).2.1] at hexpected
        cases hexpected
      rw [heq, described_offer_iff (s := { s with verdict := pending, writer := none }) hdeclared
        hsome rfl]
      refine ⟨fun hthis _ _ => hthis, fun hthis => hthis ?_ hrecheckable⟩
      rw [hsome]
      rfl

/-- An archive without entries: the end of its central directory. -/
def emptyArchive : Bytes := [0x50, 0x4b, 0x05, 0x06] ++ List.replicate 18 0

/-- The tools, on an archive without entries and names in ASCII that declare
no variable. -/
def plainTools : ArchiveTools where
  listArchiveEntries := fun _ _ => .ok []
  toLowerCase := fun name => .ofList (name.toList.map Char.toLower)
  renderFilename := fun entry _ => entry

def seat12 : FilenameContext := ⟨"20120001", "An", "P1", some "PC12"⟩

end Cine.Submission.ArchiveCheck
