import Cine.Agent.Workspace
import Cine.Lib.Machine

/-!
# Backup and restore

A run of the agent after its machine has been wiped: `doHandleJoinAck` of
`session-controller.ts` with `restoreBackup` and `uploadSnapshot` of
`backup.ts` and `downloadMaterials` of `exam-materials.ts`, from the first
`agent:join:ack` until the exam is finalised or the agent is quit.  The
student writes nothing meanwhile.

Every `await` of the source is a point at which another handler, the timer
or another upload may go on, so each of them is a state of its own: the
restore that the first ack has started, the handlers that sync the
materials and write the sheet, and the uploads that are on their way.
`Event` is what goes on next, with the answer it gets and the writes that
the disk refuses.

There are five groups.

* The state and the handlers.
* Where a file of the backup is: `Kept`, and the condition `Careful` under
  which one event keeps it.
* What one event does to the workspace, the store, the restore and the
  uploads.
* The invariant, and the law of runs.
* A run that restores everything before anything else happens.
-/

namespace Cine.Agent.BackupRestore

open Cine.Lib
open Cine.Agent.Workspace

/-! ## The state and the handlers -/

structure ZipObject where
  dir : Bool
  data : Bytes
  deriving DecidableEq

/-- `zip.files`.  The entries for folders that `zip.file` adds are left out
of the archives that the agent makes: a restore passes over them. -/
abbrev Archive := OrderedMap Name ZipObject

/-- What the handler reads of the acknowledgement.  A list of files that is
no array is `none`, and so is an entry of it that is no text. -/
structure AgentJoinAck where
  backupAvailable : Bool
  examMaterialCount : Int
  sessionName : Option Text
  studentName : Option Text
  endTime : Option Text
  requiredFiles : Option (List (Option Name))
  requiredDeliverables : List RequiredDeliverable

structure ExamMaterial where
  fileName : Name
  hasUrl : Bool

inductive BackupStatus
  | none
  | restoring
  | restored
  | nothingToRestore
  | failed
  deriving DecidableEq

/-- Where the restore of the first ack stands. -/
inductive Restore
  | idle
  | downloading (ack : AgentJoinAck)
  | entries (ack : AgentJoinAck) (todo : List (Name × ZipObject))
  | writing (ack : AgentJoinAck) (target : FilePath) (data : Bytes)
      (todo : List (Name × ZipObject))

/-- Where a handler stands after the files have been created. -/
inductive Stage
  | asked
  | fetching (base : Segment) (todo : List ExamMaterial) (fileNames : List Name)
  | sheet (text : Bytes)

/-- A handler that syncs the materials and writes the sheet.  The one of an
ack starts the snapshots afterwards. -/
structure Sync where
  stage : Stage
  startsLoop : Bool

/-- A run of `uploadSnapshot`: the files it has yet to read, and the archive
so far. -/
structure Upload where
  todo : List FilePath
  zip : Archive

structure Controller where
  workspace : Files
  /-- What the storage holds under the key of the student. -/
  stored : Option Archive
  hasJoinedOnce : Bool
  ack : Option AgentJoinAck
  backupStatus : BackupStatus
  restore : Restore
  syncs : List Sync
  /-- `stopSnapshots` is set. -/
  looping : Bool
  uploads : List Upload
  lastSnapshotFailed : Bool

/-- What does not change during a run. -/
structure Setting where
  workspaceDir : FilePath
  studentId : Text
  /-- How the system writes a point in time. -/
  endText : Text → Text

inductive DownloadAnswer
  | noBackup
  /-- No address, no file, or no archive. -/
  | failed
  | opened

inductive SyncAnswer
  /-- The list of the materials; `none` if it is refused. -/
  | materials (materials : Option (List ExamMaterial))
  /-- The bytes of one of them; `none` if the fetch fails. -/
  | fetched (data : Option Bytes)
  | written

/-- How a read of a file or an upload comes out.  The storage may have the
archive without the agent hearing of it. -/
inductive UploadAnswer
  | failed
  | done (answered : Bool)

inductive Move
  | joinAck (ack : AgentJoinAck)
  /-- `exam:materials-updated`, or the materials have become due. -/
  | materialsUpdated
  | download (answer : DownloadAnswer)
  | entry
  | written
  | sync (i : Nat) (answer : SyncAnswer)
  | tick (listing : List FilePath)
  | upload (i : Nat) (answer : UploadAnswer)

structure Event where
  move : Move
  disk : Disk

variable (setting : Setting)

/-- The text that `writeInstructions` is called with. -/
def sheetText (s : Controller) (fileNames : List Name) : Bytes :=
  Utf8.encode <| renderInstructions setting.endText
    { sessionName := (s.ack.bind (·.sessionName)).getD "(không rõ)".toList
      studentName := s.ack.bind (·.studentName)
      studentId := setting.studentId
      endTime := (s.ack.bind (·.endTime)).getD "(không rõ)".toList
      requiredDeliverables := (s.ack.map (·.requiredDeliverables)).getD []
      materialFileNames := fileNames }

/-- What follows the creation of the files in the handler of an ack. -/
def startSync (s : Controller) (ack : AgentJoinAck) : Controller :=
  let stage := if 0 < ack.examMaterialCount then .asked else .sheet (sheetText setting s [])
  { s with syncs := s.syncs ++ [⟨stage, true⟩] }

/-- The handler of the first ack from the creation of the files on.  If the
folder cannot be made, the handler ends there. -/
def createRequired (disk : Disk) (s : Controller) (ack : AgentJoinAck) : Controller :=
  match createSubmissionFiles disk s.workspace ack.requiredFiles with
  | none => s
  | some files => startSync setting { s with workspace := files } ack

def handleJoinAck (disk : Disk) (s : Controller) (ack : AgentJoinAck) : Controller :=
  let joined := { s with hasJoinedOnce := true, ack := some ack }
  if s.hasJoinedOnce then startSync setting joined ack
  else if ack.backupAvailable then
    { joined with backupStatus := .restoring, restore := .downloading ack }
  else createRequired setting disk joined ack

def handleMaterialsUpdated (s : Controller) : Controller :=
  if s.hasJoinedOnce then { s with syncs := s.syncs ++ [⟨.asked, false⟩] } else s

/-- The answer to `backup:request-download-url` and the download. -/
def restoreDownload (disk : Disk) (s : Controller) (answer : DownloadAnswer) : Controller :=
  match s.restore with
  | .downloading ack =>
    match answer, s.stored with
    | .opened, some archive => { s with restore := .entries ack archive.entries }
    | .noBackup, _ =>
      createRequired setting disk { s with backupStatus := .nothingToRestore, restore := .idle } ack
    | _, _ => createRequired setting disk { s with backupStatus := .failed, restore := .idle } ack
  | _ => s

/-- The next entry of the archive, up to the write. -/
def restoreEntry (disk : Disk) (s : Controller) : Controller :=
  match s.restore with
  | .entries ack [] =>
    createRequired setting disk { s with backupStatus := .restored, restore := .idle } ack
  | .entries ack ((name, object) :: todo) =>
    if object.dir then { s with restore := .entries ack todo }
    else
      match resolveWithinWorkspace setting.workspaceDir name with
      | none => { s with restore := .entries ack todo }
      | some target =>
        if shouldRestoreOver s.workspace target then
          { s with restore := .writing ack target object.data todo }
        else { s with restore := .entries ack todo }
  | _ => s

/-- The write of an entry.  A write that fails is only logged. -/
def restoreWritten (disk : Disk) (s : Controller) : Controller :=
  match s.restore with
  | .writing ack target data todo =>
    { s with
      workspace := writeFile disk s.workspace target data
      restore := .entries ack todo }
  | _ => s

/-- The loop over the materials as far as the next fetch. -/
def nextMaterial (files : Files) (sheet : List Name → Bytes) :
    List ExamMaterial → List Name → Stage
  | [], fileNames => .sheet (sheet fileNames)
  | material :: todo, fileNames =>
    if !material.hasUrl then nextMaterial files sheet todo fileNames
    else
      match resolveMaterialPath material.fileName with
      | none => nextMaterial files sheet todo fileNames
      | some base =>
        if files.has (materialPath base) || isDirectory files (materialPath base) then
          nextMaterial files sheet todo (fileNames ++ [base.1])
        else .fetching base todo fileNames

def setStage (s : Controller) (i : Nat) (sync : Sync) (stage : Stage) : Controller :=
  { s with syncs := s.syncs.set i { sync with stage := stage } }

/-- A handler that syncs goes on.  If the folder of the materials cannot be
made, the handler ends there. -/
def syncStep (disk : Disk) (s : Controller) (i : Nat) (answer : SyncAnswer) : Controller :=
  match s.syncs[i]? with
  | none => s
  | some sync =>
    match sync.stage, answer with
    | .asked, .materials none => setStage s i sync (.sheet (sheetText setting s []))
    | .asked, .materials (some []) => setStage s i sync (.sheet (sheetText setting s []))
    | .asked, .materials (some (material :: todo)) =>
      if (fault? disk materialsDir).isSome then { s with syncs := s.syncs.eraseIdx i }
      else
        setStage s i sync (nextMaterial s.workspace (sheetText setting s) (material :: todo) [])
    | .fetching base todo fileNames, .fetched data =>
      match data with
      | none => setStage s i sync (nextMaterial s.workspace (sheetText setting s) todo fileNames)
      | some bytes =>
        let new := !s.workspace.has (materialPath base) &&
          (fault? disk (materialPath base)).isNone
        let files := createFile disk s.workspace (materialPath base) bytes
        let fileNames := if new then fileNames ++ [base.1] else fileNames
        setStage { s with workspace := files } i sync
          (nextMaterial files (sheetText setting s) todo fileNames)
    | .sheet text, .written =>
      { s with
        workspace := writeFile disk s.workspace instructionsPath text
        syncs := s.syncs.eraseIdx i
        looping := s.looping || sync.startsLoop }
    | _, _ => s

/-- The timer fires and `uploadSnapshot` is called. -/
def snapshotTick (s : Controller) (listing : List FilePath) : Controller :=
  if s.looping then
    match collectSnapshotFiles s.workspace listing 0 with
    | [] => s
    | files => { s with uploads := s.uploads ++ [⟨files, .empty⟩] }
  else s

def uploadFailed (s : Controller) (i : Nat) : Controller :=
  { s with uploads := s.uploads.eraseIdx i, lastSnapshotFailed := true }

/-- A run of `uploadSnapshot` goes on: it reads its next file, or its upload
is answered. -/
def uploadStep (s : Controller) (i : Nat) (answer : UploadAnswer) : Controller :=
  match s.uploads[i]? with
  | none => s
  | some upload =>
    match upload.todo, answer with
    | _, .failed => uploadFailed s i
    | p :: todo, .done _ =>
      match s.workspace.get? p with
      | none => uploadFailed s i
      | some data =>
        { s with
          uploads := s.uploads.set i ⟨todo, upload.zip.set (relativePath p) ⟨false, data⟩⟩ }
    | [], .done answered =>
      { s with
        stored := some upload.zip
        uploads := s.uploads.eraseIdx i
        lastSnapshotFailed := !answered }

def step (s : Controller) (e : Event) : Controller :=
  match e.move with
  | .joinAck ack => handleJoinAck setting e.disk s ack
  | .materialsUpdated => handleMaterialsUpdated s
  | .download answer => restoreDownload setting e.disk s answer
  | .entry => restoreEntry setting e.disk s
  | .written => restoreWritten e.disk s
  | .sync i answer => syncStep setting e.disk s i answer
  | .tick listing => snapshotTick s listing
  | .upload i answer => uploadStep s i answer

/-- The agent on a machine that has been wiped, while the storage holds
`archive`. -/
def wiped (archive : Archive) : Controller where
  workspace := .empty
  stored := some archive
  hasJoinedOnce := false
  ack := none
  backupStatus := .none
  restore := .idle
  syncs := []
  looping := false
  uploads := []
  lastSnapshotFailed := false

/-! ## Where a file of the backup is -/

section File

variable (name : Name) (data : Bytes)

/-- The workspace holds the file, with what the backup has in it. -/
def InWorkspace (s : Controller) : Prop :=
  ∃ p, resolveWithinWorkspace setting.workspaceDir name = some p ∧ s.workspace.get? p = some data

def InArchive (archive : Archive) : Prop := archive.get? name = some ⟨false, data⟩

def InBackup (s : Controller) : Prop :=
  ∃ archive, s.stored = some archive ∧ InArchive name data archive

/-- The file is not lost. -/
def Kept (s : Controller) : Prop := InWorkspace setting name data s ∨ InBackup name data s

/-- A file that only a restore brings back: its name is safe, and the agent
writes nothing of its own there. -/
def Students : Prop :=
  ∃ p, resolveWithinWorkspace setting.workspaceDir name = some p ∧ agentsOwn p = false

/-- The archive that the storage has after the event, where it is a new one. -/
def stores (s : Controller) : Move → Option Archive
  | .upload i (.done _) =>
    s.uploads[i]?.bind fun upload => if upload.todo = [] then some upload.zip else none
  | _ => none

/-- The file that the event writes over, and what it leaves in it. -/
def overwrites (s : Controller) (e : Event) : Option (FilePath × Bytes) :=
  match e.move with
  | .written =>
    match s.restore with
    | .writing _ target bytes _ => (left e.disk target bytes).map (target, ·)
    | _ => none
  | .sync i .written =>
    match s.syncs[i]? with
    | some ⟨.sheet text, _⟩ => (left e.disk instructionsPath text).map (instructionsPath, ·)
    | _ => none
  | _ => none

/-- An archive reaches the storage only when the file is back in the
workspace.  For a file at a place where the agent writes itself, or one that
a restore refuses, it is enough that the archive has it, and nothing else is
written over it unless the backup has it. -/
structure Careful (s : Controller) (e : Event) : Prop where
  store : ∀ archive, stores s e.move = some archive →
    InWorkspace setting name data s ∨ ¬ Students setting name ∧ InArchive name data archive
  overwrite : ∀ p bytes, overwrites s e = some (p, bytes) → ¬ Students setting name →
    resolveWithinWorkspace setting.workspaceDir name = some p →
      bytes = data ∨ ¬ InWorkspace setting name data s ∨ InBackup name data s

end File

/-! ## What one event does -/

/-- What the handler of an ack does from the creation of the files on: new
files in the workspace, and a handler that syncs. -/
structure Creates (s s' : Controller) : Prop where
  workspace : Keeps s.workspace s'.workspace
  stored : s'.stored = s.stored
  restore : s'.restore = s.restore
  uploads : s'.uploads = s.uploads
  joined : s'.hasJoinedOnce = s.hasJoinedOnce

theorem createRequired_creates (disk : Disk) (s : Controller) (ack : AgentJoinAck) :
    Creates s (createRequired setting disk s ack) := by
  unfold createRequired
  split
  · exact ⟨Keeps.refl _, rfl, rfl, rfl, rfl⟩
  · rename_i files hfiles
    exact ⟨createSubmissionFiles_keeps hfiles, rfl, rfl, rfl, rfl⟩

theorem handleJoinAck_cases (disk : Disk) (s : Controller) (ack : AgentJoinAck) :
    let s' := handleJoinAck setting disk s ack
    Keeps s.workspace s'.workspace ∧ s'.stored = s.stored ∧ s'.uploads = s.uploads ∧
      s'.hasJoinedOnce = true ∧
        (s'.workspace = s.workspace ∧ s'.restore = s.restore ∨
          s.hasJoinedOnce = false ∧ (s'.restore = s.restore ∨ s'.restore = .downloading ack)) := by
  simp only [handleJoinAck]
  split_ifs with hjoined havailable
  · exact ⟨Keeps.refl _, rfl, rfl, rfl, Or.inl ⟨rfl, rfl⟩⟩
  · exact ⟨Keeps.refl _, rfl, rfl, rfl, Or.inr ⟨by simpa using hjoined, Or.inr rfl⟩⟩
  · have h := createRequired_creates setting disk
      { s with hasJoinedOnce := true, ack := some ack } ack
    exact ⟨h.workspace, h.stored, h.uploads, h.joined,
      Or.inr ⟨by simpa using hjoined, Or.inl h.restore⟩⟩

/-- A move of the restore that is not a write: it adds files only where the
restore ends, and it comes to a write only where one is due. -/
structure Restores (s s' : Controller) : Prop where
  workspace : Keeps s.workspace s'.workspace
  stored : s'.stored = s.stored
  uploads : s'.uploads = s.uploads
  joined : s'.hasJoinedOnce = s.hasJoinedOnce
  writing : ∀ ack target data todo, s'.restore = .writing ack target data todo →
    s'.workspace = s.workspace ∧
      (s.restore = s'.restore ∨ shouldRestoreOver s.workspace target = true)

theorem Restores.refl (s : Controller) : Restores s s :=
  ⟨Keeps.refl _, rfl, rfl, rfl, fun _ _ _ _ _ => ⟨rfl, Or.inl rfl⟩⟩

variable {s : Controller} {e : Event} {p : FilePath}

theorem Restores.ends {t : Controller} (disk : Disk) (ack : AgentJoinAck)
    (hworkspace : t.workspace = s.workspace) (hstored : t.stored = s.stored)
    (huploads : t.uploads = s.uploads) (hjoined : t.hasJoinedOnce = s.hasJoinedOnce)
    (hidle : t.restore = .idle) : Restores s (createRequired setting disk t ack) := by
  have h := createRequired_creates setting disk t ack
  refine ⟨hworkspace ▸ h.workspace, h.stored.trans hstored, h.uploads.trans huploads,
    h.joined.trans hjoined, ?_⟩
  intro ack' target data todo hwriting
  rw [h.restore, hidle] at hwriting
  cases hwriting

theorem restoreDownload_restores (disk : Disk) (s : Controller) (answer : DownloadAnswer) :
    Restores s (restoreDownload setting disk s answer) := by
  unfold restoreDownload
  split
  · split
    · exact ⟨Keeps.refl _, rfl, rfl, rfl, fun _ _ _ _ h => (nomatch h)⟩
    · exact Restores.ends setting disk _ rfl rfl rfl rfl rfl
    · exact Restores.ends setting disk _ rfl rfl rfl rfl rfl
  · exact Restores.refl s

theorem restoreEntry_restores (disk : Disk) (s : Controller) :
    Restores s (restoreEntry setting disk s) := by
  have hpasses : ∀ ack todo, Restores s { s with restore := .entries ack todo } := fun ack todo =>
    ⟨Keeps.refl _, rfl, rfl, rfl, fun _ _ _ _ h => (nomatch h)⟩
  unfold restoreEntry
  split
  · exact Restores.ends setting disk _ rfl rfl rfl rfl rfl
  · split_ifs
    · exact hpasses _ _
    · split
      · exact hpasses _ _
      · split_ifs with hover
        · refine ⟨Keeps.refl _, rfl, rfl, rfl, ?_⟩
          intro ack target data todo h
          cases h
          exact ⟨rfl, Or.inr hover⟩
        · exact hpasses _ _
  · exact Restores.refl s

/-- A handler that syncs.  It adds a material, or it writes the sheet. -/
structure Syncs (disk : Disk) (s s' : Controller) : Prop where
  workspace : s'.workspace = s.workspace ∨
    (∃ base bytes, s'.workspace = createFile disk s.workspace (materialPath base) bytes)
  stored : s'.stored = s.stored
  restore : s'.restore = s.restore
  uploads : s'.uploads = s.uploads
  joined : s'.hasJoinedOnce = s.hasJoinedOnce

theorem syncStep_cases (disk : Disk) (s : Controller) (i : Nat) (answer : SyncAnswer) :
    Syncs disk s (syncStep setting disk s i answer) ∨
      ∃ text startsLoop, s.syncs[i]? = some ⟨.sheet text, startsLoop⟩ ∧ answer = .written ∧
        syncStep setting disk s i answer =
          { s with
            workspace := writeFile disk s.workspace instructionsPath text
            syncs := s.syncs.eraseIdx i
            looping := s.looping || startsLoop } := by
  have hsame : ∀ t : Controller, t.workspace = s.workspace → t.stored = s.stored →
      t.restore = s.restore → t.uploads = s.uploads → t.hasJoinedOnce = s.hasJoinedOnce →
        Syncs disk s t :=
    fun t h1 h2 h3 h4 h5 => ⟨Or.inl h1, h2, h3, h4, h5⟩
  unfold syncStep
  split
  · exact Or.inl (hsame s rfl rfl rfl rfl rfl)
  · rename_i sync hsync
    split
    · exact Or.inl (hsame _ rfl rfl rfl rfl rfl)
    · exact Or.inl (hsame _ rfl rfl rfl rfl rfl)
    · split_ifs
      · exact Or.inl (hsame _ rfl rfl rfl rfl rfl)
      · exact Or.inl (hsame _ rfl rfl rfl rfl rfl)
    · split
      · exact Or.inl (hsame _ rfl rfl rfl rfl rfl)
      · exact Or.inl ⟨Or.inr ⟨_, _, rfl⟩, rfl, rfl, rfl, rfl⟩
    · rename_i text hstage
      right
      refine ⟨text, sync.startsLoop, ?_, rfl, rfl⟩
      rw [hsync]
      cases sync
      cases hstage
      rfl
    · exact Or.inl (hsame s rfl rfl rfl rfl rfl)

theorem uploadStep_cases (s : Controller) (i : Nat) (answer : UploadAnswer) :
    let s' := uploadStep s i answer
    s'.workspace = s.workspace ∧ s'.restore = s.restore ∧ s'.hasJoinedOnce = s.hasJoinedOnce ∧
      (stores s (.upload i answer) = none ∧ s'.stored = s.stored ∧ s'.uploads.Sublist s.uploads ∨
        (∃ upload p todo data, upload ∈ s.uploads ∧ s.workspace.get? p = some data ∧
          stores s (.upload i answer) = none ∧ s'.stored = s.stored ∧
            s'.uploads = s.uploads.set i
              ⟨todo, upload.zip.set (relativePath p) ⟨false, data⟩⟩) ∨
        ∃ upload ∈ s.uploads, stores s (.upload i answer) = some upload.zip ∧
          s'.stored = some upload.zip ∧ s'.uploads.Sublist s.uploads) := by
  simp only [uploadStep]
  split
  · rename_i hnone
    refine ⟨rfl, rfl, rfl, Or.inl ⟨?_, rfl, List.Sublist.refl _⟩⟩
    cases answer with
    | failed => rfl
    | done => simp [stores, hnone]
  · rename_i upload hupload
    have hmem : upload ∈ s.uploads := List.mem_of_getElem? hupload
    have hsub := List.eraseIdx_sublist s.uploads i
    split
    · exact ⟨rfl, rfl, rfl, Or.inl ⟨rfl, rfl, hsub⟩⟩
    · rename_i p todo answered htodo
      have hstores : stores s (.upload i (.done answered)) = none := by
        simp [stores, hupload, htodo]
      split
      · exact ⟨rfl, rfl, rfl, Or.inl ⟨hstores, rfl, hsub⟩⟩
      · rename_i data hdata
        exact ⟨rfl, rfl, rfl,
          Or.inr (Or.inl ⟨upload, p, todo, data, hmem, hdata, hstores, rfl, rfl⟩)⟩
    · rename_i answered htodo
      refine ⟨rfl, rfl, rfl, Or.inr (Or.inr ⟨upload, hmem, ?_, rfl, hsub⟩)⟩
      simp [stores, hupload, htodo]

theorem handleMaterialsUpdated_cases (s : Controller) :
    ∃ syncs, handleMaterialsUpdated s = { s with syncs := syncs } := by
  unfold handleMaterialsUpdated
  split_ifs
  · exact ⟨_, rfl⟩
  · exact ⟨s.syncs, rfl⟩

theorem snapshotTick_cases (s : Controller) (listing : List FilePath) :
    ∃ started, (∀ upload ∈ started, upload.zip = .empty) ∧
      snapshotTick s listing = { s with uploads := s.uploads ++ started } := by
  have hnone : s = { s with uploads := s.uploads ++ [] } := by rw [List.append_nil]
  unfold snapshotTick
  split_ifs
  · split
    · exact ⟨[], by simp, hnone⟩
    · exact ⟨[⟨_, .empty⟩], by simp, rfl⟩
  · exact ⟨[], by simp, hnone⟩

theorem restoreWritten_cases (disk : Disk) (s : Controller) :
    (restoreWritten disk s = s ∧
        ∀ ack target data todo, s.restore ≠ .writing ack target data todo) ∨
      ∃ ack target data todo, s.restore = .writing ack target data todo ∧
        restoreWritten disk s =
          { s with
            workspace := writeFile disk s.workspace target data
            restore := .entries ack todo } := by
  unfold restoreWritten
  split
  · rename_i hrestore
    exact Or.inr ⟨_, _, _, _, hrestore, rfl⟩
  · rename_i hother
    exact Or.inl ⟨rfl, hother⟩

theorem step_overwrites {bytes : Bytes} (h : overwrites s e = some (p, bytes)) :
    (step setting s e).workspace.get? p = some bytes ∧ stores s e.move = none := by
  obtain ⟨move, disk⟩ := e
  cases move with
  | written =>
    simp only [overwrites] at h
    split at h
    · rename_i ack target data todo hrestore
      obtain ⟨after, hleft, hpair⟩ := Option.map_eq_some_iff.1 h
      cases hpair
      refine ⟨?_, rfl⟩
      show (restoreWritten disk s).workspace.get? _ = _
      simp only [restoreWritten, hrestore]
      exact writeFile_self s.workspace hleft
    · cases h
  | sync i answer =>
    cases answer with
    | written =>
      simp only [overwrites] at h
      split at h
      · rename_i text startsLoop hi
        obtain ⟨after, hleft, hpair⟩ := Option.map_eq_some_iff.1 h
        cases hpair
        refine ⟨?_, rfl⟩
        show (syncStep setting disk s i .written).workspace.get? _ = _
        simp only [syncStep, hi]
        exact writeFile_self s.workspace hleft
      · cases h
    | _ => cases h
  | _ => cases h

/-- Nothing but a write over a file changes it. -/
theorem step_workspace {data : Bytes} (h : s.workspace.get? p = some data)
    (hno : ∀ bytes, overwrites s e ≠ some (p, bytes)) :
    (step setting s e).workspace.get? p = some data := by
  obtain ⟨move, disk⟩ := e
  cases move with
  | joinAck ack => exact (handleJoinAck_cases setting disk s ack).1 p data h
  | materialsUpdated =>
    show (handleMaterialsUpdated s).workspace.get? p = some data
    obtain ⟨_, heq⟩ := handleMaterialsUpdated_cases s
    rw [heq]
    exact h
  | download answer => exact (restoreDownload_restores setting disk s answer).workspace p data h
  | entry => exact (restoreEntry_restores setting disk s).workspace p data h
  | written =>
    show (restoreWritten disk s).workspace.get? p = some data
    rcases restoreWritten_cases disk s with ⟨heq, _⟩ | ⟨ack, target, bytes, todo, hrestore, heq⟩
    · rw [heq]
      exact h
    · rw [heq]
      rcases writeFile_cases disk s.workspace target bytes p with hsame | ⟨rfl, after, hleft⟩
      · exact hsame.trans h
      · refine absurd ?_ (hno after)
        simp only [overwrites, hrestore, hleft, Option.map_some]
  | sync i answer =>
    show (syncStep setting disk s i answer).workspace.get? p = some data
    rcases syncStep_cases setting disk s i answer with hsyncs | ⟨text, starts, hi, rfl, heq⟩
    · rcases hsyncs.workspace with hsame | ⟨base, bytes, hnew⟩
      · rw [hsame]
        exact h
      · rw [hnew]
        exact createFile_keeps disk s.workspace (materialPath base) bytes p data h
    · rw [heq]
      rcases writeFile_cases disk s.workspace instructionsPath text p with
        hsame | ⟨rfl, after, hleft⟩
      · exact hsame.trans h
      · refine absurd ?_ (hno after)
        simp only [overwrites, hi, hleft, Option.map_some]
  | tick listing =>
    show (snapshotTick s listing).workspace.get? p = some data
    obtain ⟨_, _, heq⟩ := snapshotTick_cases s listing
    rw [heq]
    exact h
  | upload i answer =>
    show (uploadStep s i answer).workspace.get? p = some data
    rw [(uploadStep_cases s i answer).1]
    exact h

theorem step_stores {archive : Archive} (h : stores s e.move = some archive) :
    (step setting s e).stored = some archive ∧
      (step setting s e).workspace = s.workspace ∧ overwrites s e = none := by
  obtain ⟨move, disk⟩ := e
  cases move with
  | upload i answer =>
    have hcases := uploadStep_cases s i answer
    obtain ⟨hworkspace, _, _, hcases⟩ := hcases
    refine ⟨?_, hworkspace, rfl⟩
    rcases hcases with ⟨hnone, _⟩ | ⟨_, _, _, _, _, _, hnone, _⟩ | ⟨upload, _, hsome, hstored, _⟩
    · exact absurd (hnone.symm.trans h) (by simp)
    · exact absurd (hnone.symm.trans h) (by simp)
    · exact hstored.trans (hsome.symm.trans h)
  | _ => cases h

theorem step_stored (h : stores s e.move = none) : (step setting s e).stored = s.stored := by
  obtain ⟨move, disk⟩ := e
  cases move with
  | joinAck ack => exact (handleJoinAck_cases setting disk s ack).2.1
  | materialsUpdated =>
    show (handleMaterialsUpdated s).stored = s.stored
    obtain ⟨_, heq⟩ := handleMaterialsUpdated_cases s
    rw [heq]
  | download answer => exact (restoreDownload_restores setting disk s answer).stored
  | entry => exact (restoreEntry_restores setting disk s).stored
  | written =>
    show (restoreWritten disk s).stored = s.stored
    rcases restoreWritten_cases disk s with ⟨heq, _⟩ | ⟨_, _, _, _, _, heq⟩ <;> rw [heq]
  | sync i answer =>
    show (syncStep setting disk s i answer).stored = s.stored
    rcases syncStep_cases setting disk s i answer with hsyncs | ⟨_, _, _, _, heq⟩
    · exact hsyncs.stored
    · rw [heq]
  | tick listing =>
    show (snapshotTick s listing).stored = s.stored
    obtain ⟨_, _, heq⟩ := snapshotTick_cases s listing
    rw [heq]
  | upload i answer =>
    obtain ⟨_, _, _, hcases⟩ := uploadStep_cases s i answer
    rcases hcases with ⟨_, hsame, _⟩ | ⟨_, _, _, _, _, _, _, hsame, _⟩ | ⟨_, _, hsome, _⟩
    · exact hsame
    · exact hsame
    · exact absurd (h.symm.trans hsome) (by simp)

theorem mem_uploads_of_stores {move : Move} {archive : Archive} (h : stores s move = some archive) :
    ∃ upload ∈ s.uploads, upload.zip = archive := by
  cases move with
  | upload i answer =>
    cases answer with
    | failed => cases h
    | done answered =>
      obtain ⟨upload, hupload, hzip⟩ := Option.bind_eq_some_iff.1 h
      split_ifs at hzip
      cases hzip
      exact ⟨upload, List.mem_of_getElem? hupload, rfl⟩
  | _ => cases h

theorem overwrites_cases {bytes : Bytes} (h : overwrites s e = some (p, bytes)) :
    p = instructionsPath ∨ ∃ ack data todo, s.restore = .writing ack p data todo := by
  obtain ⟨move, disk⟩ := e
  cases move with
  | written =>
    simp only [overwrites] at h
    split at h
    · rename_i ack target data todo hrestore
      obtain ⟨_, _, hpair⟩ := Option.map_eq_some_iff.1 h
      cases hpair
      exact Or.inr ⟨ack, data, todo, hrestore⟩
    · cases h
  | sync i answer =>
    cases answer with
    | written =>
      simp only [overwrites] at h
      split at h
      · obtain ⟨_, _, hpair⟩ := Option.map_eq_some_iff.1 h
        cases hpair
        exact Or.inl rfl
      · cases h
    | _ => cases h
  | _ => cases h

theorem step_uploads {upload : Upload} (h : upload ∈ (step setting s e).uploads) :
    upload ∈ s.uploads ∨ upload.zip = .empty ∨
      ∃ before ∈ s.uploads, ∃ p data, s.workspace.get? p = some data ∧
        upload.zip = before.zip.set (relativePath p) ⟨false, data⟩ := by
  obtain ⟨move, disk⟩ := e
  cases move with
  | joinAck ack =>
    left
    rw [← (handleJoinAck_cases setting disk s ack).2.2.1]
    exact h
  | materialsUpdated =>
    left
    have h : upload ∈ (handleMaterialsUpdated s).uploads := h
    obtain ⟨_, heq⟩ := handleMaterialsUpdated_cases s
    rw [heq] at h
    exact h
  | download answer =>
    left
    rw [← (restoreDownload_restores setting disk s answer).uploads]
    exact h
  | entry =>
    left
    rw [← (restoreEntry_restores setting disk s).uploads]
    exact h
  | written =>
    left
    have h : upload ∈ (restoreWritten disk s).uploads := h
    rcases restoreWritten_cases disk s with ⟨heq, _⟩ | ⟨_, _, _, _, _, heq⟩ <;>
      · rw [heq] at h
        exact h
  | sync i answer =>
    left
    have h : upload ∈ (syncStep setting disk s i answer).uploads := h
    rcases syncStep_cases setting disk s i answer with hsyncs | ⟨_, _, _, _, heq⟩
    · rw [← hsyncs.uploads]
      exact h
    · rw [heq] at h
      exact h
  | tick listing =>
    have h : upload ∈ (snapshotTick s listing).uploads := h
    obtain ⟨started, hstarted, heq⟩ := snapshotTick_cases s listing
    rw [heq] at h
    rcases List.mem_append.1 h with hold | hnew
    · exact Or.inl hold
    · exact Or.inr (Or.inl (hstarted upload hnew))
  | upload i answer =>
    have h : upload ∈ (uploadStep s i answer).uploads := h
    obtain ⟨_, _, _, hcases⟩ := uploadStep_cases s i answer
    rcases hcases with ⟨_, _, hsub⟩ | ⟨before, p, todo, data, hbefore, hdata, _, _, hset⟩ |
      ⟨_, _, _, _, hsub⟩
    · exact Or.inl (hsub.subset h)
    · rw [hset] at h
      rcases List.mem_or_eq_of_mem_set h with hold | rfl
      · exact Or.inl hold
      · exact Or.inr (Or.inr ⟨before, hbefore, p, data, hdata, rfl⟩)
    · exact Or.inl (hsub.subset h)

theorem step_writing {ack : AgentJoinAck} {data : Bytes} {todo : List (Name × ZipObject)}
    (hjoined : s.hasJoinedOnce = false → s.restore = .idle) (hown : agentsOwn p = false)
    (h : (step setting s e).restore = .writing ack p data todo) :
    (step setting s e).workspace.get? p = s.workspace.get? p ∧
      (s.restore = .writing ack p data todo ∨ shouldRestoreOver s.workspace p = true) := by
  obtain ⟨move, disk⟩ := e
  have hne : ∀ q, agentsOwn q = true → p ≠ q := by
    rintro q hq rfl
    rw [hq] at hown
    cases hown
  cases move with
  | joinAck ack' =>
    obtain ⟨_, _, _, _, hsame | ⟨hfirst, hrestore⟩⟩ := handleJoinAck_cases setting disk s ack'
    · exact ⟨congrArg (·.get? p) hsame.1, Or.inl (hsame.2.symm.trans h)⟩
    · rw [hjoined hfirst] at hrestore
      rcases hrestore with hidle | hdownloading
      · exact nomatch hidle.symm.trans h
      · exact nomatch hdownloading.symm.trans h
  | materialsUpdated =>
    show (handleMaterialsUpdated s).workspace.get? p = _ ∧ _
    have h : (handleMaterialsUpdated s).restore = _ := h
    obtain ⟨_, heq⟩ := handleMaterialsUpdated_cases s
    rw [heq] at h ⊢
    exact ⟨rfl, Or.inl h⟩
  | download answer =>
    obtain ⟨hworkspace, hdue⟩ := (restoreDownload_restores setting disk s answer).writing _ _ _ _ h
    exact ⟨congrArg (·.get? p) hworkspace, hdue.imp_left fun hsame => hsame.trans h⟩
  | entry =>
    obtain ⟨hworkspace, hdue⟩ := (restoreEntry_restores setting disk s).writing _ _ _ _ h
    exact ⟨congrArg (·.get? p) hworkspace, hdue.imp_left fun hsame => hsame.trans h⟩
  | written =>
    have h : (restoreWritten disk s).restore = _ := h
    rcases restoreWritten_cases disk s with ⟨heq, hother⟩ | ⟨_, _, _, _, _, heq⟩
    · rw [heq] at h
      exact absurd h (hother _ _ _ _)
    · rw [heq] at h
      cases h
  | sync i answer =>
    show (syncStep setting disk s i answer).workspace.get? p = _ ∧ _
    have h : (syncStep setting disk s i answer).restore = _ := h
    rcases syncStep_cases setting disk s i answer with hsyncs | ⟨text, _, _, _, heq⟩
    · refine ⟨?_, Or.inl (hsyncs.restore.symm.trans h)⟩
      rcases hsyncs.workspace with hsame | ⟨base, bytes, hnew⟩
      · rw [hsame]
      · rw [hnew]
        exact createFile_ne disk s.workspace bytes (hne _ (agentsOwn_materialPath base))
    · rw [heq] at h ⊢
      exact ⟨writeFile_ne disk s.workspace text (hne _ agentsOwn_instructionsPath), Or.inl h⟩
  | tick listing =>
    show (snapshotTick s listing).workspace.get? p = _ ∧ _
    have h : (snapshotTick s listing).restore = _ := h
    obtain ⟨_, _, heq⟩ := snapshotTick_cases s listing
    rw [heq] at h ⊢
    exact ⟨rfl, Or.inl h⟩
  | upload i answer =>
    obtain ⟨hworkspace, hrestore, _⟩ := uploadStep_cases s i answer
    exact ⟨congrArg (·.get? p) hworkspace, Or.inl (hrestore.symm.trans h)⟩

theorem step_joined (e : Event) (h : s.hasJoinedOnce = false → s.restore = .idle) :
    (step setting s e).hasJoinedOnce = false → (step setting s e).restore = .idle := by
  obtain ⟨move, disk⟩ := e
  cases move with
  | joinAck ack =>
    intro hfalse
    exact absurd ((handleJoinAck_cases setting disk s ack).2.2.2.1.symm.trans hfalse) (by simp)
  | materialsUpdated =>
    show (handleMaterialsUpdated s).hasJoinedOnce = false →
      (handleMaterialsUpdated s).restore = .idle
    obtain ⟨_, heq⟩ := handleMaterialsUpdated_cases s
    rw [heq]
    exact h
  | download answer =>
    intro hfalse
    have hidle := h ((restoreDownload_restores setting disk s answer).joined.symm.trans hfalse)
    show (restoreDownload setting disk s answer).restore = .idle
    simp only [restoreDownload, hidle]
  | entry =>
    intro hfalse
    have hidle := h ((restoreEntry_restores setting disk s).joined.symm.trans hfalse)
    show (restoreEntry setting disk s).restore = .idle
    simp only [restoreEntry, hidle]
  | written =>
    show (restoreWritten disk s).hasJoinedOnce = false → (restoreWritten disk s).restore = .idle
    rcases restoreWritten_cases disk s with ⟨heq, _⟩ | ⟨_, _, _, _, hrestore, heq⟩
    · rw [heq]
      exact h
    · rw [heq]
      intro hfalse
      exact nomatch hrestore.symm.trans (h hfalse)
  | sync i answer =>
    show (syncStep setting disk s i answer).hasJoinedOnce = false →
      (syncStep setting disk s i answer).restore = .idle
    rcases syncStep_cases setting disk s i answer with hsyncs | ⟨_, _, _, _, heq⟩
    · rw [hsyncs.joined, hsyncs.restore]
      exact h
    · rw [heq]
      exact h
  | tick listing =>
    show (snapshotTick s listing).hasJoinedOnce = false → (snapshotTick s listing).restore = .idle
    obtain ⟨_, _, heq⟩ := snapshotTick_cases s listing
    rw [heq]
    exact h
  | upload i answer =>
    obtain ⟨_, hrestore, hjoined, _⟩ := uploadStep_cases s i answer
    show (uploadStep s i answer).hasJoinedOnce = false → (uploadStep s i answer).restore = .idle
    rw [hjoined, hrestore]
    exact h

/-! ## The law -/

section Law

variable {setting} {name : Name} {data : Bytes} {p : FilePath}

/-- What holds of a file of the student's at the path `p`: an archive under
way has it only if the workspace has it, a restore is about to write there
only over nothing, and no restore runs before the first ack. -/
structure Inv (name : Name) (data : Bytes) (p : FilePath) (s : Controller) : Prop where
  uploads : ∀ upload ∈ s.uploads, InArchive name data upload.zip → s.workspace.get? p = some data
  writing : ∀ ack bytes todo, s.restore = .writing ack p bytes todo →
    s.workspace.get? p = none ∨ s.workspace.get? p = some []
  joined : s.hasJoinedOnce = false → s.restore = .idle

theorem inv_wiped (archive : Archive) : Inv name data p (wiped archive) :=
  ⟨fun _ h => (nomatch h), fun _ _ _ h => (nomatch h), fun _ => rfl⟩

variable {s : Controller}

theorem Inv.stays (h : Inv name data p s) (hown : agentsOwn p = false) (hdata : data ≠ [])
    (e : Event) (hp : s.workspace.get? p = some data) :
    (step setting s e).workspace.get? p = some data := by
  apply step_workspace setting hp
  intro bytes hover
  rcases overwrites_cases hover with rfl | ⟨ack, before, todo, hwriting⟩
  · rw [agentsOwn_instructionsPath] at hown
    cases hown
  · rcases h.writing ack before todo hwriting with hnone | hempty
    · exact absurd (hp.symm.trans hnone) (by simp)
    · exact hdata (Option.some.inj (hp.symm.trans hempty))

theorem Inv.step (h : Inv name data p s)
    (hp : resolveWithinWorkspace setting.workspaceDir name = some p) (hown : agentsOwn p = false)
    (hdata : data ≠ []) (e : Event) : Inv name data p (step setting s e) := by
  refine ⟨?_, ?_, step_joined setting e h.joined⟩
  · intro upload hupload harchive
    apply h.stays hown hdata
    rcases step_uploads setting hupload with hold | hempty | ⟨before, hbefore, q, bytes, hq, hset⟩
    · exact h.uploads upload hold harchive
    · rw [hempty] at harchive
      cases harchive
    · rw [hset, InArchive, OrderedMap.get?_set] at harchive
      split_ifs at harchive with hname
      · -- the archive has taken the file from the workspace
        rw [hname] at hp
        rw [eq_of_resolveWithinWorkspace hp, hq]
        cases harchive
        rfl
      · exact h.uploads before hbefore harchive
  · intro ack bytes todo hwriting
    obtain ⟨hsame, hdue⟩ := step_writing setting h.joined hown hwriting
    rw [hsame]
    rcases hdue with hbefore | hover
    · exact h.writing ack bytes todo hbefore
    · exact get?_of_shouldRestoreOver hover

/-- The invariant of a run, where the file is the student's. -/
def RunInv (setting : Setting) (name : Name) (data : Bytes) (s : Controller) : Prop :=
  ∀ p, resolveWithinWorkspace setting.workspaceDir name = some p → agentsOwn p = false →
    Inv name data p s

theorem RunInv.step (h : RunInv setting name data s) (hdata : data ≠ []) (e : Event) :
    RunInv setting name data (step setting s e) :=
  fun p hp hown => (h p hp hown).step hp hown hdata e

theorem inWorkspace_iff (hp : resolveWithinWorkspace setting.workspaceDir name = some p) :
    InWorkspace setting name data s ↔ s.workspace.get? p = some data := by
  constructor
  · rintro ⟨q, hq, hback⟩
    cases hp.symm.trans hq
    exact hback
  · exact fun hback => ⟨p, hp, hback⟩

theorem kept_of_stores {e : Event} {archive : Archive} (hstores : stores s e.move = some archive) :
    Kept setting name data (step setting s e) ↔
      InWorkspace setting name data s ∨ InArchive name data archive := by
  obtain ⟨hstored, hworkspace, _⟩ := step_stores setting hstores
  have hback :
      InWorkspace setting name data (step setting s e) ↔ InWorkspace setting name data s := by
    rw [InWorkspace, hworkspace, InWorkspace]
  have hbackup : InBackup name data (step setting s e) ↔ InArchive name data archive := by
    rw [InBackup, hstored]
    exact ⟨fun ⟨_, hsome, harchive⟩ => Option.some.inj hsome ▸ harchive,
      fun harchive => ⟨archive, rfl, harchive⟩⟩
  rw [Kept, hback, hbackup]

theorem kept_step_iff {e : Event} (hinv : RunInv setting name data s) (hdata : data ≠ [])
    (hkept : Kept setting name data s) :
    Kept setting name data (step setting s e) ↔ Careful setting name data s e := by
  cases hstores : stores s e.move with
  | some archive =>
    have hover := (step_stores setting hstores).2.2
    rw [kept_of_stores hstores]
    constructor
    · intro h
      refine ⟨?_, fun _ _ hsome => (nomatch hover.symm.trans hsome)⟩
      intro archive' hsome
      cases hstores.symm.trans hsome
      by_cases hstudents : Students setting name
      · left
        obtain ⟨p, hp, hown⟩ := hstudents
        rcases h with hback | harchive
        · exact hback
        · obtain ⟨upload, hupload, rfl⟩ := mem_uploads_of_stores hstores
          exact ⟨p, hp, (hinv p hp hown).uploads upload hupload harchive⟩
      · exact h.imp_right fun harchive => ⟨hstudents, harchive⟩
    · intro h
      exact (h.store archive hstores).imp_right And.right
  | none =>
    have hbackup : InBackup name data (step setting s e) ↔ InBackup name data s := by
      rw [InBackup, step_stored setting hstores, InBackup]
    have hcareful : Careful setting name data s e ↔ ∀ p bytes, overwrites s e = some (p, bytes) →
        ¬ Students setting name → resolveWithinWorkspace setting.workspaceDir name = some p →
          bytes = data ∨ ¬ InWorkspace setting name data s ∨ InBackup name data s :=
      ⟨fun h => h.overwrite, fun h => ⟨fun _ hsome => (nomatch hstores.symm.trans hsome), h⟩⟩
    rw [Kept, hbackup, hcareful]
    constructor
    · intro h p bytes hover _ hp
      rcases h with hback | hbackup
      · left
        exact Option.some.inj
          ((step_overwrites setting hover).1.symm.trans ((inWorkspace_iff hp).1 hback))
      · exact Or.inr (Or.inr hbackup)
    · intro h
      rcases hkept with ⟨p, hp, hback⟩ | hbackup
      · by_cases hover : ∃ bytes, overwrites s e = some (p, bytes)
        · obtain ⟨bytes, hover⟩ := hover
          by_cases hstudents : Students setting name
          · obtain ⟨q, hq, hown⟩ := hstudents
            cases hp.symm.trans hq
            exact Or.inl ⟨p, hp, (hinv p hp hown).stays hown hdata e hback⟩
          · rcases h p bytes hover hstudents hp with rfl | hmissing | hbackup
            · exact Or.inl ⟨p, hp, (step_overwrites setting hover).1⟩
            · exact absurd ⟨p, hp, hback⟩ hmissing
            · exact Or.inr hbackup
        · exact Or.inl ⟨p, hp, step_workspace setting hback fun bytes hsome => hover ⟨bytes, hsome⟩⟩
      · exact Or.inr hbackup

/-- No event of a run from the wiped machine loses the file exactly when all
of them are careful. -/
theorem kept_throughout_iff {archive : Archive} (harchive : archive.get? name = some ⟨false, data⟩)
    (hdata : data ≠ []) (es : List Event) :
    Throughout (step setting) (Kept setting name data) (wiped archive) es ↔
      AllAllowed (step setting) (Careful setting name data) (wiped archive) es :=
  throughout_iff_allAllowed (I := RunInv setting name data)
    (fun _ e hinv => hinv.step hdata e) (fun _ _ hinv hkept => kept_step_iff hinv hdata hkept)
    (fun _ _ _ => inv_wiped archive) (Or.inr ⟨archive, rfl, harchive⟩)

end Law

/-! ## A restore that fails -/

def exampleSetting : Setting where
  workspaceDir := FilePath.root.child "20120001".toList (by decide)
  studentId := "20120001".toList
  endText := id

def exampleArchive : Archive :=
  .ofList [("Bai1.docx".toList, ⟨false, [0x62, 0x61, 0x69]⟩)]

def exampleAck : AgentJoinAck where
  backupAvailable := true
  examMaterialCount := 0
  sessionName := some "Lab 1".toList
  studentName := none
  endTime := none
  requiredFiles := some [some "Bai1.docx".toList]
  requiredDeliverables := [⟨"Bai1.docx".toList, []⟩]

def bai1 : FilePath := FilePath.root.child "Bai1.docx".toList (by decide)

/-- The storage does not answer the restore, and four minutes later it takes
the snapshot. -/
def failedRestore : List Event :=
  [⟨.joinAck exampleAck, []⟩, ⟨.download .failed, []⟩, ⟨.sync 0 .written, []⟩,
    ⟨.tick [bai1, instructionsPath], []⟩, ⟨.upload 0 (.done true), []⟩,
    ⟨.upload 0 (.done true), []⟩, ⟨.upload 0 (.done true), []⟩]

theorem failedRestore_end :
    let s := failedRestore.foldl (step exampleSetting) (wiped exampleArchive)
    s.backupStatus = .failed ∧ s.workspace.get? bai1 = some [] ∧
      (s.stored.bind fun archive => archive.get? "Bai1.docx".toList) = some ⟨false, []⟩ := by
  decide +kernel

/-- The placeholder has taken the place of the work, on the machine and in
the storage. -/
theorem placeholder_replaces_backup :
    exampleArchive.get? "Bai1.docx".toList = some ⟨false, [0x62, 0x61, 0x69]⟩ ∧
      (failedRestore.foldl (step exampleSetting) (wiped exampleArchive)).backupStatus = .failed ∧
      ¬ Throughout (step exampleSetting)
        (Kept exampleSetting "Bai1.docx".toList [0x62, 0x61, 0x69]) (wiped exampleArchive)
        failedRestore := by
  obtain ⟨hfailed, hworkspace, hbackup⟩ := failedRestore_end
  refine ⟨by decide +kernel, hfailed, ?_⟩
  intro h
  have hend : Kept exampleSetting "Bai1.docx".toList [0x62, 0x61, 0x69]
      (failedRestore.foldl (step exampleSetting) (wiped exampleArchive)) := h.last
  have hp : resolveWithinWorkspace exampleSetting.workspaceDir "Bai1.docx".toList = some bai1 := by
    decide +kernel
  rcases hend with hback | ⟨archive, hstored, harchive⟩
  · exact nomatch hworkspace.symm.trans ((inWorkspace_iff hp).1 hback)
  · rw [hstored] at hbackup
    exact nomatch hbackup.symm.trans harchive

theorem kept_throughout_failedRestore :
    Throughout (step exampleSetting) (Kept exampleSetting "Bai1.docx".toList [0x62, 0x61, 0x69])
        (wiped exampleArchive) failedRestore ↔
      AllAllowed (step exampleSetting)
        (Careful exampleSetting "Bai1.docx".toList [0x62, 0x61, 0x69]) (wiped exampleArchive)
        failedRestore :=
  kept_throughout_iff (by decide +kernel) (by simp) failedRestore

end Cine.Agent.BackupRestore
