import Cine.Lib.OrderedMap
import Cine.Lib.Utf16
import Cine.Lib.Utf8
import Mathlib.Data.List.Infix

/-!
# The workspace of the agent

The folder in which a student works, from `workspace-files.ts`,
`snapshot.ts` and `exam-materials.ts`: which names may become paths, what
a write to the disk leaves, the files that the agent creates, the files
that a snapshot takes and the sheet of instructions.

Paths are those of a POSIX system.  A `FilePath` is a path below some
folder, and every part of it is the name of a file or a folder, so that
`.` and `..` have been resolved away.

There are five groups.

* Names and paths.  `resolve` and `resolveWithinWorkspace` are the way from
  a name of an archive to a path, `relativePath` is the way back, and
  `eq_of_resolveWithinWorkspace` says that the first undoes the second.
* The disk.  A `DiskFault` is a write that fails, and `writeFile` and
  `createFile` say what a file holds after a write.
* The files that the agent creates.
* The files that a snapshot takes.
* The instructions.
-/

namespace Cine.Agent.Workspace

open Cine.Lib

/-! ## Names and paths -/

abbrev Name := List Char

/-- Octets as numbers. -/
abbrev Bytes := List Nat

/-- The name of a file or a folder. -/
def IsSegment (name : Name) : Prop :=
  name ≠ [] ∧ name ≠ ".".toList ∧ name ≠ "..".toList ∧ '/' ∉ name

instance (name : Name) : Decidable (IsSegment name) :=
  inferInstanceAs (Decidable (_ ∧ _))

/-- A path below a folder; without a segment it is the folder. -/
structure FilePath where
  segments : List Name
  clean : ∀ segment ∈ segments, IsSegment segment
  deriving DecidableEq

namespace FilePath

theorem ext_segments {p q : FilePath} (h : p.segments = q.segments) : p = q := by
  cases p
  cases q
  cases h
  rfl

def root : FilePath := ⟨[], by simp⟩

def child (p : FilePath) (name : Name) (h : IsSegment name) : FilePath :=
  ⟨p.segments ++ [name], by
    intro segment hsegment
    rcases List.mem_append.1 hsegment with hmem | hmem
    · exact p.clean segment hmem
    · rw [List.mem_singleton.1 hmem]
      exact h⟩

def parent (p : FilePath) : FilePath :=
  ⟨p.segments.dropLast, fun segment h => p.clean segment (List.dropLast_subset _ h)⟩

/-- The path, seen from the folder that its first `n` segments name. -/
def drop (p : FilePath) (n : Nat) : FilePath :=
  ⟨p.segments.drop n, fun segment h => p.clean segment (List.mem_of_mem_drop h)⟩

end FilePath

/-- One segment of `path.resolve`. -/
def resolveSegment (here : FilePath) (segment : Name) : FilePath :=
  if segment = "..".toList then here.parent
  else if h : IsSegment segment then here.child segment h
  else here

/-- `path.resolve`, where the second path is relative. -/
def resolve (here : FilePath) (path : Name) : FilePath :=
  (path.splitOn '/').foldl resolveSegment here

/-- `/^[A-Za-z]:[\\/]/`. -/
def hasDrive : Name → Bool
  | letter :: colon :: slash :: _ =>
    letter.isAlpha && colon = ':' && (slash = '\\' || slash = '/')
  | _ => false

def resolveWithinWorkspace (workspaceDir : FilePath) (entryPath : Name) : Option FilePath :=
  if entryPath = [] ∨ entryPath.getLast? = some '/' ∨ entryPath.getLast? = some '\\' then none
  else if entryPath.head? = some '/' ∨ hasDrive entryPath then none
  else
    let resolved := resolve workspaceDir entryPath
    if workspaceDir.segments <+: resolved.segments then
      some (resolved.drop workspaceDir.segments.length)
    else none

/-- The name that a file has in an archive. -/
def relativePath (p : FilePath) : Name := ['/'].intercalate p.segments

theorem resolveSegment_of_isSegment {here : FilePath} {name : Name} (h : IsSegment name) :
    (resolveSegment here name).segments = here.segments ++ [name] := by
  unfold resolveSegment
  rw [if_neg h.2.2.1, dif_pos h]
  rfl

theorem foldl_resolveSegment (names : List Name) (here : FilePath)
    (h : ∀ name ∈ names, IsSegment name) :
    (names.foldl resolveSegment here).segments = here.segments ++ names := by
  induction names generalizing here with
  | nil => simp
  | cons name names ih =>
    rw [List.foldl_cons, ih _ (fun n hn => h n (List.mem_cons_of_mem _ hn)),
      resolveSegment_of_isSegment (h name List.mem_cons_self), List.append_assoc]
    rfl

variable {p q : FilePath}

theorem resolve_relativePath (here : FilePath) (hp : p.segments ≠ []) :
    (resolve here (relativePath p)).segments = here.segments ++ p.segments := by
  unfold resolve relativePath
  rw [List.splitOn_intercalate _ (fun name hname => (p.clean name hname).2.2.2) hp]
  exact foldl_resolveSegment _ _ p.clean

theorem eq_of_resolveWithinWorkspace {workspaceDir : FilePath}
    (h : resolveWithinWorkspace workspaceDir (relativePath p) = some q) : q = p := by
  have hp : p.segments ≠ [] := by
    intro hnil
    have hempty : relativePath p = [] := by rw [relativePath, hnil]; rfl
    rw [resolveWithinWorkspace, if_pos (Or.inl hempty)] at h
    cases h
  simp only [resolveWithinWorkspace] at h
  split_ifs at h
  cases h
  apply FilePath.ext_segments
  show ((resolve workspaceDir (relativePath p)).segments).drop _ = p.segments
  rw [resolve_relativePath _ hp]
  exact List.drop_left

/-! ## The disk -/

abbrev Files := OrderedMap FilePath Bytes

/-- A write that fails: nothing has been written, or only the first bytes
have. -/
structure DiskFault where
  path : FilePath
  written : Option Nat

abbrev Disk := List DiskFault

def fault? (disk : Disk) (p : FilePath) : Option DiskFault :=
  disk.find? fun fault => fault.path = p

/-- What the file holds after a write of `data`; nothing if the write has
not come as far as the file. -/
def left (disk : Disk) (p : FilePath) (data : Bytes) : Option Bytes :=
  match fault? disk p with
  | none => some data
  | some ⟨_, none⟩ => none
  | some ⟨_, some n⟩ => some (data.take n)

def writeFile (disk : Disk) (files : Files) (p : FilePath) (data : Bytes) : Files :=
  match left disk p data with
  | none => files
  | some bytes => files.set p bytes

/-- `fs.writeFile` with the flag `wx`. -/
def createFile (disk : Disk) (files : Files) (p : FilePath) (data : Bytes) : Files :=
  if files.has p then files else writeFile disk files p data

/-- A folder with a file somewhere below it, or the workspace itself. -/
def isDirectory (files : Files) (p : FilePath) : Bool :=
  p.segments = [] ||
    files.entries.any fun file => p.segments.isPrefixOf file.1.segments && file.1 ≠ p

/-- Where a folder is, `statSync` gives the size of the folder. -/
def shouldRestoreOver (files : Files) (p : FilePath) : Bool :=
  if isDirectory files p then false
  else
    match files.get? p with
    | some data => data.isEmpty
    | none => true

theorem get?_of_shouldRestoreOver {files : Files} (h : shouldRestoreOver files p = true) :
    files.get? p = none ∨ files.get? p = some [] := by
  unfold shouldRestoreOver at h
  split_ifs at h
  split at h
  · rename_i data hdata
    rw [hdata, List.isEmpty_iff.1 h]
    exact Or.inr rfl
  · rename_i hnone
    exact Or.inl hnone

theorem writeFile_ne (disk : Disk) (files : Files) (data : Bytes) (h : q ≠ p) :
    (writeFile disk files p data).get? q = files.get? q := by
  unfold writeFile
  split
  · rfl
  · exact OrderedMap.get?_set_ne h

theorem writeFile_self {disk : Disk} {data bytes : Bytes} (files : Files)
    (h : left disk p data = some bytes) : (writeFile disk files p data).get? p = some bytes := by
  unfold writeFile
  rw [h]
  exact OrderedMap.get?_set_self _ _ _

theorem writeFile_cases (disk : Disk) (files : Files) (target : FilePath) (data : Bytes)
    (p : FilePath) : (writeFile disk files target data).get? p = files.get? p ∨
      p = target ∧ ∃ bytes, left disk target data = some bytes := by
  by_cases hp : p = target
  · cases hleft : left disk target data with
    | none =>
      left
      rw [writeFile, hleft]
    | some bytes => exact Or.inr ⟨hp, bytes, rfl⟩
  · exact Or.inl (writeFile_ne disk files data hp)

/-- Nothing that `files` holds is changed in `files'`. -/
def Keeps (files files' : Files) : Prop :=
  ∀ p data, files.get? p = some data → files'.get? p = some data

theorem Keeps.refl (files : Files) : Keeps files files := fun _ _ h => h

theorem Keeps.trans {a b c : Files} (h : Keeps a b) (h' : Keeps b c) : Keeps a c :=
  fun p data hp => h' p data (h p data hp)

theorem createFile_keeps (disk : Disk) (files : Files) (p : FilePath) (data : Bytes) :
    Keeps files (createFile disk files p data) := by
  intro q bytes hq
  unfold createFile
  split_ifs with hhas
  · exact hq
  · have hne : q ≠ p := by
      rintro rfl
      rw [OrderedMap.has, hq] at hhas
      exact hhas rfl
    rw [writeFile_ne disk files data hne]
    exact hq

theorem createFile_ne (disk : Disk) (files : Files) (data : Bytes) (h : q ≠ p) :
    (createFile disk files p data).get? q = files.get? q := by
  unfold createFile
  split_ifs
  · rfl
  · exact writeFile_ne disk files data h

/-! ## The files that the agent creates -/

def safeFilenameChar (c : Char) : Bool := c.isAlphanum || c = '_' || c = '.' || c = '-'

/-- `toLowerCase` as far as a comparison with plain text can tell: the one
letter outside plain text that goes to a plain one is the Kelvin sign. -/
def lower (name : Name) : Name :=
  name.map fun c => if c = '\u212a' then 'k' else c.toLower

def windowsReservedDeviceNames : List Name :=
  ["con", "prn", "aux", "nul",
    "com1", "com2", "com3", "com4", "com5", "com6", "com7", "com8", "com9",
    "lpt1", "lpt2", "lpt3", "lpt4", "lpt5", "lpt6", "lpt7", "lpt8", "lpt9"].map String.toList

/-- The path of a file that the server names.  The last test is the one of
the resolved path, and only `.` fails it. -/
def validateFilename (filename : Name) : Option FilePath :=
  if filename = [] then none
  else if '/' ∈ filename ∨ '\\' ∈ filename then none
  else if "..".toList <:+: filename then none
  else if ¬ filename.all safeFilenameChar then none
  else if lower ((filename.splitOn '.').headD []) ∈ windowsReservedDeviceNames then none
  else if h : IsSegment filename then some (FilePath.root.child filename h)
  else none

inductive ArchiveKind
  | zip
  | rar
  deriving DecidableEq

def archiveKindOf (filename : Name) : Option ArchiveKind :=
  if ".zip".toList <:+ lower filename then some .zip
  else if ".rar".toList <:+ lower filename then some .rar
  else none

/-- The end of a central directory without entries. -/
def emptyZipEocd : Bytes :=
  [0x50, 0x4b, 0x05, 0x06] ++ List.replicate 18 0

/-- One round of the loop in `createSubmissionFiles`.  `none` is an entry
that is no text. -/
def createSubmissionFile (disk : Disk) (files : Files) : Option Name → Files
  | none => files
  | some filename =>
    match validateFilename filename with
    | none => files
    | some p =>
      match archiveKindOf filename with
      | some .rar => files
      | some .zip => createFile disk files p emptyZipEocd
      | none => createFile disk files p []

/-- Nothing if the folder cannot be made and the call throws. -/
def createSubmissionFiles (disk : Disk) (files : Files)
    (requiredFiles : Option (List (Option Name))) : Option Files :=
  if (fault? disk .root).isSome then none
  else some ((requiredFiles.getD []).foldl (createSubmissionFile disk) files)

theorem createSubmissionFile_keeps (disk : Disk) (files : Files) (filename : Option Name) :
    Keeps files (createSubmissionFile disk files filename) := by
  unfold createSubmissionFile
  split
  · exact Keeps.refl files
  · split
    · exact Keeps.refl files
    · split
      · exact Keeps.refl files
      · exact createFile_keeps disk files _ _
      · exact createFile_keeps disk files _ _

theorem createSubmissionFiles_keeps {disk : Disk} {files files' : Files}
    {requiredFiles : Option (List (Option Name))}
    (h : createSubmissionFiles disk files requiredFiles = some files') : Keeps files files' := by
  unfold createSubmissionFiles at h
  split_ifs at h
  cases h
  generalize requiredFiles.getD [] = names
  induction names generalizing files with
  | nil => exact Keeps.refl files
  | cons name names ih => exact (createSubmissionFile_keeps disk files name).trans ih

/-- The name of a file or a folder, with the proof that it is one. -/
abbrev Segment := { name : Name // IsSegment name }

/-- `MATERIALS_DIRNAME`. -/
def materialsDir : FilePath := FilePath.root.child "de-thi".toList (by decide)

/-- `INSTRUCTIONS_FILENAME`. -/
def instructionsPath : FilePath := FilePath.root.child "INSTRUCTIONS.txt".toList (by decide)

def basename (fileName : Name) : Name :=
  (((fileName.splitOn '/').filter (· ≠ [])).getLast?).getD []

/-- The name that a material gets in `materialsDir`. -/
def resolveMaterialPath (fileName : Name) : Option Segment :=
  let base := trimList (basename fileName)
  if base = [] ∨ base = ".".toList ∨ base = "..".toList then none
  else if h : IsSegment base then some ⟨base, h⟩
  else none

def materialPath (base : Segment) : FilePath := materialsDir.child base.1 base.2

/-- The paths at which the agent writes something of its own: the sheet and
the materials. -/
def agentsOwn (p : FilePath) : Bool :=
  p = instructionsPath || p.segments.head? = some "de-thi".toList

@[simp] theorem agentsOwn_instructionsPath : agentsOwn instructionsPath = true := by
  simp [agentsOwn]

@[simp] theorem agentsOwn_materialPath (base : Segment) : agentsOwn (materialPath base) = true := by
  unfold agentsOwn
  rw [Bool.or_eq_true]
  exact Or.inr rfl

/-! ## The files that a snapshot takes -/

def ignoredDirectories : List Name :=
  ["node_modules", ".git", "dist", "build", "__pycache__", ".venv", "venv", "target", "obj",
    ".next", ".idea", ".vscode"].map String.toList

def snapshotExtensions : List Name :=
  [".txt", ".md", ".rtf", ".csv", ".json", ".xml", ".yml", ".yaml",
    ".doc", ".docx", ".xls", ".xlsx", ".ppt", ".pptx", ".pdf", ".odt",
    ".png", ".jpg", ".jpeg", ".gif", ".bmp", ".webp", ".heic",
    ".py", ".js", ".mjs", ".cjs", ".ts", ".tsx", ".jsx", ".java", ".kt",
    ".c", ".h", ".cpp", ".hpp", ".cc", ".cs", ".go", ".rs", ".rb", ".php",
    ".swift", ".m", ".r", ".scala", ".pl", ".lua", ".dart",
    ".html", ".htm", ".css", ".scss", ".sql", ".sh", ".bat", ".ps1",
    ".ipynb", ".env.example"].map String.toList

def maxFileBytes : Nat := 10 * 1024 * 1024

def maxTotalBytes : Nat := 50 * 1024 * 1024

def fromLastDot : Name → Name
  | [] => []
  | c :: name =>
    match fromLastDot name with
    | [] => if c = '.' then c :: name else []
    | ext => ext

/-- `path.extname`.  A dot at the front starts no extension. -/
def extname (name : Name) : Name := fromLastDot name.tail

/-- Whether the walk comes by the file and its extension is in the table. -/
def wanted (p : FilePath) : Bool :=
  p.segments.dropLast.all (fun folder => folder ∉ ignoredDirectories) &&
    lower (extname (p.segments.getLastD [])) ∈ snapshotExtensions

/-- The files of a snapshot.  `listing` is what the folders list, in the
order of the walk; a folder that cannot be read lists nothing. -/
def collectSnapshotFiles (files : Files) : List FilePath → Nat → List FilePath
  | [], _ => []
  | p :: listing, total =>
    match if wanted p then (files.get? p).map List.length else none with
    | none => collectSnapshotFiles files listing total
    | some size =>
      if maxFileBytes < size ∨ maxTotalBytes < total + size then
        collectSnapshotFiles files listing total
      else p :: collectSnapshotFiles files listing (total + size)

/-! ## The instructions -/

abbrev Text := List Char

structure RequiredDeliverable where
  filename : Text
  entries : List Text

structure InstructionsInput where
  sessionName : Text
  studentName : Option Text
  studentId : Text
  endTime : Text
  requiredDeliverables : List RequiredDeliverable
  materialFileNames : List Text

def deliverableLines (deliverable : RequiredDeliverable) : List Text :=
  ["  * ".toList ++ deliverable.filename] ++
    (if archiveKindOf deliverable.filename = some .rar then
      ["      - Hệ thống KHÔNG tạo trước được file .rar này (không có công cụ".toList,
        "        nén .rar cài sẵn) — tự nén bằng WinRAR, đặt đúng tên như trên.".toList]
    else []) ++
    (if deliverable.entries ≠ [] then
      ["      - Bên trong PHẢI có (tên file, không cần đúng thư mục):".toList] ++
        deliverable.entries.map ("          . ".toList ++ ·)
    else [])

/-- `endText` is how the system writes a point in time. -/
def renderInstructions (endText : Text → Text) (input : InstructionsInput) : Text :=
  ['\n'].intercalate <|
    ["===========================================================".toList,
      "  ".toList ++ input.sessionName,
      "===========================================================".toList,
      [],
      "Sinh viên : ".toList ++ input.studentName.getD "(chưa xác định)".toList ++
        " — MSSV ".toList ++ input.studentId,
      "Hết giờ   : ".toList ++ endText input.endTime] ++
    ["",
      "-- BÀI LÀM PHẢI CÓ ĐÚNG NHỮNG FILE SAU -------------------",
      ""].map String.toList ++
    input.requiredDeliverables.flatMap deliverableLines ++
    ["",
      "Tên file phải giữ nguyên. File đặt tên khác sẽ KHÔNG được thu.",
      "Lưu bài ngay trong thư mục này (không lưu ra Desktop hay chỗ khác).",
      ""].map String.toList ++
    (if input.materialFileNames ≠ [] then
      ["-- ĐỀ THI (thư mục de-thi/) ----------------------".toList, []] ++
        input.materialFileNames.map ("  * ".toList ++ ·) ++ [[]]
    else []) ++
    ["-- KHI HẾT GIỜ -------------------------------------------",
      "",
      "Máy tự nộp bài, bạn không phải bấm gì. Cứ để cửa sổ agent chạy.",
      "Bài làm được sao lưu tự động vài phút một lần, nên máy hỏng giữa",
      "chừng vẫn lấy lại được.",
      "",
      "File này do hệ thống tạo ra và sẽ bị ghi đè — đừng ghi bài vào đây.",
      ""].map String.toList

end Cine.Agent.Workspace
