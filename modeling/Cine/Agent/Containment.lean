import Cine.Agent.Workspace
import Cine.Lib.NodePath.Resolve

/-!
# What is written stays in the workspace

`resolveWithinWorkspace` of `snapshot.ts`, `validateFilename` and
`createSubmissionFiles` of `workspace-files.ts` and the loop of
`restoreBackup` in `backup.ts`, on paths as they are written, with the rules of
POSIX or of Windows.

* The two checks: `resolveWithinWorkspace_cases` and `validateFilename_child`.
* The disk, and which files a write changes.
* The two loops, and `contained`.
* On POSIX, the paths of `Workspace` are these.
-/

namespace Cine.Agent.Containment

open Cine.Lib Cine.Lib.NodePath
open Cine.Agent.Workspace (Bytes safeFilenameChar windowsReservedDeviceNames archiveKindOf
  emptyZipEocd)

variable {os : Platform} {lower : Name → Name}

/-! ## The two checks -/

def posixRoot : Process .posix id where
  cwd _ := ['/']
  absolute _ := rfl
  hasDevice := nofun
  onDrive := nofun

def driveRoot : Name → Name
  | [letter, ':'] => if letter.isAlpha then [letter, ':', '\\'] else "C:\\".toList
  | _ => "C:\\".toList

theorem splitRoot_driveRoot (device : Name) : ∃ letter : Char,
    splitRoot .win32 (driveRoot device) = ⟨[letter, ':'], true, []⟩ := by
  unfold driveRoot
  split
  · rename_i letter
    split_ifs with hletter
    · refine ⟨letter, ?_⟩
      rw [splitRoot, splitWin32_drive hletter]
      rfl
    · exact ⟨'C', rfl⟩
  · exact ⟨'C', rfl⟩

/-- A process in the root folder of a drive, and of each other drive. -/
def win32Root : Process .win32 id where
  cwd := driveRoot
  absolute device := by
    obtain ⟨letter, hroot⟩ := splitRoot_driveRoot device
    rw [isAbsolute, hroot]
  hasDevice _ device := by
    obtain ⟨letter, hroot⟩ := splitRoot_driveRoot device
    rw [hroot]
    exact List.cons_ne_nil _ _
  onDrive _ letter hletter := by
    rw [driveRoot, if_pos hletter, splitRoot, splitWin32_drive hletter]
    rfl

def resolveWithinWorkspace (p : Process os lower) (workspaceDir entryPath : Name) : Option Name :=
  if entryPath = [] ∨ entryPath.getLast? = some '/' ∨ entryPath.getLast? = some '\\' then none
  else if isAbsolute os entryPath ∨ Workspace.hasDrive entryPath then none
  else
    let root := p.resolve [workspaceDir]
    let resolved := p.resolve [root, entryPath]
    if resolved = root ∨ (root ++ [sep os]) <+: resolved then some resolved else none

/-- `validateFilename` of a text: the path that it has been resolved to. -/
def validateFilename (p : Process os lower) (workspaceDir filename : Name) : Option Name :=
  if filename = [] then none
  else if '/' ∈ filename ∨ '\\' ∈ filename then none
  else if "..".toList <:+: filename then none
  else if ¬ filename.all safeFilenameChar then none
  else if Workspace.lower ((filename.splitOn '.').headD []) ∈ windowsReservedDeviceNames then none
  else
    let resolvedTarget := p.resolve [join os [workspaceDir, filename]]
    if (p.resolve [workspaceDir] ++ [sep os]) <+: resolvedTarget then some resolvedTarget else none

/-- A path in a folder, and not below another one in it. -/
def ChildOf (os : Platform) (folder path : Name) : Prop :=
  ∃ name, IsName os name ∧ path = folder ++ sep os :: name

variable {p : Process os lower} {path workspaceDir : Name} {allowed : Name → Prop}

theorem resolveWithinWorkspace_cases {entryPath : Name}
    (h : resolveWithinWorkspace p workspaceDir entryPath = some path) :
    path = p.resolve [workspaceDir] ∨ Below os (p.resolve [workspaceDir]) path := by
  unfold resolveWithinWorkspace at h
  dsimp only at h
  split_ifs at h with hempty habsolute hinside
  cases h
  rcases hinside with heq | hprefix
  · exact Or.inl heq
  · exact Or.inr (below_of_startsWith hprefix)

example : resolveWithinWorkspace win32Root "C:\\ws".toList "a/..\\b\\c.txt".toList =
    some "C:\\ws\\b\\c.txt".toList := by
  rfl

example : resolveWithinWorkspace win32Root "C:\\ws".toList "D:b".toList = none := by
  rfl

theorem safeFilenameChar_plain {c : Char} (h : safeFilenameChar c = true) :
    c ≠ '/' ∧ c ≠ '\\' ∧ c ≠ ':' := by
  refine ⟨?_, ?_, ?_⟩ <;> rintro rfl <;> revert h <;> decide

theorem validateFilename_child {filename : Name}
    (h : validateFilename p workspaceDir filename = some path) :
    ChildOf os (p.resolve [workspaceDir]) path := by
  unfold validateFilename at h
  dsimp only at h
  split_ifs at h with hempty hslash hdots hchars hreserved hprefix
  cases h
  have hchar : ∀ c ∈ filename, c ≠ '/' ∧ c ≠ '\\' ∧ c ≠ ':' := by
    intro c hc
    exact safeFilenameChar_plain (List.all_eq_true.1 hchars c hc)
  have hplain : ∀ c ∈ filename, isSep os c = false := by
    intro c hc
    obtain ⟨hfront, hback, -⟩ := hchar c hc
    cases os <;> simp [isSep, hfront, hback]
  have hcolon : ':' ∉ filename := fun hmem => (hchar _ hmem).2.2 rfl
  have hne : filename ≠ ['.', '.'] := by
    rintro rfl
    exact hdots (List.infix_refl _)
  obtain ⟨hdevice, hnames, rest, hrest, hbehind⟩ := names_of_startsWith hprefix
  -- two names at least, so the name stands in the workspace
  rcases located_join p hempty hplain hcolon with ⟨-, hpush⟩ | hshort
  · rw [hbehind] at hpush
    by_cases hdot : filename = ['.']
    · rw [hdot, push_dot] at hpush
      exact absurd (List.append_right_eq_self.1 hpush) hrest
    · rw [push_name hdot hne] at hpush
      refine ⟨filename, ⟨hempty, hdot, hne, hplain⟩, ?_⟩
      unfold Process.resolve
      dsimp only
      rw [hdevice, hbehind, hpush, joinNames_append hnames (List.cons_ne_nil _ _),
        List.append_assoc, joinNames_singleton]
      rfl
  · have hpos := List.length_pos_iff.2 hnames
    have hpos' := List.length_pos_iff.2 hrest
    rw [hbehind, List.length_append] at hshort
    omega

example : validateFilename win32Root "C:/ws/".toList "a.txt".toList =
    some "C:\\ws\\a.txt".toList := by
  rfl

/-! ## The disk -/

structure Disk where
  files : OrderedMap Name Bytes
  folders : List Name

/-- A folder, or a folder with one somewhere below it. -/
def isFolder (os : Platform) (disk : Disk) (path : Name) : Bool :=
  disk.folders.any fun dir => dir = path || (path ++ [sep os]).isPrefixOf dir

/-- What the machine makes of a call: which folders can be made, how large a
folder is for `statSync`, and which writes fail, before the file is opened or
after some bytes. -/
structure Machine where
  makes : Name → Bool
  folderSize : Name → Nat
  fault : Name → Option (Option Nat)

/-- `fs.mkdir` with `recursive`: a file on the way stands against it. -/
def mkdir (os : Platform) (m : Machine) (disk : Disk) (dir : Name) : Option Disk :=
  if !m.makes dir ∨ disk.files.entries.any
      (fun file => file.1 = dir || (file.1 ++ [sep os]).isPrefixOf dir) then none
  else some { disk with folders := dir :: disk.folders }

/-- `fs.writeFile`, and whether it has been done. -/
def writeFile (os : Platform) (m : Machine) (disk : Disk) (path : Name) (data : Bytes) :
    Disk × Bool :=
  if isFolder os disk path then (disk, false)
  else
    match m.fault path with
    | none => ({ disk with files := disk.files.set path data }, true)
    | some none => (disk, false)
    | some (some n) => ({ disk with files := disk.files.set path (data.take n) }, false)

/-- `fs.writeFileSync` with the flag `wx`. -/
def createFile (os : Platform) (m : Machine) (disk : Disk) (path : Name) (data : Bytes) : Disk :=
  if disk.files.has path then disk else (writeFile os m disk path data).1

def shouldRestoreOver (os : Platform) (m : Machine) (disk : Disk) (path : Name) : Bool :=
  if isFolder os disk path then m.folderSize path = 0
  else
    match disk.files.get? path with
    | some data => data.isEmpty
    | none => true

/-- Every file that is not the same in both is `allowed`, and no folder is
gone. -/
structure ChangesOnly (allowed : Name → Prop) (disk disk' : Disk) : Prop where
  files : ∀ path, ¬ allowed path → disk'.files.get? path = disk.files.get? path
  folders : ∀ dir ∈ disk.folders, dir ∈ disk'.folders

theorem ChangesOnly.refl (allowed : Name → Prop) (disk : Disk) : ChangesOnly allowed disk disk :=
  ⟨fun _ _ => rfl, fun _ hdir => hdir⟩

theorem ChangesOnly.trans {a b c : Disk} (h : ChangesOnly allowed a b)
    (h' : ChangesOnly allowed b c) : ChangesOnly allowed a c :=
  ⟨fun path hpath => (h'.files path hpath).trans (h.files path hpath),
    fun dir hdir => h'.folders dir (h.folders dir hdir)⟩

variable {disk disk' : Disk} {m : Machine}

theorem mkdir_changes {dir : Name} (allowed : Name → Prop) (h : mkdir os m disk dir = some disk') :
    ChangesOnly allowed disk disk' := by
  unfold mkdir at h
  split_ifs at h
  cases h
  exact ⟨fun _ _ => rfl, fun d hd => List.mem_cons_of_mem _ hd⟩

theorem writeFile_changes (data : Bytes) (h : isFolder os disk path = false → allowed path) :
    ChangesOnly allowed disk (writeFile os m disk path data).1 := by
  unfold writeFile
  split_ifs with hfolder
  · exact ChangesOnly.refl allowed disk
  · have hset : ∀ data, ChangesOnly allowed disk
        { disk with files := disk.files.set path data } := by
      intro data
      refine ⟨fun q hq => OrderedMap.get?_set_ne ?_, fun d hd => hd⟩
      rintro rfl
      exact hq (h (Bool.not_eq_true _ ▸ hfolder))
    split
    · exact hset data
    · exact ChangesOnly.refl allowed disk
    · exact hset _

theorem createFile_changes (data : Bytes) (h : allowed path) :
    ChangesOnly allowed disk (createFile os m disk path data) := by
  unfold createFile
  split_ifs
  · exact ChangesOnly.refl allowed disk
  · exact writeFile_changes data fun _ => h

/-! ## The two loops -/

/-- An entry of the archive; nothing where its bytes cannot be read. -/
structure Entry where
  name : Name
  dir : Bool
  data : Option Bytes

structure Restored where
  disk : Disk
  restored : Nat
  skipped : Nat

/-- One round of the loop of `restoreBackup`. -/
def restoreEntry (p : Process os lower) (m : Machine) (workspaceDir : Name) (r : Restored)
    (entry : Entry) : Restored :=
  if entry.dir then r
  else
    match resolveWithinWorkspace p workspaceDir entry.name with
    | none => r
    | some target =>
      if !shouldRestoreOver os m r.disk target then { r with skipped := r.skipped + 1 }
      else
        match mkdir os m r.disk (dirname os target) with
        | none => r
        | some disk =>
          match entry.data with
          | none => { r with disk }
          | some data =>
            let (disk, done) := writeFile os m disk target data
            { r with disk, restored := if done then r.restored + 1 else r.restored }

/-- The loop of `restoreBackup`. -/
def restoreEntries (p : Process os lower) (m : Machine) (workspaceDir : Name) (disk : Disk)
    (entries : List Entry) : Restored :=
  entries.foldl (restoreEntry p m workspaceDir) ⟨disk, 0, 0⟩

/-- One round of the loop of `createSubmissionFiles`.  `none` is an entry that
is no text. -/
def createSubmissionFile (p : Process os lower) (m : Machine) (workspaceDir : Name) (disk : Disk) :
    Option Name → Disk
  | none => disk
  | some filename =>
    match validateFilename p workspaceDir filename with
    | none => disk
    | some path =>
      match archiveKindOf filename with
      | some .rar => disk
      | some .zip => createFile os m disk path emptyZipEocd
      | none => createFile os m disk path []

/-- `createSubmissionFiles`; nothing where the folder cannot be made. -/
def createSubmissionFiles (p : Process os lower) (m : Machine) (workspaceDir : Name) (disk : Disk)
    (requiredFiles : List (Option Name)) : Option Disk := do
  let disk ← mkdir os m disk workspaceDir
  return requiredFiles.foldl (createSubmissionFile p m workspaceDir) disk

/-- The paths that a restore may write to: those below the workspace, and
its own where there is no folder yet. -/
def Restorable (os : Platform) (root : Name) (disk : Disk) (path : Name) : Prop :=
  Below os root path ∨ path = root ∧ isFolder os disk root = false

theorem isFolder_of_changesOnly (h : ChangesOnly allowed disk disk')
    (hfolder : isFolder os disk path = true) : isFolder os disk' path = true := by
  obtain ⟨dir, hdir, hpath⟩ := List.any_eq_true.1 hfolder
  exact List.any_eq_true.2 ⟨dir, h.folders dir hdir, hpath⟩

theorem restoreEntry_changes {r : Restored}
    (h : ChangesOnly (Restorable os (p.resolve [workspaceDir]) disk) disk r.disk) (entry : Entry) :
    ChangesOnly (Restorable os (p.resolve [workspaceDir]) disk) disk
      (restoreEntry p m workspaceDir r entry).disk := by
  unfold restoreEntry
  split
  · exact h
  · split
    · exact h
    · rename_i target htarget
      split
      · exact h
      · split
        · exact h
        · rename_i disk' hmkdir
          have hmade := h.trans (mkdir_changes _ hmkdir)
          split
          · exact hmade
          · apply hmade.trans
            apply writeFile_changes
            intro hfolder
            rcases resolveWithinWorkspace_cases htarget with heq | hbelow
            · right
              refine ⟨heq, ?_⟩
              by_contra hroot
              have hstill := isFolder_of_changesOnly hmade (Bool.not_eq_false _ ▸ hroot)
              rw [heq, hstill] at hfolder
              cases hfolder
            · exact Or.inl hbelow

theorem foldl_restoreEntry_changes {r : Restored}
    (h : ChangesOnly (Restorable os (p.resolve [workspaceDir]) disk) disk r.disk)
    (entries : List Entry) : ChangesOnly (Restorable os (p.resolve [workspaceDir]) disk) disk
      (entries.foldl (restoreEntry p m workspaceDir) r).disk := by
  induction entries generalizing r with
  | nil => exact h
  | cons entry entries ih => exact ih (restoreEntry_changes h entry)

theorem restoreEntries_changes (p : Process os lower) (m : Machine) (workspaceDir : Name)
    (disk : Disk) (entries : List Entry) :
    ChangesOnly (Restorable os (p.resolve [workspaceDir]) disk) disk
      (restoreEntries p m workspaceDir disk entries).disk := by
  unfold restoreEntries
  apply foldl_restoreEntry_changes
  exact ChangesOnly.refl _ disk

theorem createSubmissionFile_changes (p : Process os lower) (m : Machine) (workspaceDir : Name)
    (disk : Disk) (filename : Option Name) :
    ChangesOnly (ChildOf os (p.resolve [workspaceDir])) disk
      (createSubmissionFile p m workspaceDir disk filename) := by
  unfold createSubmissionFile
  split
  · exact ChangesOnly.refl _ disk
  · split
    · exact ChangesOnly.refl _ disk
    · rename_i path hpath
      have hchild := validateFilename_child hpath
      split
      · exact ChangesOnly.refl _ disk
      · exact createFile_changes _ hchild
      · exact createFile_changes _ hchild

theorem foldl_createSubmissionFile_changes (p : Process os lower) (m : Machine)
    (workspaceDir : Name) (disk : Disk) (requiredFiles : List (Option Name)) :
    ChangesOnly (ChildOf os (p.resolve [workspaceDir])) disk
      (requiredFiles.foldl (createSubmissionFile p m workspaceDir) disk) := by
  induction requiredFiles generalizing disk with
  | nil => exact ChangesOnly.refl _ disk
  | cons filename requiredFiles ih =>
    rw [List.foldl_cons]
    exact (createSubmissionFile_changes p m workspaceDir disk filename).trans (ih _)

theorem createSubmissionFiles_changes {requiredFiles : List (Option Name)}
    (h : createSubmissionFiles p m workspaceDir disk requiredFiles = some disk') :
    ChangesOnly (ChildOf os (p.resolve [workspaceDir])) disk disk' := by
  unfold createSubmissionFiles at h
  obtain ⟨made, hmade, h⟩ := Option.bind_eq_some_iff.1 h
  cases h
  exact (mkdir_changes _ hmade).trans (foldl_createSubmissionFile_changes p m workspaceDir made _)

/-- Nothing leaves the workspace, whatever names an archive or the server
gives. -/
structure Contained (p : Process os lower) (workspaceDir : Name) : Prop where
  resolves : ∀ entryPath path, resolveWithinWorkspace p workspaceDir entryPath = some path →
    path = p.resolve [workspaceDir] ∨ Below os (p.resolve [workspaceDir]) path
  validates : ∀ filename path, validateFilename p workspaceDir filename = some path →
    ChildOf os (p.resolve [workspaceDir]) path
  restores : ∀ m disk entries, ChangesOnly (Restorable os (p.resolve [workspaceDir]) disk) disk
    (restoreEntries p m workspaceDir disk entries).disk
  creates : ∀ m disk disk' requiredFiles,
    createSubmissionFiles p m workspaceDir disk requiredFiles = some disk' →
      ChangesOnly (ChildOf os (p.resolve [workspaceDir])) disk disk'

theorem contained (p : Process os lower) (workspaceDir : Name) : Contained p workspaceDir := by
  constructor
  · exact fun entryPath path => resolveWithinWorkspace_cases
  · exact fun filename path => validateFilename_child
  · exact fun m disk entries => restoreEntries_changes p m workspaceDir disk entries
  · exact fun m disk disk' requiredFiles => createSubmissionFiles_changes

theorem not_below_self (os : Platform) (folder : Name) : ¬ Below os folder folder := by
  rintro ⟨names, -, -, heq⟩
  have hlength := congrArg List.length heq
  rw [List.length_append, List.length_cons] at hlength
  omega

/-- An entry may name the workspace itself. -/
theorem workspace_itself :
    (resolveWithinWorkspace posixRoot "/ws".toList ".".toList = some "/ws".toList ∧
      ¬ Below .posix (posixRoot.resolve ["/ws".toList]) "/ws".toList) ∧
    resolveWithinWorkspace win32Root "C:\\ws".toList "a\\..".toList = some "C:\\ws".toList ∧
      ¬ Below .win32 (win32Root.resolve ["C:\\ws".toList]) "C:\\ws".toList := by
  refine ⟨⟨rfl, ?_⟩, rfl, ?_⟩
  · exact not_below_self .posix _
  · exact not_below_self .win32 _

/-! ## The paths of `Workspace` -/

section Posix

variable (p : Process .posix lower)

/-- A path below the root folder, as it is written. -/
def written (path : Workspace.FilePath) : Name := '/' :: joinNames .posix path.segments

theorem isName_of_isSegment {name : Name} (h : Workspace.IsSegment name) :
    IsName .posix name := by
  obtain ⟨hne, hdot, hdots, hslash⟩ := h
  refine ⟨hne, hdot, hdots, fun c hc => ?_⟩
  rw [isSep, decide_eq_false_iff_not]
  rintro rfl
  exact hslash hc

theorem push_segments (here : Workspace.FilePath) {segment : Name} (hne : segment ≠ [])
    (hslash : '/' ∉ segment) :
    push false here.segments segment = (Workspace.resolveSegment here segment).segments := by
  by_cases hdots : segment = ['.', '.']
  · rw [hdots]
    have hlast : here.segments.getLast? ≠ some ['.', '.'] := fun h =>
      (here.clean _ (List.mem_of_getLast? h)).2.2.1 rfl
    have hpop : (Workspace.resolveSegment here ['.', '.']).segments = here.segments.dropLast := rfl
    unfold push
    rw [if_neg (by decide), if_pos rfl, hpop]
    simp only [Bool.false_eq_true, if_false]
    split_ifs with hhere
    · rfl
    · rw [not_and_or, not_not] at hhere
      rw [hhere.resolve_right fun h => h hlast, List.dropLast_nil]
  · by_cases hdot : segment = ['.']
    · rw [hdot, push_dot]
      rfl
    · rw [push_name hdot hdots, Workspace.resolveSegment_of_isSegment ⟨hne, hdot, hdots, hslash⟩]

theorem foldl_push_segments (here : Workspace.FilePath) (entryPath : Name) :
    (segments .posix entryPath).foldl (push false) here.segments =
      (Workspace.resolve here entryPath).segments := by
  have hsplit : entryPath.splitOnP (isSep .posix) = entryPath.splitOn '/' := rfl
  have hplain : ∀ part ∈ entryPath.splitOn '/', '/' ∉ part := fun part =>
    notMem_of_mem_splitOn
  unfold segments Workspace.resolve
  rw [hsplit]
  generalize entryPath.splitOn '/' = parts at hplain
  induction parts generalizing here with
  | nil => rfl
  | cons part parts ih =>
    have hrest : ∀ part ∈ parts, '/' ∉ part := fun p hp => hplain p (List.mem_cons_of_mem _ hp)
    rw [List.foldl_cons]
    by_cases hne : part = []
    · rw [hne, List.filter_cons_of_neg (by simp), ih here hrest]
      rfl
    · rw [List.filter_cons_of_pos (by simpa using hne), List.foldl_cons,
        push_segments here hne (hplain part List.mem_cons_self), ih _ hrest]

theorem take_posix {r : Resolving} (path : Name) (hdevice : r.device = [])
    (habsolute : r.absolute = true) :
    r.take .posix lower path = ⟨[], true, r.segments⟩ := by
  have hnone : (splitRoot .posix path).device = [] := splitPosix_device path
  unfold Resolving.take
  dsimp only
  rw [if_neg fun hno => hno.1 hnone, if_pos hdevice, if_pos habsolute, hnone]

theorem take_posix_relative {r : Resolving} (path : Name) (hdevice : r.device = [])
    (habsolute : r.absolute = false) : r.take .posix lower path =
      ⟨[], (splitPosix path).absolute, segments .posix (splitPosix path).tail ++ r.segments⟩ := by
  have hnone : (splitRoot .posix path).device = [] := splitPosix_device path
  unfold Resolving.take
  dsimp only
  rw [if_neg fun hno => hno.1 hnone, if_pos hdevice, habsolute, if_neg Bool.false_ne_true, hnone]
  rfl

theorem foldl_push_written (w : Workspace.FilePath) :
    normalNames false w.segments = w.segments := by
  unfold normalNames
  rw [foldl_push_of_notMem, List.nil_append]
  · exact fun h => (w.clean _ h).2.1 rfl
  · exact fun h => (w.clean _ h).2.2.1 rfl

theorem segments_written (w : Workspace.FilePath) :
    segments .posix (joinNames .posix w.segments) = w.segments :=
  segments_joinNames fun name hname =>
    ⟨(w.clean name hname).1, (isName_of_isSegment (w.clean name hname)).plain⟩

theorem resolve_written (w : Workspace.FilePath) : p.resolve [written w] = written w := by
  unfold Process.resolve
  dsimp only
  have hroot : splitRoot .posix (written w) = ⟨[], true, joinNames .posix w.segments⟩ := rfl
  rw [located_singleton, hroot, segments_written, take_posix _ rfl rfl, foldl_push_written]
  rfl

theorem splitPosix_of_head {path : Name} (h : path.head? ≠ some '/') :
    splitPosix path = ⟨[], false, path⟩ := by
  apply splitPosix_tail
  intro c hc
  rw [isSep, decide_eq_false_iff_not]
  rintro rfl
  exact h hc

theorem resolve_written_entry (w : Workspace.FilePath) {entryPath : Name}
    (hne : entryPath ≠ []) (h : entryPath.head? ≠ some '/') :
    p.resolve [written w, entryPath] = written (Workspace.resolve w entryPath) := by
  have hlocated : p.located [written w, entryPath] =
      ⟨[], true, w.segments ++ segments .posix entryPath⟩ := by
    have hroot : splitPosix (written w) = ⟨[], true, joinNames .posix w.segments⟩ := rfl
    unfold Process.located
    rw [List.filter_cons_of_pos (by simp [written]), List.filter_cons_of_pos (by simpa using hne),
      List.filter_nil, List.foldr_cons, List.foldr_cons, List.foldr_nil,
      take_posix_relative entryPath rfl rfl, splitPosix_of_head h,
      take_posix_relative (written w) rfl rfl, hroot, segments_written, List.append_nil]
    exact take_posix _ rfl rfl
  unfold Process.resolve
  dsimp only
  rw [hlocated, normalNames, List.foldl_append]
  show [] ++ '/' :: joinNames .posix ((segments .posix entryPath).foldl (push false)
    (normalNames false w.segments)) = _
  rw [foldl_push_written, foldl_push_segments]
  rfl

theorem startsWith_written {w path : Workspace.FilePath} (hw : w.segments ≠ []) :
    written path = written w ∨ (written w ++ [sep .posix]) <+: written path ↔
      w.segments <+: path.segments := by
  constructor
  · rintro (heq | hprefix)
    · have hsegments := congrArg (segments .posix) (List.cons.inj heq).2
      rw [segments_written, segments_written] at hsegments
      rw [hsegments]
    · obtain ⟨-, -, rest, -, hrest⟩ := @names_behind .posix [] [] w.segments path.segments rfl
        rfl (fun name hname => isName_of_isSegment (w.clean name hname))
        (fun name hname => isName_of_isSegment (path.clean name hname)) hprefix
      exact ⟨rest, hrest.symm⟩
  · rintro ⟨rest, hrest⟩
    by_cases hnil : rest = []
    · left
      rw [written, written, ← hrest, hnil, List.append_nil]
    · right
      refine ⟨joinNames .posix rest, ?_⟩
      rw [written, written, ← hrest, joinNames_append hw hnil, List.append_assoc]
      rfl

/-- The check on texts is the check on segments. -/
theorem resolveWithinWorkspace_written {w : Workspace.FilePath} (hw : w.segments ≠ [])
    (entryPath : Name) : resolveWithinWorkspace p (written w) entryPath =
      (Workspace.resolveWithinWorkspace w entryPath).map fun path =>
        '/' :: joinNames .posix (w.segments ++ path.segments) := by
  have habsolute : isAbsolute .posix entryPath = true ↔ entryPath.head? = some '/' := by
    show (splitPosix entryPath).absolute = true ↔ _
    by_cases hhead : entryPath.head? = some '/'
    · obtain ⟨rest, rfl⟩ := List.head?_eq_some_iff.1 hhead
      exact iff_of_true rfl hhead
    · rw [splitPosix_of_head hhead]
      exact iff_of_false Bool.false_ne_true hhead
  unfold resolveWithinWorkspace Workspace.resolveWithinWorkspace
  simp only [habsolute]
  by_cases hempty : entryPath = [] ∨ entryPath.getLast? = some '/' ∨
      entryPath.getLast? = some '\\'
  · rw [if_pos hempty, if_pos hempty, Option.map_none]
  · by_cases hroot : entryPath.head? = some '/' ∨ Workspace.hasDrive entryPath = true
    · rw [if_neg hempty, if_neg hempty, if_pos hroot, if_pos hroot, Option.map_none]
    · rw [not_or] at hempty hroot
      rw [if_neg (not_or.2 hempty), if_neg (not_or.2 hempty), if_neg (not_or.2 hroot),
        if_neg (not_or.2 hroot), resolve_written, resolve_written_entry p w hempty.1 hroot.1]
      simp only [startsWith_written hw]
      split_ifs with hinside
      · have hbehind := List.prefix_iff_eq_append.1 hinside
        show some (written _) = some ('/' :: joinNames .posix (w.segments ++ List.drop _ _))
        rw [hbehind]
        rfl
      · rfl

/-- A workspace at `/ws`. -/
def wsFolder : Workspace.FilePath where
  segments := ["ws".toList]
  clean := by decide

theorem resolved_ws :
    resolveWithinWorkspace posixRoot (written wsFolder) "a/../b.txt".toList =
      some "/ws/b.txt".toList := by
  rw [resolveWithinWorkspace_written posixRoot (by decide)]
  rfl

end Posix

end Cine.Agent.Containment
