import Cine.Grading.Sandbox.SourceFiles

/-!
# What the sandbox compiles

`writeProgram` puts the files of a program into a directory, and the compile
command hands every `*.cpp` that `find` finds in it to the compiler.  A
directory is a `Tree`: its files and its folders, each by the parts of its
path.  `find` has no `-type f`, so it finds folders too, and it knows
neither the other extensions of `sourceExtensions` nor other letter case.

There are four groups.

* The directory, and `writeProgram` on it.
* The compile command.
* `Holds`: what a directory has in it after some files were written, and
  when the next one can be written.
* The comparison.  `Agree` is when the files and the translation units are
  what the extractor accepted.
-/

namespace Cine.Grading.Sandbox

open Cine.Lib

abbrev Parts := List Name

structure Tree where
  files : OrderedMap Parts (List Nat)
  folders : List Parts

def Tree.empty : Tree := ⟨.empty, []⟩

inductive FsError
  /-- A folder is to be made where a file is. -/
  | fileExists
  /-- A file is to be written where a folder is. -/
  | isDirectory
  /-- `materialize` refuses the contents. -/
  | fetch

/-- `mkdir` with `recursive`, in a folder that is there. -/
def Tree.mkdir (tree : Tree) (folder : Parts) : Except FsError Tree :=
  if tree.files.has folder then .error .fileExists
  else .ok { tree with folders := tree.folders ++ [folder] }

/-- The loop of `ensureDir`. -/
def Tree.ensureDir (tree : Tree) (cur : Parts) : Parts → Except FsError Tree
  | [] => .ok tree
  | part :: parts => do (← tree.mkdir (cur ++ [part])).ensureDir (cur ++ [part]) parts

def Tree.put (tree : Tree) (target : Parts) (bytes : List Nat) : Except FsError Tree :=
  if target ∈ tree.folders then .error .isDirectory
  else .ok { tree with files := tree.files.set target bytes }

/-- `materialize`, of an inline reference. -/
def materialize (content : List Char) : Except FsError (List Nat) :=
  if inlineFits content then .ok (Utf8.encode content) else .error .fetch

/-- `file.path.split('/')`. -/
def parts (path : Name) : Parts := path.splitOn '/'

/-- One round of the loop of `writeProgram`. -/
def Tree.writeFile (tree : Tree) (file : SourceFile) : Except FsError Tree := do
  let tree ← tree.ensureDir [] (parts file.path).dropLast
  tree.put (parts file.path) (← materialize file.content)

/-- `DRIVER_FILE`. -/
def driverFile : SandboxLanguage → Name
  | .cpp => "__cine_driver.cpp".toList
  | .python => "__cine_driver.py".toList

def Tree.writeDriver (tree : Tree) (language : SandboxLanguage) :
    Option (List Char) → Except FsError Tree
  | none => .ok tree
  | some driver => do tree.put [driverFile language] (← materialize driver)

/-- `writeProgram`, into a new directory. -/
def writeProgram (language : SandboxLanguage) (program : ProgramSpec) : Except FsError Tree := do
  let tree ← program.files.foldlM Tree.writeFile Tree.empty
  tree.writeDriver language program.driver

/-! ## The compile command -/

/-- `*.cpp`, the pattern of `find`. -/
def isCppName (name : Name) : Bool := ".cpp".toList.isSuffixOf name

/-- `find /src -name '*.cpp'`: what the compiler is handed.  The order that
`sort` gives the arguments is left out. -/
def Tree.cppArguments (tree : Tree) : List Parts :=
  (tree.files.entries.map Prod.fst ++ tree.folders).filter fun p => p.getLast?.any isCppName

/-! ## What was written -/

/-- A folder on the way to a file. -/
def IsFolderOf (folder path : Parts) : Prop := folder ≠ [] ∧ folder <+: path ∧ folder ≠ path

/-- The directory has the files of a list in it, and their folders. -/
structure Holds (tree : Tree) (written : List SourceFile) : Prop where
  file_iff : ∀ p, (tree.files.get? p).isSome ↔ ∃ f ∈ written, parts f.path = p
  content : ∀ p bytes, tree.files.get? p = some bytes →
    ∃ f ∈ written, parts f.path = p ∧ Utf8.encode f.content = bytes
  folder_iff : ∀ d, d ∈ tree.folders ↔ ∃ f ∈ written, IsFolderOf d (parts f.path)
  apart : ∀ d ∈ tree.folders, tree.files.get? d = none

theorem Holds.empty : Holds Tree.empty [] where
  file_iff _ := iff_of_false Bool.false_ne_true (fun ⟨_, hf, _⟩ => nomatch hf)
  content _ bytes h := nomatch (show none = some bytes from h)
  folder_iff _ := iff_of_false List.not_mem_nil (fun ⟨_, hf, _⟩ => nomatch hf)
  apart _ hd := nomatch hd

variable {tree tree' : Tree} {rest : Parts} {file : SourceFile} {written : List SourceFile}
    {path : Name}

theorem mkdir_eq_ok {folder : Parts} : tree.mkdir folder = .ok tree' ↔
    tree.files.get? folder = none ∧
      tree' = { tree with folders := tree.folders ++ [folder] } := by
  unfold Tree.mkdir OrderedMap.has
  cases tree.files.get? folder with
  | some bytes => simp
  | none => simp [eq_comm]

theorem ensureDir_eq_ok {cur : Parts} (h : tree.ensureDir cur rest = .ok tree') :
    tree'.files = tree.files ∧
      (∀ d, d ∈ tree'.folders ↔ d ∈ tree.folders ∨
        ∃ front, front ≠ [] ∧ front <+: rest ∧ d = cur ++ front) ∧
      ∀ front, front ≠ [] → front <+: rest → tree.files.get? (cur ++ front) = none := by
  induction rest generalizing tree cur with
  | nil =>
    cases h
    refine ⟨rfl, fun d => ?_, fun front hne hfront => absurd (List.prefix_nil.1 hfront) hne⟩
    simp only [List.prefix_nil]
    tauto
  | cons part rest ih =>
    rw [Tree.ensureDir] at h
    cases hmk : tree.mkdir (cur ++ [part]) with
    | error e =>
      rw [hmk] at h
      cases h
    | ok made =>
      rw [hmk] at h
      obtain ⟨hfree, rfl⟩ := mkdir_eq_ok.1 hmk
      obtain ⟨hfiles, hfolders, hnone⟩ := ih h
      refine ⟨hfiles, fun d => ?_, ?_⟩
      · rw [hfolders d, List.mem_append, List.mem_singleton, or_assoc]
        refine or_congr Iff.rfl ⟨?_, ?_⟩
        · rintro (rfl | ⟨front, hne, hfront, rfl⟩)
          · exact ⟨[part], List.cons_ne_nil _ _, by simp, rfl⟩
          · refine ⟨part :: front, List.cons_ne_nil _ _, List.cons_prefix_cons.2 ⟨rfl, hfront⟩, ?_⟩
            simp
        · rintro ⟨front, hne, hfront, rfl⟩
          cases front with
          | nil => exact absurd rfl hne
          | cons x front =>
            obtain ⟨rfl, hrest⟩ := List.cons_prefix_cons.1 hfront
            by_cases hnil : front = []
            · exact Or.inl (by rw [hnil])
            · exact Or.inr ⟨front, hnil, hrest, by simp⟩
      · intro front hne hfront
        cases front with
        | nil => exact absurd rfl hne
        | cons x front =>
          obtain ⟨rfl, hrest⟩ := List.cons_prefix_cons.1 hfront
          by_cases hnil : front = []
          · rw [hnil]
            exact hfree
          · have := hnone front hnil hrest
            rwa [List.append_assoc, List.singleton_append] at this

theorem ensureDir_ok {cur : Parts}
    (h : ∀ front, front ≠ [] → front <+: rest → tree.files.get? (cur ++ front) = none) :
    ∃ tree', tree.ensureDir cur rest = .ok tree' := by
  induction rest generalizing tree cur with
  | nil => exact ⟨tree, rfl⟩
  | cons part rest ih =>
    have hmk : tree.mkdir (cur ++ [part]) =
        .ok { tree with folders := tree.folders ++ [cur ++ [part]] } :=
      mkdir_eq_ok.2 ⟨h [part] (List.cons_ne_nil _ _) (by simp), rfl⟩
    rw [Tree.ensureDir, hmk]
    refine ih fun front hne hfront => ?_
    have := h (part :: front) (List.cons_ne_nil _ _) (List.cons_prefix_cons.2 ⟨rfl, hfront⟩)
    rwa [List.append_assoc, List.singleton_append]

theorem isFolderOf_iff {d p : Parts} : IsFolderOf d p ↔ d ≠ [] ∧ d <+: p.dropLast := by
  unfold IsFolderOf
  refine and_congr_right fun hd => ?_
  constructor
  · rintro ⟨⟨t, rfl⟩, hne⟩
    have ht : t ≠ [] := fun h => hne (by rw [h, List.append_nil])
    rw [List.dropLast_append_of_ne_nil ht]
    exact List.prefix_append _ _
  · intro h
    refine ⟨h.trans (List.dropLast_prefix p), ?_⟩
    rintro rfl
    have hlength := h.length_le
    have hpos := List.length_pos_iff.2 hd
    rw [List.length_dropLast] at hlength
    omega

theorem writeFile_eq_ok (h : tree.writeFile file = .ok tree') :
    inlineFits file.content = true ∧ parts file.path ∉ tree'.folders ∧
      tree'.files = tree.files.set (parts file.path) (Utf8.encode file.content) ∧
      (∀ d, d ∈ tree'.folders ↔ d ∈ tree.folders ∨ IsFolderOf d (parts file.path)) ∧
      ∀ d, IsFolderOf d (parts file.path) → tree.files.get? d = none := by
  unfold Tree.writeFile at h
  cases hensure : tree.ensureDir [] (parts file.path).dropLast with
  | error e =>
    rw [hensure] at h
    cases h
  | ok made =>
    obtain ⟨hfiles, hfolders, hnone⟩ := ensureDir_eq_ok hensure
    rw [hensure] at h
    change (materialize file.content >>= fun bytes => made.put (parts file.path) bytes) = _ at h
    unfold materialize at h
    split_ifs at h with hfits
    · change made.put (parts file.path) (Utf8.encode file.content) = _ at h
      unfold Tree.put at h
      split_ifs at h with hfolder
      cases h
      refine ⟨hfits, hfolder, ?_, fun d => ?_, fun d hd => ?_⟩
      · rw [← hfiles]
      · rw [isFolderOf_iff]
        simpa using hfolders d
      · obtain ⟨hne, hfront⟩ := isFolderOf_iff.1 hd
        exact hnone d hne hfront
    · cases h

theorem writeFile_ok (hfits : inlineFits file.content = true)
    (hfree : ∀ d, IsFolderOf d (parts file.path) → tree.files.get? d = none)
    (hfile : parts file.path ∉ tree.folders) : ∃ tree', tree.writeFile file = .ok tree' := by
  obtain ⟨made, hensure⟩ : ∃ made, tree.ensureDir [] (parts file.path).dropLast = .ok made :=
    ensureDir_ok fun front hne hfront => hfree front (isFolderOf_iff.2 ⟨hne, hfront⟩)
  have hput : parts file.path ∉ made.folders := by
    rw [(ensureDir_eq_ok hensure).2.1]
    rintro (h | ⟨front, -, hfront, hpath⟩)
    · exact hfile h
    · rw [List.nil_append] at hpath
      rw [← hpath] at hfront
      have hlength := hfront.length_le
      have hpos := List.length_pos_iff.2 (List.splitOn_ne_nil '/' file.path)
      unfold parts at hlength
      rw [List.length_dropLast] at hlength
      omega
  unfold Tree.writeFile
  rw [hensure]
  refine ⟨{ made with
    files := made.files.set (parts file.path) (Utf8.encode file.content) }, ?_⟩
  show (materialize file.content >>= fun bytes => made.put (parts file.path) bytes) = _
  rw [materialize, if_pos hfits]
  show made.put (parts file.path) (Utf8.encode file.content) = _
  rw [Tree.put, if_neg hput]

theorem Holds.write (h : Holds tree written) (hwrite : tree.writeFile file = .ok tree') :
    Holds tree' (written ++ [file]) := by
  obtain ⟨-, hput, hfiles, hfolders, hfree⟩ := writeFile_eq_ok hwrite
  have hget : ∀ p, tree'.files.get? p =
      if p = parts file.path then some (Utf8.encode file.content) else tree.files.get? p := by
    intro p
    rw [hfiles, OrderedMap.get?_set]
  constructor
  · intro p
    rw [hget]
    simp only [List.mem_append, List.mem_singleton, or_and_right, exists_or, exists_eq_left,
      ← h.file_iff]
    by_cases hp : p = parts file.path
    · simp [hp]
    · simp [hp, Ne.symm hp]
  · intro p bytes hbytes
    rw [hget] at hbytes
    split_ifs at hbytes with hp
    · exact ⟨file, by simp, hp.symm, Option.some.inj hbytes⟩
    · obtain ⟨f, hf, hfp, hcontent⟩ := h.content p bytes hbytes
      exact ⟨f, List.mem_append_left _ hf, hfp, hcontent⟩
  · intro d
    rw [hfolders, h.folder_iff]
    simp only [List.mem_append, List.mem_singleton, or_and_right, exists_or, exists_eq_left]
  · intro d hd
    have hne : d ≠ parts file.path := by
      rintro rfl
      exact hput hd
    rw [hget, if_neg hne]
    rcases (hfolders d).1 hd with hd | hd
    · exact h.apart d hd
    · exact hfree d hd

theorem Holds.writeAll {files : List SourceFile} (h : Holds tree written)
    (hwrite : files.foldlM Tree.writeFile tree = .ok tree') : Holds tree' (written ++ files) := by
  induction files generalizing tree written with
  | nil =>
    cases hwrite
    rwa [List.append_nil]
  | cons file files ih =>
    rw [List.foldlM_cons] at hwrite
    cases hfile : tree.writeFile file with
    | error e =>
      rw [hfile] at hwrite
      cases hwrite
    | ok next =>
      rw [hfile] at hwrite
      have := ih (h.write hfile) hwrite
      rwa [List.append_assoc, List.singleton_append] at this

/-- No path of the list is a folder of another. -/
def NoFileIsFolder (files : List SourceFile) : Prop :=
  ∀ f ∈ files, ∀ g ∈ files, ¬ IsFolderOf (parts f.path) (parts g.path)

theorem Holds.writeAll_ok {files : List SourceFile} (h : Holds tree written)
    (hfolders : NoFileIsFolder (written ++ files))
    (hfits : ∀ f ∈ files, inlineFits f.content = true) :
    ∃ tree', files.foldlM Tree.writeFile tree = .ok tree' := by
  induction files generalizing tree written with
  | nil => exact ⟨tree, rfl⟩
  | cons file files ih =>
    have hmem : file ∈ written ++ file :: files := by simp
    obtain ⟨next, hnext⟩ : ∃ next, tree.writeFile file = .ok next := by
      refine writeFile_ok (hfits file List.mem_cons_self) (fun d hd => ?_) (fun hd => ?_)
      · rw [← Option.not_isSome_iff_eq_none, h.file_iff]
        rintro ⟨f, hf, rfl⟩
        exact hfolders f (List.mem_append_left _ hf) file hmem hd
      · obtain ⟨g, hg, hfolder⟩ := (h.folder_iff _).1 hd
        exact hfolders file hmem g (List.mem_append_left _ hg) hfolder
    rw [List.foldlM_cons, hnext]
    refine ih (h.write hnext) ?_ fun f hf => hfits f (List.mem_cons_of_mem _ hf)
    rwa [List.append_assoc, List.singleton_append]

/-! ## The comparison -/

/-- `.h` or `.hpp`. -/
def isHeader (path : Name) : Bool :=
  match extension path with
  | some ext => lower ext ∈ [".h".toList, ".hpp".toList]
  | none => false

/-- The files of the directory are the accepted ones, and the driver. -/
def Created (tree : Tree) (files : List SourceFile) (driver : Option (List Char)) : Prop :=
  ∀ p bytes, tree.files.get? p = some bytes ↔
    (∃ f ∈ files, parts f.path = p ∧ Utf8.encode f.content = bytes) ∨
      ∃ d ∈ driver, p = [driverFile .cpp] ∧ bytes = Utf8.encode d

/-- The compiler is handed the accepted files that are not headers, and the
driver. -/
def HandsOver (tree : Tree) (files : List SourceFile) (driver : Option (List Char)) : Prop :=
  ∀ p, p ∈ tree.cppArguments ↔
    (∃ f ∈ files, isHeader f.path = false ∧ parts f.path = p) ∨
      driver.isSome ∧ p = [driverFile .cpp]

/-- The condition on the accepted files. -/
structure Agree (files : List SourceFile) : Prop where
  contents : ∀ f ∈ files, ∀ g ∈ files, f.path = g.path → f.content = g.content
  noFileIsFolder : NoFileIsFolder files
  sources : ∀ f ∈ files, isHeader f.path = false → isCppName f.path = true
  folders : ∀ f ∈ files, ∀ d, IsFolderOf d (parts f.path) → d.getLast?.any isCppName = false

theorem mem_cppArguments {p : Parts} : p ∈ tree.cppArguments ↔
    ((tree.files.get? p).isSome ∨ p ∈ tree.folders) ∧ p.getLast?.any isCppName = true := by
  unfold Tree.cppArguments
  rw [List.mem_filter, List.mem_append, ← OrderedMap.isSome_get?_iff]

theorem isHeader_of_isCppName (h : isCppName path = true) : isHeader path = false := by
  have hext : extension path = some ".cpp".toList :=
    extension_eq_some.2 ⟨"cpp".toList, rfl, by decide, List.isSuffixOf_iff_suffix.1 h⟩
  unfold isHeader
  rw [hext]
  decide

theorem intercalate_parts (path : Name) : ['/'].intercalate (parts path) = path :=
  List.intercalate_splitOn '/'

theorem parts_injective : Function.Injective parts := fun p q h => by
  rw [← intercalate_parts p, h, intercalate_parts]

theorem parts_ne_nil (path : Name) : parts path ≠ [] := List.splitOn_ne_nil _ _

theorem any_isCppName_parts (path : Name) :
    (parts path).getLast?.any isCppName = isCppName path := by
  obtain ⟨front, last, hparts⟩ : ∃ front last, parts path = front ++ [last] :=
    ⟨_, _, (List.dropLast_append_getLast (parts_ne_nil path)).symm⟩
  rw [hparts, List.getLast?_concat, Option.any_some, Bool.eq_iff_iff]
  unfold isCppName
  rw [List.isSuffixOf_iff_suffix, List.isSuffixOf_iff_suffix, ← intercalate_parts path, hparts]
  constructor
  · exact fun h => h.trans (suffix_intercalate front last)
  · exact suffix_getLast_of_intercalate (by decide)

theorem prefix_of_parts {first : Name} (h : parts path = first :: rest) : first <+: path := by
  rw [← intercalate_parts path, h]
  cases rest with
  | nil => simp
  | cons next rest =>
    rw [List.intercalate_cons_cons, List.append_assoc]
    exact List.prefix_append _ _

theorem parts_head_ne_driver (h : safePath path = true) : parts path ≠ driverFile .cpp :: rest := by
  intro heq
  unfold safePath at h
  simp only [decide_eq_true_eq] at h
  refine h.2.2.1 (List.isPrefixOf_iff_prefix.2 (List.IsPrefix.trans ?_ (prefix_of_parts heq)))
  decide

theorem not_isFolderOf_driver (h : safePath path = true) :
    ¬ IsFolderOf [driverFile .cpp] (parts path) := by
  rintro ⟨-, ⟨rest, hrest⟩, -⟩
  exact parts_head_ne_driver h hrest.symm

theorem encode_injective : Function.Injective Utf8.encode := fun a b h => by
  rw [← Utf8.decode_encode a, h, Utf8.decode_encode]

section Program

variable {program : ProgramSpec} (hsafe : ∀ f ∈ program.files, safePath f.path = true)
include hsafe

theorem Holds.driver_free {base : Tree} (h : Holds base program.files) :
    base.files.get? [driverFile .cpp] = none ∧ [driverFile .cpp] ∉ base.folders := by
  constructor
  · rw [← Option.not_isSome_iff_eq_none, h.file_iff]
    rintro ⟨f, hf, hparts⟩
    exact parts_head_ne_driver (hsafe f hf) hparts
  · rw [h.folder_iff]
    rintro ⟨f, hf, hfolder⟩
    exact not_isFolderOf_driver (hsafe f hf) hfolder

variable {tree : Tree}

theorem writeProgram_eq_ok (h : writeProgram .cpp program = .ok tree) :
    ∃ base, Holds base program.files ∧ tree.folders = base.folders ∧
      ∀ p bytes, tree.files.get? p = some bytes ↔ base.files.get? p = some bytes ∨
        ∃ d ∈ program.driver, p = [driverFile .cpp] ∧ bytes = Utf8.encode d := by
  unfold writeProgram at h
  cases hall : program.files.foldlM Tree.writeFile Tree.empty with
  | error e =>
    rw [hall] at h
    cases h
  | ok base =>
    have hholds : Holds base program.files := Holds.empty.writeAll hall
    rw [hall] at h
    change base.writeDriver .cpp program.driver = .ok tree at h
    refine ⟨base, hholds, ?_⟩
    cases hdriver : program.driver with
    | none =>
      rw [hdriver] at h
      cases h
      simp
    | some d =>
      rw [hdriver] at h
      change (materialize d >>= fun bytes => base.put [driverFile .cpp] bytes) = _ at h
      unfold materialize at h
      split_ifs at h with hfits
      · change base.put [driverFile .cpp] (Utf8.encode d) = _ at h
        unfold Tree.put at h
        split_ifs at h with hfolder
        cases h
        refine ⟨rfl, fun p bytes => ?_⟩
        dsimp only
        rw [OrderedMap.get?_set]
        by_cases hp : p = [driverFile .cpp]
        · simp [hp, (hholds.driver_free hsafe).1, eq_comm]
        · simp [hp]
      · cases h

theorem writeProgram_ok (hfits : ∀ f ∈ program.files, inlineFits f.content = true)
    (hdriver : ∀ d ∈ program.driver, inlineFits d = true)
    (hfolders : NoFileIsFolder program.files) : ∃ tree, writeProgram .cpp program = .ok tree := by
  obtain ⟨base, hall⟩ := Holds.empty.writeAll_ok hfolders hfits
  have hholds : Holds base program.files := Holds.empty.writeAll hall
  have hrun : writeProgram .cpp program = base.writeDriver .cpp program.driver := by
    unfold writeProgram
    rw [hall]
    rfl
  rw [hrun]
  cases hd : program.driver with
  | none => exact ⟨base, rfl⟩
  | some d =>
    refine ⟨{ base with files := base.files.set [driverFile .cpp] (Utf8.encode d) }, ?_⟩
    show (materialize d >>= fun bytes => base.put [driverFile .cpp] bytes) = _
    rw [materialize, if_pos (hdriver d hd)]
    show base.put [driverFile .cpp] (Utf8.encode d) = _
    rw [Tree.put, if_neg (hholds.driver_free hsafe).2]

theorem agree_of_written (hwrite : writeProgram .cpp program = .ok tree)
    (hcreated : Created tree program.files program.driver)
    (hhands : HandsOver tree program.files program.driver) : Agree program.files := by
  obtain ⟨base, hholds, hfolders, -⟩ := writeProgram_eq_ok hsafe hwrite
  have hget : ∀ f ∈ program.files,
      tree.files.get? (parts f.path) = some (Utf8.encode f.content) := fun f hf =>
    (hcreated _ _).2 (Or.inl ⟨f, hf, rfl, rfl⟩)
  have hnot : NoFileIsFolder program.files := by
    intro f hf g hg hfolder
    have hmem := (hholds.folder_iff _).2 ⟨g, hg, hfolder⟩
    have hsome := (hholds.file_iff _).2 ⟨f, hf, rfl⟩
    rw [hholds.apart _ hmem] at hsome
    cases hsome
  refine ⟨fun f hf g hg hpath => ?_, hnot, fun f hf hheader => ?_, fun f hf d hd => ?_⟩
  · have heq := hget f hf
    rw [hpath, hget g hg] at heq
    exact (encode_injective (Option.some.inj heq)).symm
  · have hmem := (hhands (parts f.path)).2 (Or.inl ⟨f, hf, hheader, rfl⟩)
    rw [← any_isCppName_parts]
    exact (mem_cppArguments.1 hmem).2
  · rw [← Bool.not_eq_true]
    intro hcpp
    have hmem : d ∈ tree.folders := by
      rw [hfolders]
      exact (hholds.folder_iff d).2 ⟨f, hf, hd⟩
    rcases (hhands d).1 (mem_cppArguments.2 ⟨Or.inr hmem, hcpp⟩) with
      ⟨g, hg, -, hgd⟩ | ⟨-, hdriver⟩
    · exact hnot g hg f hf (hgd ▸ hd)
    · exact not_isFolderOf_driver (hsafe f hf) (hdriver ▸ hd)

theorem written_of_agree (hwrite : writeProgram .cpp program = .ok tree) (h : Agree program.files) :
    Created tree program.files program.driver ∧
      HandsOver tree program.files program.driver := by
  obtain ⟨base, hholds, hfolders, hget⟩ := writeProgram_eq_ok hsafe hwrite
  have hbase : ∀ p bytes, base.files.get? p = some bytes ↔
      ∃ f ∈ program.files, parts f.path = p ∧ Utf8.encode f.content = bytes := by
    intro p bytes
    refine ⟨hholds.content p bytes, ?_⟩
    rintro ⟨f, hf, rfl, rfl⟩
    obtain ⟨bytes, hbytes⟩ := Option.isSome_iff_exists.1 ((hholds.file_iff _).2 ⟨f, hf, rfl⟩)
    obtain ⟨g, hg, hpath, rfl⟩ := hholds.content _ _ hbytes
    rw [hbytes, h.contents f hf g hg (parts_injective hpath).symm]
  have hcreated : Created tree program.files program.driver := by
    intro p bytes
    rw [hget, hbase]
  refine ⟨hcreated, fun p => ?_⟩
  rw [mem_cppArguments]
  constructor
  · rintro ⟨hfile | hfolder, hcpp⟩
    · obtain ⟨bytes, hbytes⟩ := Option.isSome_iff_exists.1 hfile
      rcases (hcreated p bytes).1 hbytes with ⟨f, hf, rfl, -⟩ | ⟨d, hd, hp, -⟩
      · rw [any_isCppName_parts] at hcpp
        exact Or.inl ⟨f, hf, isHeader_of_isCppName hcpp, rfl⟩
      · exact Or.inr ⟨Option.isSome_iff_exists.2 ⟨d, hd⟩, hp⟩
    · rw [hfolders, hholds.folder_iff] at hfolder
      obtain ⟨f, hf, hd⟩ := hfolder
      rw [h.folders f hf p hd] at hcpp
      cases hcpp
  · rintro (⟨f, hf, hheader, rfl⟩ | ⟨hdriver, rfl⟩)
    · refine ⟨Or.inl (Option.isSome_iff_exists.2 ⟨_, (hcreated _ _).2 (Or.inl ⟨f, hf, rfl, rfl⟩)⟩),
        ?_⟩
      rw [any_isCppName_parts]
      exact h.sources f hf hheader
    · obtain ⟨d, hd⟩ := Option.isSome_iff_exists.1 hdriver
      refine ⟨Or.inl (Option.isSome_iff_exists.2 ⟨_, (hcreated _ _).2
        (Or.inr ⟨d, hd, rfl, rfl⟩)⟩), ?_⟩
      decide

end Program

/-- Of every accepted submission that passes the contract, the directory has
the accepted files and the compiler is handed those that are not headers,
exactly when the files agree. -/
theorem compiles_what_it_accepts_iff (localeLe : Name → Name → Bool)
    (archive : List Nat → Except String (List ZipEntry)) (bytes : List Nat)
    (declaredFilename : Name) (driver : Option (List Char)) (files : List SourceFile)
    (entry : Option Name) (dropped : List Name)
    (haccepted : sourceFilesOf localeLe archive bytes declaredFilename .cpp =
      .ok files entry dropped)
    (hcontract : (programOf files driver entry).passesContract = true) :
    (∀ f ∈ files, hasSourceExtension .cpp f.path = true) ∧
      ((∃ tree, writeProgram .cpp (programOf files driver entry) = .ok tree ∧
        Created tree files driver ∧ HandsOver tree files driver) ↔ Agree files) := by
  unfold ProgramSpec.passesContract at hcontract
  simp only [decide_eq_true_eq] at hcontract
  obtain ⟨-, -, hfiles, hdriver, -⟩ := hcontract
  have hsafe : ∀ f ∈ (programOf files driver entry).files, safePath f.path = true :=
    fun f hf => (hfiles f hf).1
  refine ⟨hasSourceExtension_of_sourceFilesOf haccepted, ?_, fun hagree => ?_⟩
  · rintro ⟨tree, hwrite, hcreated, hhands⟩
    exact agree_of_written hsafe hwrite hcreated hhands
  · obtain ⟨tree, hwrite⟩ := writeProgram_ok hsafe (fun f hf => (hfiles f hf).2) hdriver
      hagree.noFileIsFolder
    exact ⟨tree, hwrite, written_of_agree hsafe hwrite hagree⟩

/-- `int f();`, in bytes. -/
private def declaration : List Nat := [105, 110, 116, 32, 102, 40, 41, 59]

private theorem accepted_text : sourceFilesOf (fun _ _ => true) (fun _ => .ok []) declaration
    "Bai1.cpp".toList .cpp = .ok [⟨"main.cpp".toList, "int f();".toList⟩] none [] := by
  rfl

theorem one_text_file_compiles :
    (∀ f ∈ [(⟨"main.cpp".toList, "int f();".toList⟩ : SourceFile)],
      hasSourceExtension .cpp f.path = true) ∧
      ((∃ tree, writeProgram .cpp
          (programOf [⟨"main.cpp".toList, "int f();".toList⟩] none none) = .ok tree ∧
        Created tree [⟨"main.cpp".toList, "int f();".toList⟩] none ∧
        HandsOver tree [⟨"main.cpp".toList, "int f();".toList⟩] none) ↔
      Agree [⟨"main.cpp".toList, "int f();".toList⟩]) :=
  compiles_what_it_accepts_iff (fun _ _ => true) (fun _ => .ok []) declaration "Bai1.cpp".toList
    none _ none [] accepted_text (by decide)

/-- An archive with one source file, `main.cc`. -/
private def archiveWithCc : List Nat → Except String (List ZipEntry) := fun _ =>
  .ok [⟨⟨"main.cc".toList, 8, false, false⟩, .ok declaration⟩]

private theorem accepted_cc : sourceFilesOf (fun _ _ => true) archiveWithCc
    [0x50, 0x4b, 0x03, 0x04] "bai.zip".toList .cpp =
      .ok [⟨"main.cc".toList, "int f();".toList⟩] none [] := by
  have htext : textFiles [("main.cc".toList, declaration)] =
      [⟨"main.cc".toList, "int f();".toList⟩] := by rfl
  show filesOfArchive (fun _ _ => true) .cpp [("main.cc".toList, declaration)] [] = _
  unfold filesOfArchive
  rw [htext, List.mergeSort_singleton]
  rfl

/-- A submission of `main.cc` is accepted, and no file of it is handed to the
compiler. -/
theorem cc_is_left_out : ¬ ∀ (localeLe : Name → Name → Bool)
    (archive : List Nat → Except String (List ZipEntry)) (bytes : List Nat)
    (declaredFilename : Name) (driver : Option (List Char)) (files : List SourceFile)
    (entry : Option Name) (dropped : List Name),
    sourceFilesOf localeLe archive bytes declaredFilename .cpp = .ok files entry dropped →
    (programOf files driver entry).passesContract = true →
    ∃ tree, writeProgram .cpp (programOf files driver entry) = .ok tree ∧
      Created tree files driver ∧ HandsOver tree files driver := by
  intro h
  obtain ⟨tree, hwrite, hcreated, hhands⟩ :=
    h _ _ _ _ none _ _ _ accepted_cc (by decide)
  have hagree := agree_of_written (by decide) hwrite hcreated hhands
  have hcpp := hagree.sources ⟨"main.cc".toList, "int f();".toList⟩ (by decide) (by decide)
  revert hcpp
  decide

end Cine.Grading.Sandbox
