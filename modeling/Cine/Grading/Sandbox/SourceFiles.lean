import Cine.Lib.OrderedMap
import Cine.Lib.Transaction
import Cine.Lib.Utf16
import Cine.Lib.Utf8

/-!
# From the bytes of a submission to the files of a program

`sourceFilesOf` picks the source files out of a submission: one text file,
or the entries of an archive that `SOURCE_EXTENSIONS` accepts, with letter
case folded.  `programOf` makes a program of them, and `passesContract` is
the check of the sandbox contract on it.

A name is the list of its characters.  The zip reader is a library: what it
finds in the bytes is an argument, the entries with what their streams give.
Its errors carry the text that `refusalOf` gives them.

There are four groups.

* The extraction plan of `archive-rules.ts`.
* The reader of submissions.
* The contract.
* What is accepted has an extension of the table, under the path it is
  extracted to.
-/

namespace Cine.Grading.Sandbox

open Cine.Lib

inductive SandboxLanguage
  | cpp
  | python
  deriving DecidableEq

abbrev Name := List Char

/-! ## The extraction plan -/

structure ArchiveEntry where
  path : Name
  uncompressedSize : Nat
  isDirectory : Bool
  isSymlink : Bool

structure ExtractionLimits where
  maxEntries : Nat
  maxTotalBytes : Nat
  maxFileBytes : Nat

def sourceExtractionLimits : ExtractionLimits := ⟨500, 8 * 1024 * 1024, 1024 * 1024⟩

inductive EntryDecision
  | take (safePath : Name)
  | reject (reason : String) (oversized : Bool)

/-- `path.replace(/\\/g, '/')`. -/
def normalised (path : Name) : Name := path.map fun c => if c = '\\' then '/' else c

/-- `/^[A-Za-z]:\//`. -/
def hasDrive : Name → Bool
  | c :: ':' :: '/' :: _ => c.isAlpha
  | _ => false

/-- The parts of a path that `decideEntry` keeps. -/
def keptSegments (path : Name) : List Name :=
  ((normalised path).splitOn '/').filter fun s => s ≠ [] ∧ s ≠ ['.']

def joinPath (segments : List Name) : Name := ['/'].intercalate segments

def decideEntry (entry : ArchiveEntry) (limits : ExtractionLimits) : EntryDecision :=
  if entry.isSymlink then .reject "liên kết tượng trưng không được phép" false
  else if (normalised entry.path).head? = some '/' ∨ hasDrive (normalised entry.path) then
    .reject "đường dẫn tuyệt đối" false
  else if ['.', '.'] ∈ keptSegments entry.path then
    .reject "đường dẫn thoát ra ngoài thư mục đích" false
  else if keptSegments entry.path = [] then .reject "đường dẫn rỗng" false
  else if limits.maxFileBytes < entry.uncompressedSize then
    .reject s!"file vượt {limits.maxFileBytes} byte" true
  else .take (joinPath (keptSegments entry.path))

structure Rejected where
  path : Name
  reason : String
  oversized : Bool

structure ExtractionPlan where
  take : List (Name × Name)
  rejected : List Rejected
  refusal : Option String

/-- The loop of `planExtraction`. -/
def planFiles (limits : ExtractionLimits) :
    List ArchiveEntry → (total : Nat) → ExtractionPlan → ExtractionPlan
  | [], _, plan => plan
  | entry :: entries, total, plan =>
    match decideEntry entry limits with
    | .reject reason oversized =>
      planFiles limits entries total
        { plan with rejected := plan.rejected ++ [⟨entry.path, reason, oversized⟩] }
    | .take safePath =>
      if limits.maxTotalBytes < total + entry.uncompressedSize then
        ⟨[], [], some s!"tổng dung lượng sau giải nén vượt {limits.maxTotalBytes} byte"⟩
      else
        planFiles limits entries (total + entry.uncompressedSize)
          { plan with take := plan.take ++ [(entry.path, safePath)] }

def planExtraction (entries : List ArchiveEntry) (limits : ExtractionLimits) : ExtractionPlan :=
  let files := entries.filter fun e => !e.isDirectory
  if limits.maxEntries < files.length then
    ⟨[], [], some s!"số lượng file vượt {limits.maxEntries}"⟩
  else planFiles limits files 0 ⟨[], [], none⟩

/-! ## The reader of submissions -/

structure SourceFile where
  path : Name
  content : List Char
  deriving DecidableEq

inductive UngradableClass
  | submission
  | system

inductive SourceFiles
  | ok (files : List SourceFile) (entry : Option Name) (dropped : List Name)
  | ungradable (cls : UngradableClass) (reason : String)

def submission (reason : String) : SourceFiles := .ungradable .submission reason

/-- `SOURCE_EXTENSIONS`. -/
def sourceExtensions : SandboxLanguage → List Name
  | .cpp => [".cpp".toList, ".cc".toList, ".cxx".toList, ".h".toList, ".hpp".toList]
  | .python => [".py".toList]

/-- `name.slice(name.lastIndexOf('.'))`, where there is a dot. -/
def extension : Name → Option Name
  | [] => none
  | c :: name =>
    match extension name with
    | some ext => some ext
    | none => if c = '.' then some (c :: name) else none

/-- `toLowerCase`, on the letters of an extension: no other letter has one of
theirs as its lower case. -/
def lower (name : Name) : Name := name.map Char.toLower

def hasSourceExtension (language : SandboxLanguage) (name : Name) : Bool :=
  match extension name with
  | none => false
  | some ext => lower ext ∈ sourceExtensions language

/-- The entries of an archive that are read. -/
def wanted (language : SandboxLanguage) (name : Name) : Bool :=
  let segments := ((normalised name).splitOn '/').filter (· ≠ [])
  if segments.head? = some "__MACOSX".toList ∨ segments.any (fun s => s.head? = some '.') then false
  else hasSourceExtension language name

/-- UTF-8 without its byte order mark.  A file with a zero byte is no text. -/
def decode (bytes : List Nat) : Option (List Char) :=
  if 0 ∈ bytes then none
  else
    match Utf8.decode bytes with
    | '\uFEFF' :: text => some text
    | text => some text

inductive ArchiveFormat
  | zip
  | rar
  | unknown
  deriving DecidableEq

def zipMagics : List (List Nat) :=
  [[0x50, 0x4b, 0x03, 0x04], [0x50, 0x4b, 0x05, 0x06], [0x50, 0x4b, 0x07, 0x08]]

def rarMagic : List Nat := [0x52, 0x61, 0x72, 0x21, 0x1a, 0x07]

def detectArchiveFormat (buffer : List Nat) : ArchiveFormat :=
  if zipMagics.any fun magic => magic.isPrefixOf buffer then .zip
  else if rarMagic.isPrefixOf buffer then .rar
  else .unknown

/-- An entry of an archive, with the bytes or the error of its stream. -/
structure ZipEntry where
  entry : ArchiveEntry
  stream : Except String (List Nat)

/-- `name.slice(0, 80)`. -/
def short (name : Name) : String := sliceFront (String.ofList name) 80

/-- The rejected entries, up to the first that turns the archive away: the
entries that are left out. -/
def refuseRejected (language : SandboxLanguage) : List Rejected → Except String (List Name)
  | [] => .ok []
  | r :: rest =>
    if !r.oversized ∨ wanted language r.path then
      .error s!"file nén bị từ chối: \"{short r.path}\" — {r.reason}"
    else do return r.path :: (← refuseRejected language rest)

def readEntry (limits : ExtractionLimits) (path : Name) (stream : Except String (List Nat)) :
    Except String (List Nat) := do
  let bytes ← stream
  if limits.maxFileBytes < bytes.length then
    throw s!"file nén bị từ chối: \"{short path}\" vượt {limits.maxFileBytes} byte sau giải nén"
  return bytes

def readAll (limits : ExtractionLimits) (safeOf : OrderedMap Name Name) (chosen : List ZipEntry) :
    Except String (List (Name × List Nat)) :=
  chosen.mapM fun z => do
    let path := (safeOf.get? z.entry.path).getD z.entry.path
    return (path, ← readEntry limits path z.stream)

/-- The entries of the plan, and whether they are read. -/
def chosen (language : SandboxLanguage) (plan : ExtractionPlan) (all : List ZipEntry)
    (isWanted : Bool) : List ZipEntry :=
  all.filter fun z => !z.entry.isDirectory && (OrderedMap.ofList plan.take).has z.entry.path &&
    wanted language z.entry.path == isWanted

/-- `readZip`, where the plan is not refused: the files that were read, and the
entries that were left out. -/
def readPlanned (language : SandboxLanguage) (all : List ZipEntry) (plan : ExtractionPlan) :
    Except String (List (Name × List Nat) × List Name) := do
  let safeOf := OrderedMap.ofList plan.take
  let oversized ← refuseRejected language plan.rejected
  let read ← readAll sourceExtractionLimits safeOf (chosen language plan all true)
  let unwanted := (chosen language plan all false).map fun z =>
    (safeOf.get? z.entry.path).getD z.entry.path
  return (read, oversized ++ unwanted)

def readZip (language : SandboxLanguage) (all : List ZipEntry) :
    Except String (List (Name × List Nat) × List Name) :=
  let plan := planExtraction (all.map ZipEntry.entry) sourceExtractionLimits
  match plan.refusal with
  | some refusal => .error s!"file nén bị từ chối: {refusal}"
  | none => readPlanned language all plan

/-- The text files among the files that were read. -/
def textFiles (read : List (Name × List Nat)) : List SourceFile :=
  read.filterMap fun f => (decode f.2).map fun content => ⟨f.1, content⟩

def isMainPy (path : Name) : Bool :=
  path = "main.py".toList ∨ "/main.py".toList.isSuffixOf path

/-- The file that a Python program is started with. -/
def pythonEntry (files : List SourceFile) : Option Name :=
  match files.find? fun f => isMainPy f.path with
  | some main => some main.path
  | none =>
    match files with
    | [file] => some file.path
    | _ => none

section Reader

variable (localeLe : Name → Name → Bool)

/-- The result of an archive that could be read. -/
def filesOfArchive (language : SandboxLanguage) (read : List (Name × List Nat))
    (dropped : List Name) : SourceFiles :=
  let files := (textFiles read).mergeSort fun a b => localeLe a.path b.path
  let binary := (read.filter fun f => (decode f.2).isNone).map Prod.fst
  if files = [] then submission "bài nộp không có file mã nguồn nào"
  else
    match language with
    | .cpp => .ok files none (dropped ++ binary)
    | .python =>
      match pythonEntry files with
      | some entry => .ok files (some entry) (dropped ++ binary)
      | none =>
        submission "không xác định được file chạy — bài Python nhiều file cần main.py"

/-- `sourceFilesOf`.  `archive` is what the zip reader finds in the bytes. -/
def sourceFilesOf (archive : List Nat → Except String (List ZipEntry)) (bytes : List Nat)
    (declaredFilename : Name) (language : SandboxLanguage) : SourceFiles :=
  match detectArchiveFormat bytes with
  | .rar => submission "bài nộp dạng RAR — đường chấm điều tra chỉ đọc ZIP; chấm tay"
  | .unknown =>
    match decode bytes with
    | none => submission s!"bài nộp \"{short declaredFilename}\" không phải file văn bản"
    | some content =>
      match language with
      | .cpp => .ok [⟨"main.cpp".toList, content⟩] none []
      | .python => .ok [⟨"main.py".toList, content⟩] (some "main.py".toList) []
  | .zip =>
    match archive bytes >>= readZip language with
    | .error reason => submission reason
    | .ok (read, dropped) => filesOfArchive localeLe language read dropped

end Reader

/-! ## The contract -/

/-- `[A-Za-z0-9_]`. -/
def isWordChar (c : Char) : Bool := c.isAlphanum || c = '_'

/-- `[A-Za-z0-9_.-]`. -/
def isNameChar (c : Char) : Bool := isWordChar c || c = '.' || c = '-'

/-- `[A-Za-z0-9_][A-Za-z0-9_.-]*`. -/
def safeSegment : Name → Bool
  | [] => false
  | c :: s => isWordChar c && s.all isNameChar

/-- `safePath` of the contract. -/
def safePath (path : Name) : Bool :=
  path ≠ [] ∧ path.length ≤ 200 ∧ ¬ "__cine_".toList.isPrefixOf path ∧
    (path.splitOn '/').all safeSegment

def inlineMaxChars : Nat := 4 * 1024 * 1024

/-- An inline `fileRef` of the contract. -/
def inlineFits (content : List Char) : Bool :=
  (content.flatMap codeUnits).length ≤ inlineMaxChars

structure ProgramSpec where
  files : List SourceFile
  driver : Option (List Char)
  entry : Option Name

def programOf (files : List SourceFile) (driver : Option (List Char)) (entry : Option Name) :
    ProgramSpec := ⟨files, driver, entry⟩

/-- `programSpec` of the contract. -/
def ProgramSpec.passesContract (p : ProgramSpec) : Bool :=
  1 ≤ p.files.length ∧ p.files.length ≤ 200 ∧
    (∀ f ∈ p.files, safePath f.path ∧ inlineFits f.content) ∧
    (∀ driver ∈ p.driver, inlineFits driver) ∧ ∀ entry ∈ p.entry, safePath entry

/-! ## What is accepted has an extension of the table -/

variable {e name : Name} {sep : Char} {language : SandboxLanguage}

theorem suffix_of_append_sep {u v : Name} (hsep : sep ∉ e) (h : e <:+ u ++ sep :: v) : e <:+ v := by
  obtain ⟨t, ht⟩ := h
  rcases List.append_eq_append_iff.1 ht with ⟨w, -, he⟩ | ⟨w, -, hv⟩
  · rw [he] at hsep
    exact absurd (List.mem_append_right _ List.mem_cons_self) hsep
  · cases w with
    | nil =>
      rw [List.nil_append] at hv
      rw [← hv] at hsep
      exact absurd List.mem_cons_self hsep
    | cons c w =>
      rw [List.cons_append] at hv
      exact ⟨w, (List.cons.inj hv).2.symm⟩

theorem suffix_getLast_of_intercalate (hsep : sep ∉ e) {parts : List Name} {last : Name}
    (h : e <:+ [sep].intercalate (parts ++ [last])) : e <:+ last := by
  induction parts with
  | nil => rwa [List.nil_append, List.intercalate_singleton] at h
  | cons part parts ih =>
    obtain ⟨next, rest, hnext⟩ := List.exists_cons_of_ne_nil
      (List.append_ne_nil_of_right_ne_nil parts (List.cons_ne_nil last []))
    rw [List.cons_append, hnext, List.intercalate_cons_cons, List.append_assoc,
      List.singleton_append] at h
    rw [hnext] at ih
    exact ih (suffix_of_append_sep hsep h)

theorem suffix_intercalate (parts : List Name) (last : Name) :
    last <:+ [sep].intercalate (parts ++ [last]) := by
  induction parts with
  | nil => simp
  | cons part parts ih =>
    obtain ⟨next, rest, hnext⟩ := List.exists_cons_of_ne_nil
      (List.append_ne_nil_of_right_ne_nil parts (List.cons_ne_nil last []))
    rw [List.cons_append, hnext, List.intercalate_cons_cons, ← hnext]
    exact ih.trans (List.suffix_append _ _)

theorem extension_eq_none : extension name = none ↔ '.' ∉ name := by
  induction name with
  | nil => exact iff_of_true rfl List.not_mem_nil
  | cons c name ih =>
    rw [extension, List.mem_cons, not_or, ← ih]
    cases extension name with
    | some e => simp
    | none => simp [eq_comm]

theorem extension_eq_some : extension name = some e ↔ ∃ s, e = '.' :: s ∧ '.' ∉ s ∧ e <:+ name := by
  induction name with
  | nil =>
    refine iff_of_false (fun h => nomatch h) ?_
    rintro ⟨s, rfl, -, h⟩
    exact nomatch List.suffix_nil.1 h
  | cons c name ih =>
    have hdot : ∀ {s : Name}, '.' :: s <:+ name → '.' ∈ name := fun h =>
      h.subset List.mem_cons_self
    rw [extension]
    simp only [List.suffix_cons_iff]
    cases hname : extension name with
    | some e' =>
      rw [hname] at ih
      rw [ih]
      constructor
      · rintro ⟨s, he, hs, h⟩
        exact ⟨s, he, hs, Or.inr h⟩
      · rintro ⟨s, he, hs, h | h⟩
        · -- the name itself has a dot, so it is not what follows a last one
          rw [he] at h
          rw [(List.cons.inj h).2] at hs
          have hnone := extension_eq_none.2 hs
          rw [hname] at hnone
          cases hnone
        · exact ⟨s, he, hs, h⟩
    | none =>
      have hfree := extension_eq_none.1 hname
      by_cases hc : c = '.'
      · rw [if_pos hc, Option.some.injEq]
        constructor
        · rintro rfl
          exact ⟨name, by rw [hc], hfree, Or.inl rfl⟩
        · rintro ⟨s, he, -, h | h⟩
          · exact h.symm
          · exact absurd (hdot (he ▸ h)) hfree
      · rw [if_neg hc]
        refine iff_of_false (fun h => nomatch h) ?_
        rintro ⟨s, he, -, h | h⟩
        · rw [he] at h
          exact hc (List.cons.inj h).1.symm
        · exact hfree (hdot (he ▸ h))

theorem not_mem_of_lower {c : Char} (hc : c.toLower = c) (h : c ∉ lower e) : c ∉ e := by
  intro hmem
  exact h (hc ▸ List.mem_map_of_mem hmem)

theorem separators_not_mem (h : lower e ∈ sourceExtensions language) : '/' ∉ e ∧ '\\' ∉ e := by
  have hall : ∀ ext ∈ sourceExtensions language, '/' ∉ ext ∧ '\\' ∉ ext := by
    cases language <;> decide
  obtain ⟨hslash, hback⟩ := hall _ h
  exact ⟨not_mem_of_lower (by decide) hslash, not_mem_of_lower (by decide) hback⟩

theorem hasSourceExtension_joinPath (h : hasSourceExtension language name = true) :
    hasSourceExtension language (joinPath (keptSegments name)) = true := by
  unfold hasSourceExtension at h
  cases hext : extension name with
  | none =>
    rw [hext] at h
    cases h
  | some e =>
    rw [hext] at h
    have htable : lower e ∈ sourceExtensions language := of_decide_eq_true h
    obtain ⟨hslash, hback⟩ := separators_not_mem htable
    obtain ⟨s, he, hs, hsuffix⟩ := extension_eq_some.1 hext
    -- the extension ends the last part of the name
    have hnormal : e <:+ normalised name := by
      obtain ⟨t, rfl⟩ := hsuffix
      refine ⟨normalised t, ?_⟩
      unfold normalised
      rw [List.map_append]
      congr 1
      symm
      refine (List.map_congr_left fun c hc => if_neg ?_).trans (List.map_id e)
      rintro rfl
      exact hback hc
    obtain ⟨parts, last, hparts⟩ : ∃ parts last, (normalised name).splitOn '/' = parts ++ [last] :=
      ⟨_, _, (List.dropLast_append_getLast (List.splitOn_ne_nil _ _)).symm⟩
    have hlast : e <:+ last := by
      have hwhole : e <:+ ['/'].intercalate (parts ++ [last]) := by
        rw [← hparts, List.intercalate_splitOn]
        exact hnormal
      exact suffix_getLast_of_intercalate hslash hwhole
    -- which is kept
    have hkeep : last ≠ [] ∧ last ≠ ['.'] := by
      constructor
      · rintro rfl
        rw [List.suffix_nil.1 hlast] at he
        cases he
      · rintro rfl
        have hdot : lower e = ['.'] := by
          have hlength := hlast.length_le
          rw [he] at hlength ⊢
          cases s with
          | nil => rfl
          | cons c s => simp at hlength
        rw [hdot] at htable
        revert htable
        cases language <;> decide
    have hkept : keptSegments name = (parts.filter fun s => s ≠ [] ∧ s ≠ ['.']) ++ [last] := by
      unfold keptSegments
      rw [hparts, List.filter_append]
      simp [hkeep]
    have hext' : extension (joinPath (keptSegments name)) = some e := by
      refine extension_eq_some.2 ⟨s, he, hs, ?_⟩
      rw [hkept]
      exact hlast.trans (suffix_intercalate _ _)
    unfold hasSourceExtension
    rw [hext']
    exact h

theorem take_planFiles {limits : ExtractionLimits} {entries : List ArchiveEntry} {total : Nat}
    {plan : ExtractionPlan} (h : ∀ t ∈ plan.take, t.2 = joinPath (keptSegments t.1)) :
    ∀ t ∈ (planFiles limits entries total plan).take, t.2 = joinPath (keptSegments t.1) := by
  induction entries generalizing total plan with
  | nil => exact h
  | cons entry entries ih =>
    rw [planFiles]
    cases hdecide : decideEntry entry limits with
    | reject reason oversized => exact ih h
    | take safePath =>
      dsimp only
      split_ifs with htotal
      · exact fun t ht => nomatch ht
      · refine ih fun t ht => ?_
        rcases List.mem_append.1 ht with ht | ht
        · exact h t ht
        · rw [List.mem_singleton.1 ht]
          unfold decideEntry at hdecide
          split_ifs at hdecide
          exact (EntryDecision.take.inj hdecide).symm

theorem take_planExtraction {entries : List ArchiveEntry} {limits : ExtractionLimits} :
    ∀ t ∈ (planExtraction entries limits).take, t.2 = joinPath (keptSegments t.1) := by
  unfold planExtraction
  dsimp only
  split_ifs with hmany
  · exact fun t ht => nomatch ht
  · exact take_planFiles fun t ht => nomatch ht

theorem hasSourceExtension_of_wanted (h : wanted language name = true) :
    hasSourceExtension language name = true := by
  unfold wanted at h
  dsimp only at h
  split_ifs at h
  exact h

theorem hasSourceExtension_of_readZip {all : List ZipEntry} {read : List (Name × List Nat)}
    {dropped : List Name} (h : readZip language all = .ok (read, dropped)) :
    ∀ r ∈ read, hasSourceExtension language r.1 = true := by
  unfold readZip at h
  dsimp only at h
  split at h
  · cases h
  · obtain ⟨oversized, -, h⟩ := bind_eq_ok.1 h
    obtain ⟨read', hread, h⟩ := bind_eq_ok.1 h
    cases h
    intro r hr
    obtain ⟨z, hz, hr⟩ := exists_of_mapM hread hr
    obtain ⟨bytes, -, hr⟩ := bind_eq_ok.1 hr
    cases hr
    unfold chosen at hz
    simp only [List.mem_filter, Bool.and_eq_true, beq_iff_eq] at hz
    obtain ⟨-, ⟨-, hhas⟩, hwanted⟩ := hz
    obtain ⟨safePath, hsafe⟩ := Option.isSome_iff_exists.1 hhas
    have hkept : safePath = joinPath (keptSegments z.entry.path) :=
      take_planExtraction _ (OrderedMap.mem_of_get?_ofList hsafe)
    show hasSourceExtension language (((OrderedMap.ofList _).get? z.entry.path).getD _) = true
    rw [hsafe, Option.getD_some, hkept]
    exact hasSourceExtension_joinPath (hasSourceExtension_of_wanted hwanted)

theorem hasSourceExtension_of_sourceFilesOf {localeLe : Name → Name → Bool}
    {archive : List Nat → Except String (List ZipEntry)} {bytes : List Nat}
    {declaredFilename : Name} {files : List SourceFile} {entry : Option Name} {dropped : List Name}
    (h : sourceFilesOf localeLe archive bytes declaredFilename language =
      .ok files entry dropped) : ∀ f ∈ files, hasSourceExtension language f.path = true := by
  unfold sourceFilesOf at h
  split at h
  · cases h
  · split at h
    · cases h
    · cases language <;> cases h <;> intro f hf <;> rw [List.mem_singleton.1 hf]
      · show hasSourceExtension .cpp "main.cpp".toList = true
        decide
      · show hasSourceExtension .python "main.py".toList = true
        decide
  · split at h
    · cases h
    · rename_i read dropped' hread
      obtain ⟨all, -, hread⟩ := bind_eq_ok.1 hread
      have hall := hasSourceExtension_of_readZip hread
      have hfiles : files = (textFiles read).mergeSort fun a b => localeLe a.path b.path := by
        unfold filesOfArchive at h
        dsimp only at h
        split_ifs at h
        · cases h
        · cases language with
          | cpp =>
            cases h
            rfl
          | python =>
            dsimp only at h
            split at h <;> cases h
            rfl
      intro f hf
      rw [hfiles, List.mem_mergeSort] at hf
      obtain ⟨r, hr, hf⟩ := List.mem_filterMap.1 hf
      obtain ⟨content, -, rfl⟩ := Option.map_eq_some_iff.1 hf
      exact hall r hr

end Cine.Grading.Sandbox
