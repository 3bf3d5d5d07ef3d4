import Cine.Grading.Sandbox.SourceFiles
import Cine.Lib.NodePath
import Mathlib.Algebra.Order.BigOperators.Group.List
import Mathlib.Algebra.Order.Group.Nat

/-!
# What becomes of the entries of an archive

`sourceFilesOf` on a ZIP archive that it does not refuse: which entries are
files of the program, and which are listed as dropped.

* `AccountsFor` says what the result should be: distinct relative paths, the
  limits, every entry in exactly one of the two lists, and no source text among
  the dropped ones.
* `planExtraction_spec` and `readZip_spec` say what the plan and the reader make
  of an archive that they do not refuse, and `Accepted` what comes of it: every
  entry is taken, or it is too large and no source.
* `accountsFor_iff`: the result is right exactly when no two sources have one
  path, no entry that is too large has the name of one that is not, and no
  source has a `.` among the segments of its name.

The marks of an entry are arguments.  An entry's bytes have the size that its
header gives.
-/

namespace Cine.Grading.Sandbox

open Cine.Lib

/-! ## What the result is for -/

def fileEntries (all : List ZipEntry) : List ZipEntry :=
  all.filter fun z => !z.entry.isDirectory

/-- The path that the name of an entry stands for. -/
def ZipEntry.safePath (z : ZipEntry) : Name := joinPath (keptSegments z.entry.path)

def ZipEntry.file? (z : ZipEntry) : Option SourceFile :=
  match z.stream with
  | .ok bytes => (decode bytes).map fun content => ⟨z.safePath, content⟩
  | .error _ => none

def ZipEntry.size (z : ZipEntry) : Nat :=
  match z.stream with
  | .ok bytes => bytes.length
  | .error _ => 0

/-- A path that is relative and has neither `.` nor `..` nor an empty
segment. -/
structure CleanPath (path : Name) : Prop where
  drive : hasDrive path = false
  segments : ∀ segment ∈ path.splitOn '/',
    segment ≠ [] ∧ segment ≠ ['.'] ∧ segment ≠ ['.', '.']

structure WithinLimits (limits : ExtractionLimits) (kept : List ZipEntry) : Prop where
  count : kept.length ≤ limits.maxEntries
  each : ∀ z ∈ kept, z.size ≤ limits.maxFileBytes
  total : (kept.map ZipEntry.size).sum ≤ limits.maxTotalBytes

/-- A text with a source extension, in no hidden folder and in none of
`__MACOSX`. -/
structure IsSourceText (language : SandboxLanguage) (z : ZipEntry) : Prop where
  source : hasSourceExtension language z.entry.path = true
  text : z.file?.isSome
  visible : ∀ segment ∈ keptSegments z.entry.path,
    segment.head? ≠ some '.' ∧ segment ≠ "__MACOSX".toList

/-- The name under which an entry is listed as dropped. -/
def NamedBy (z : ZipEntry) (name : Name) : Prop :=
  name = z.entry.path ∨ name = z.safePath

/-- `kept` are the entries of the files, and `rest` those of the dropped
names. -/
structure Accounted (language : SandboxLanguage) (all : List ZipEntry) (files : List SourceFile)
    (dropped : List Name) (kept rest : List ZipEntry) : Prop where
  every : (kept ++ rest).Perm (fileEntries all)
  files : (kept.map ZipEntry.file?).Perm (files.map some)
  dropped : List.Forall₂ NamedBy rest dropped
  limits : WithinLimits sourceExtractionLimits kept
  sources : ∀ z ∈ rest, ¬ IsSourceText language z

structure AccountsFor (language : SandboxLanguage) (all : List ZipEntry) (files : List SourceFile)
    (dropped : List Name) : Prop where
  distinct : (files.map SourceFile.path).Nodup
  clean : ∀ f ∈ files, CleanPath f.path
  accounted : ∃ kept rest, Accounted language all files dropped kept rest

def sourceTexts (language : SandboxLanguage) (all : List ZipEntry) : List ZipEntry :=
  (fileEntries all).filter fun z => wanted language z.entry.path && z.file?.isSome

/-- Where the rules about an entry agree. -/
structure NoClash (language : SandboxLanguage) (all : List ZipEntry) : Prop where
  paths : ((sourceTexts language all).map ZipEntry.safePath).Nodup
  sizes : ∀ z ∈ fileEntries all, ∀ z' ∈ fileEntries all,
    sourceExtractionLimits.maxFileBytes < z.entry.uncompressedSize →
      z'.entry.uncompressedSize ≤ sourceExtractionLimits.maxFileBytes →
        z.entry.path ≠ z'.entry.path
  dots : ∀ z ∈ fileEntries all, IsSourceText language z →
    ['.'] ∉ (normalised z.entry.path).splitOn '/'

/-- The size that an entry's header gives is that of its bytes. -/
def Faithful (all : List ZipEntry) : Prop :=
  ∀ z ∈ all, ∀ bytes, z.stream = .ok bytes → bytes.length = z.entry.uncompressedSize

/-! ## The plan -/

/-- Whether an entry is taken. -/
def isTaken (limits : ExtractionLimits) (entry : ArchiveEntry) : Bool :=
  match decideEntry entry limits with
  | .take _ => true
  | .reject _ _ => false

def rejected? (limits : ExtractionLimits) (entry : ArchiveEntry) : Option Rejected :=
  match decideEntry entry limits with
  | .take _ => none
  | .reject reason oversized => some ⟨entry.path, reason, oversized⟩

section Plan

variable {limits : ExtractionLimits}

theorem decideEntry_take {entry : ArchiveEntry} {path : Name}
    (h : decideEntry entry limits = .take path) :
    path = joinPath (keptSegments entry.path) ∧ entry.uncompressedSize ≤ limits.maxFileBytes ∧
      (normalised entry.path).head? ≠ some '/' ∧ hasDrive (normalised entry.path) = false ∧
      ['.', '.'] ∉ keptSegments entry.path ∧ keptSegments entry.path ≠ [] := by
  unfold decideEntry at h
  split_ifs at h with hlink habsolute hparent hempty hlarge
  rw [not_or] at habsolute
  exact ⟨(EntryDecision.take.inj h).symm, Nat.not_lt.1 hlarge, habsolute.1,
    Bool.eq_false_iff.2 habsolute.2, hparent, hempty⟩

theorem decideEntry_oversized {entry : ArchiveEntry} {reason : String}
    (h : decideEntry entry limits = .reject reason true) :
    limits.maxFileBytes < entry.uncompressedSize := by
  unfold decideEntry at h
  split_ifs at h with hlink habsolute hparent hempty hlarge
  · cases h
  · cases h
  · cases h
  · cases h
  · exact hlarge

theorem planFiles_spec {entries : List ArchiveEntry} {total : Nat} {plan : ExtractionPlan}
    (h : (planFiles limits entries total plan).refusal = none) :
    (planFiles limits entries total plan).take = plan.take ++
        (entries.filter (isTaken limits)).map
          (fun entry => (entry.path, joinPath (keptSegments entry.path))) ∧
      (planFiles limits entries total plan).rejected =
        plan.rejected ++ entries.filterMap (rejected? limits) ∧
      (total ≤ limits.maxTotalBytes → total + ((entries.filter (isTaken limits)).map
        ArchiveEntry.uncompressedSize).sum ≤ limits.maxTotalBytes) := by
  induction entries generalizing total plan with
  | nil =>
    simp [planFiles]
  | cons entry entries ih =>
    rw [planFiles] at h ⊢
    cases hdecide : decideEntry entry limits with
    | reject reason oversized =>
      rw [hdecide] at h
      have htaken : isTaken limits entry = false := by
        unfold isTaken
        rw [hdecide]
      have hrejected : rejected? limits entry = some ⟨entry.path, reason, oversized⟩ := by
        unfold rejected?
        rw [hdecide]
      obtain ⟨htake, hrej, htotal⟩ := ih h
      dsimp only
      rw [List.filter_cons_of_neg (by rw [htaken]; exact Bool.false_ne_true),
        List.filterMap_cons_some hrejected]
      refine ⟨htake, ?_, htotal⟩
      rw [hrej, List.append_assoc, List.singleton_append]
    | take path =>
      rw [hdecide] at h
      dsimp only at h ⊢
      split_ifs at h ⊢ with hlarge
      have htaken : isTaken limits entry = true := by
        unfold isTaken
        rw [hdecide]
      have hrejected : rejected? limits entry = none := by
        unfold rejected?
        rw [hdecide]
      obtain ⟨htake, hrej, htotal⟩ := ih h
      rw [List.filter_cons_of_pos htaken, List.filterMap_cons_none hrejected, List.map_cons,
        List.map_cons, List.sum_cons, ← (decideEntry_take hdecide).1]
      refine ⟨?_, hrej, ?_⟩
      · rw [htake, List.append_assoc, List.singleton_append]
      · intro _
        have hsum := htotal (by omega)
        omega

end Plan

/-! ## What is read -/

/-- An entry that is taken has this name. -/
def nameTaken (all : List ZipEntry) (name : Name) : Bool :=
  (fileEntries all).any fun z => isTaken sourceExtractionLimits z.entry && z.entry.path = name

variable {all : List ZipEntry} {z : ZipEntry} {language : SandboxLanguage} {name : Name}

theorem nameTaken_of_isTaken (hz : z ∈ fileEntries all)
    (h : isTaken sourceExtractionLimits z.entry = true) : nameTaken all z.entry.path = true :=
  List.any_eq_true.2 ⟨z, hz, by simp [h]⟩

/-- What the reader makes of an archive that it accepts. -/
structure ReadSpec (language : SandboxLanguage) (all : List ZipEntry)
    (read : List (Name × List Nat)) (dropped : List Name) : Prop where
  count : (fileEntries all).length ≤ sourceExtractionLimits.maxEntries
  total : (((fileEntries all).filter fun z => isTaken sourceExtractionLimits z.entry).map
    fun z => z.entry.uncompressedSize).sum ≤ sourceExtractionLimits.maxTotalBytes
  decided : ∀ z ∈ fileEntries all, isTaken sourceExtractionLimits z.entry = false →
    sourceExtractionLimits.maxFileBytes < z.entry.uncompressedSize ∧
      wanted language z.entry.path = false
  read : List.Forall₂ (fun z r => r.1 = z.safePath ∧ z.stream = .ok r.2)
    ((fileEntries all).filter fun z => wanted language z.entry.path) read
  dropped : dropped =
    ((fileEntries all).filter fun z => !isTaken sourceExtractionLimits z.entry).map
        (fun z => z.entry.path) ++
      ((fileEntries all).filter fun z =>
        nameTaken all z.entry.path && !wanted language z.entry.path).map ZipEntry.safePath

theorem refuseRejected_spec {rejected : List Rejected} {names : List Name}
    (h : refuseRejected language rejected = .ok names) :
    (∀ r ∈ rejected, r.oversized = true ∧ wanted language r.path = false) ∧
      names = rejected.map Rejected.path := by
  induction rejected generalizing names with
  | nil =>
    cases h
    exact ⟨nofun, rfl⟩
  | cons r rejected ih =>
    rw [refuseRejected] at h
    split_ifs at h with hrefuse
    rw [not_or] at hrefuse
    obtain ⟨rest, hrest, h⟩ := bind_eq_ok.1 h
    cases h
    obtain ⟨hall, hnames⟩ := ih hrest
    constructor
    · intro r' hr'
      rcases List.mem_cons.1 hr' with rfl | hmem
      · exact ⟨by simpa using hrefuse.1, by simpa using hrefuse.2⟩
      · exact hall r' hmem
    · rw [hnames, List.map_cons]

theorem map_path_rejected (limits : ExtractionLimits) (entries : List ArchiveEntry) :
    (entries.filterMap (rejected? limits)).map Rejected.path =
      (entries.filter fun entry => !isTaken limits entry).map ArchiveEntry.path := by
  induction entries with
  | nil => rfl
  | cons entry entries ih =>
    cases hdecide : decideEntry entry limits with
    | take path =>
      have htaken : isTaken limits entry = true := by rw [isTaken, hdecide]
      have hrejected : rejected? limits entry = none := by rw [rejected?, hdecide]
      rw [List.filterMap_cons_none hrejected, List.filter_cons_of_neg (by simp [htaken]), ih]
    | reject reason oversized =>
      have htaken : isTaken limits entry = false := by rw [isTaken, hdecide]
      have hrejected : rejected? limits entry = some ⟨entry.path, reason, oversized⟩ := by
        rw [rejected?, hdecide]
      rw [List.filterMap_cons_some hrejected, List.filter_cons_of_pos (by simp [htaken]),
        List.map_cons, List.map_cons, ih]

section Reader

variable {language : SandboxLanguage} {all : List ZipEntry}

theorem filter_entries (all : List ZipEntry) :
    (all.map ZipEntry.entry).filter (fun e => !e.isDirectory) =
      (fileEntries all).map ZipEntry.entry :=
  List.filter_map

theorem planExtraction_spec
    (h : (planExtraction (all.map ZipEntry.entry) sourceExtractionLimits).refusal = none) :
    (fileEntries all).length ≤ sourceExtractionLimits.maxEntries ∧
      (planExtraction (all.map ZipEntry.entry) sourceExtractionLimits).take =
        ((fileEntries all).filter fun z => isTaken sourceExtractionLimits z.entry).map
          (fun z => (z.entry.path, z.safePath)) ∧
      (planExtraction (all.map ZipEntry.entry) sourceExtractionLimits).rejected =
        ((fileEntries all).map ZipEntry.entry).filterMap (rejected? sourceExtractionLimits) ∧
      (((fileEntries all).filter fun z => isTaken sourceExtractionLimits z.entry).map
        fun z => z.entry.uncompressedSize).sum ≤ sourceExtractionLimits.maxTotalBytes := by
  unfold planExtraction at h ⊢
  dsimp only at h ⊢
  rw [filter_entries] at h ⊢
  split_ifs at h ⊢ with hmany
  obtain ⟨htake, hrejected, htotal⟩ := planFiles_spec h
  refine ⟨?_, ?_, ?_, ?_⟩
  · rw [List.length_map] at hmany
    omega
  · rw [htake, List.nil_append, List.filter_map, List.map_map]
    rfl
  · rw [hrejected, List.nil_append]
  · have hsum := htotal (Nat.zero_le _)
    rw [Nat.zero_add, List.filter_map, List.map_map] at hsum
    exact hsum

theorem get?_safeOf (h : (planExtraction (all.map ZipEntry.entry)
    sourceExtractionLimits).refusal = none) (name : Name) :
    (OrderedMap.ofList (planExtraction (all.map ZipEntry.entry)
        sourceExtractionLimits).take).get? name =
      if nameTaken all name then some (joinPath (keptSegments name)) else none := by
  have htake := (planExtraction_spec h).2.1
  have hiff : nameTaken all name = true ↔ name ∈ (planExtraction (all.map ZipEntry.entry)
      sourceExtractionLimits).take.map Prod.fst := by
    rw [htake, List.map_map]
    unfold nameTaken
    simp only [List.any_eq_true, Bool.and_eq_true, decide_eq_true_eq, List.mem_map,
      List.mem_filter, Function.comp_apply, and_assoc]
  by_cases hname : nameTaken all name = true
  · rw [if_pos hname]
    have hsome := OrderedMap.get?_ofList_isSome.2 (hiff.1 hname)
    obtain ⟨path, hpath⟩ := Option.isSome_iff_exists.1 hsome
    have heq := take_planExtraction _ (OrderedMap.mem_of_get?_ofList hpath)
    dsimp only at heq
    rw [hpath, heq]
  · rw [if_neg hname, OrderedMap.get?_ofList_eq_none.2 fun hmem => hname (hiff.2 hmem)]

/-- The reader of an archive that it accepts. -/
theorem readZip_spec {read : List (Name × List Nat)} {dropped : List Name}
    (h : readZip language all = .ok (read, dropped)) : ReadSpec language all read dropped := by
  unfold readZip at h
  dsimp only at h
  split at h
  · cases h
  · rename_i hplan
    obtain ⟨hcount, htake, hrejected, htotal⟩ := planExtraction_spec hplan
    have hsafe := get?_safeOf hplan
    obtain ⟨oversized, hoversized, h⟩ := bind_eq_ok.1 h
    obtain ⟨read', hread, h⟩ := bind_eq_ok.1 h
    cases h
    obtain ⟨hall, hnames⟩ := refuseRejected_spec hoversized
    have hdecided : ∀ z ∈ fileEntries all, isTaken sourceExtractionLimits z.entry = false →
        sourceExtractionLimits.maxFileBytes < z.entry.uncompressedSize ∧
          wanted language z.entry.path = false := by
      intro z hz htaken
      cases hdecide : decideEntry z.entry sourceExtractionLimits with
      | take path =>
        rw [isTaken, hdecide] at htaken
        cases htaken
      | reject reason large =>
        have hmem : (⟨z.entry.path, reason, large⟩ : Rejected) ∈ (planExtraction
            (all.map ZipEntry.entry) sourceExtractionLimits).rejected := by
          rw [hrejected, List.mem_filterMap]
          exact ⟨z.entry, List.mem_map_of_mem hz, by rw [rejected?, hdecide]⟩
        obtain ⟨hlarge, hunwanted⟩ := hall _ hmem
        dsimp only at hlarge
        rw [hlarge] at hdecide
        exact ⟨decideEntry_oversized hdecide, hunwanted⟩
    have hhas : ∀ z ∈ fileEntries all, wanted language z.entry.path = true →
        nameTaken all z.entry.path = true := by
      intro z hz hwanted
      by_cases htaken : isTaken sourceExtractionLimits z.entry = true
      · exact nameTaken_of_isTaken hz htaken
      · have hunwanted := (hdecided z hz (Bool.not_eq_true _ ▸ htaken)).2
        rw [hwanted] at hunwanted
        cases hunwanted
    have hchosen : ∀ b, chosen language (planExtraction (all.map ZipEntry.entry)
        sourceExtractionLimits) all b = (fileEntries all).filter fun z =>
          nameTaken all z.entry.path && wanted language z.entry.path == b := by
      intro b
      unfold chosen fileEntries
      rw [List.filter_filter]
      apply List.filter_congr
      intro z _
      unfold OrderedMap.has
      rw [hsafe]
      cases nameTaken all z.entry.path <;> simp [Bool.and_comm]
    have hpath : ∀ z : ZipEntry, nameTaken all z.entry.path = true →
        ((OrderedMap.ofList (planExtraction (all.map ZipEntry.entry)
          sourceExtractionLimits).take).get? z.entry.path).getD z.entry.path = z.safePath := by
      intro z hz
      rw [hsafe, if_pos hz]
      rfl
    have hwantedOnly : chosen language (planExtraction (all.map ZipEntry.entry)
        sourceExtractionLimits) all true =
          (fileEntries all).filter fun z => wanted language z.entry.path := by
      rw [hchosen]
      apply List.filter_congr
      intro z hz
      cases hwanted : wanted language z.entry.path with
      | false => simp
      | true => simp [hhas z hz hwanted]
    refine ⟨hcount, htotal, hdecided, ?_, ?_⟩
    · rw [← hwantedOnly]
      have hname : ∀ z ∈ chosen language (planExtraction (all.map ZipEntry.entry)
          sourceExtractionLimits) all true, nameTaken all z.entry.path = true := by
        intro z hz
        rw [hwantedOnly] at hz
        obtain ⟨hmem, hwanted⟩ := List.mem_filter.1 hz
        exact hhas z hmem hwanted
      have hboth := (List.forall₂_and_left _ _).2 ⟨hname, forall₂_of_mapM hread⟩
      apply hboth.imp
      rintro z r ⟨hz, hr⟩
      obtain ⟨bytes, hbytes, hr⟩ := bind_eq_ok.1 hr
      cases hr
      unfold readEntry at hbytes
      obtain ⟨stream, hstream, hbytes⟩ := bind_eq_ok.1 hbytes
      split_ifs at hbytes with hlarge
      · cases hbytes
      · cases hbytes
        exact ⟨hpath z hz, hstream⟩
    · have hunwanted : (fileEntries all).filter (fun z =>
          nameTaken all z.entry.path && wanted language z.entry.path == false) =
          (fileEntries all).filter fun z =>
            nameTaken all z.entry.path && !wanted language z.entry.path :=
        List.filter_congr fun z _ => by cases wanted language z.entry.path <;> rfl
      rw [hnames, hrejected, map_path_rejected, hchosen, hunwanted, List.filter_map,
        List.map_map]
      congr 1
      apply List.map_congr_left
      intro z hz
      obtain ⟨-, hz⟩ := List.mem_filter.1 hz
      exact hpath z (Bool.and_eq_true_iff.1 hz).1

theorem textFiles_read {entries : List ZipEntry} {read : List (Name × List Nat)}
    (h : List.Forall₂ (fun z r => r.1 = z.safePath ∧ z.stream = .ok r.2) entries read) :
    textFiles read = entries.filterMap ZipEntry.file? ∧
      (read.filter fun f => (decode f.2).isNone).map Prod.fst =
        (entries.filter fun z => !z.file?.isSome).map ZipEntry.safePath := by
  induction h with
  | nil => exact ⟨rfl, rfl⟩
  | @cons z r entries read hr _ ih =>
    obtain ⟨hpath, hstream⟩ := hr
    obtain ⟨htexts, hothers⟩ := ih
    have hfile : z.file? = (decode r.2).map fun content => ⟨r.1, content⟩ := by
      unfold ZipEntry.file?
      rw [hstream, hpath]
    unfold textFiles at htexts ⊢
    cases hdecode : decode r.2 with
    | none =>
      rw [hdecode] at hfile
      simp [hfile, hdecode, htexts, hothers, hpath]
    | some content =>
      rw [hdecode] at hfile
      simp [hfile, hdecode, htexts, hothers]

end Reader

/-! ## What is accepted -/

/-- Too large, and no source. -/
def tooLarge (all : List ZipEntry) : List ZipEntry :=
  (fileEntries all).filter fun z => !isTaken sourceExtractionLimits z.entry

/-- What the reader lists as dropped because it is no source. -/
def unread (language : SandboxLanguage) (all : List ZipEntry) : List ZipEntry :=
  (fileEntries all).filter fun z => nameTaken all z.entry.path && !wanted language z.entry.path

/-- What is taken and no source. -/
def others (language : SandboxLanguage) (all : List ZipEntry) : List ZipEntry :=
  (fileEntries all).filter fun z =>
    isTaken sourceExtractionLimits z.entry && !wanted language z.entry.path

/-- The sources that are no texts. -/
def binaries (language : SandboxLanguage) (all : List ZipEntry) : List ZipEntry :=
  (fileEntries all).filter fun z => wanted language z.entry.path && !z.file?.isSome

/-- What an archive is that `sourceFilesOf` does not refuse. -/
structure Accepted (language : SandboxLanguage) (all : List ZipEntry) (files : List SourceFile)
    (dropped : List Name) : Prop where
  count : (fileEntries all).length ≤ sourceExtractionLimits.maxEntries
  total : (((fileEntries all).filter fun z => isTaken sourceExtractionLimits z.entry).map
    fun z => z.entry.uncompressedSize).sum ≤ sourceExtractionLimits.maxTotalBytes
  decided : ∀ z ∈ fileEntries all, isTaken sourceExtractionLimits z.entry = false →
    sourceExtractionLimits.maxFileBytes < z.entry.uncompressedSize ∧
      wanted language z.entry.path = false
  files : files.Perm ((sourceTexts language all).filterMap ZipEntry.file?)
  dropped : dropped = (tooLarge all).map (fun z => z.entry.path) ++
    (unread language all).map ZipEntry.safePath ++ (binaries language all).map ZipEntry.safePath

theorem accepted_of_sourceFilesOf {localeLe : Name → Name → Bool}
    {archive : List Nat → Except String (List ZipEntry)} {bytes : List Nat}
    {declaredFilename : Name} {files : List SourceFile} {entry : Option Name} {dropped : List Name}
    (hzip : detectArchiveFormat bytes = .zip) (hall : archive bytes = .ok all)
    (h : sourceFilesOf localeLe archive bytes declaredFilename language =
      .ok files entry dropped) : Accepted language all files dropped := by
  unfold sourceFilesOf at h
  rw [hzip] at h
  dsimp only at h
  rw [hall] at h
  split at h
  · cases h
  · rename_i read dropped' hread
    have hspec := readZip_spec hread
    obtain ⟨htexts, hbinary⟩ := textFiles_read hspec.read
    have hresult : files = (textFiles read).mergeSort (fun a b => localeLe a.path b.path) ∧
        dropped = dropped' ++ (read.filter fun f => (decode f.2).isNone).map Prod.fst := by
      unfold filesOfArchive at h
      dsimp only at h
      split_ifs at h
      · cases h
      · cases language with
        | cpp =>
          cases h
          exact ⟨rfl, rfl⟩
        | python =>
          dsimp only at h
          split at h <;> cases h
          exact ⟨rfl, rfl⟩
    have hsources : ((fileEntries all).filter fun z =>
        wanted language z.entry.path).filterMap ZipEntry.file? =
          (sourceTexts language all).filterMap ZipEntry.file? := by
      unfold sourceTexts
      rw [List.filterMap_filter, List.filterMap_filter]
      apply List.filterMap_congr
      intro z _
      cases wanted language z.entry.path <;> cases z.file? <;> rfl
    refine ⟨hspec.count, hspec.total, hspec.decided, ?_, ?_⟩
    · rw [hresult.1, ← hsources, ← htexts]
      exact List.mergeSort_perm _ _
    · rw [hresult.2, hspec.dropped, hbinary, List.filter_filter]
      unfold tooLarge unread binaries
      congr 2
      apply List.filter_congr
      intro z _
      exact Bool.and_comm _ _

/-! ## The paths of what is taken -/

theorem splitOn_joinPath (h : keptSegments name ≠ []) :
    (joinPath (keptSegments name)).splitOn '/' = keptSegments name := by
  unfold joinPath
  apply List.splitOn_intercalate
  · intro segment hsegment
    exact NodePath.notMem_of_mem_splitOn (List.mem_of_mem_filter hsegment)
  · exact h

theorem keptSegments_spec {segment : Name} (h : segment ∈ keptSegments name) :
    segment ≠ [] ∧ segment ≠ ['.'] := by
  obtain ⟨-, hkept⟩ := List.mem_filter.1 h
  exact of_decide_eq_true hkept

theorem keptSegments_of_joinPath {name' : Name}
    (h : joinPath (keptSegments name) = joinPath (keptSegments name')) :
    keptSegments name = keptSegments name' := by
  have hall : ∀ n : Name, ((joinPath (keptSegments n)).splitOn '/').filter (· ≠ []) =
      keptSegments n := by
    intro n
    by_cases hempty : keptSegments n = []
    · rw [hempty]
      rfl
    · rw [splitOn_joinPath hempty, List.filter_eq_self]
      intro segment hsegment
      simpa using (keptSegments_spec hsegment).1
  rw [← hall name, h, hall]

theorem dot_notMem_of_wanted (h : wanted language name = true) :
    ['.'] ∉ (normalised name).splitOn '/' := by
  intro hdot
  unfold wanted at h
  dsimp only at h
  rw [if_pos] at h
  · cases h
  · right
    rw [List.any_eq_true]
    exact ⟨['.'], List.mem_filter.2 ⟨hdot, by decide⟩, by decide⟩

theorem keptSegments_eq (h : ['.'] ∉ (normalised name).splitOn '/') :
    keptSegments name = ((normalised name).splitOn '/').filter (· ≠ []) := by
  unfold keptSegments
  apply List.filter_congr
  intro segment hsegment
  have hne : segment ≠ ['.'] := fun heq => h (heq ▸ hsegment)
  simp [hne]

theorem hasDrive_iff :
    hasDrive name = true ↔ ∃ c rest, name = c :: ':' :: '/' :: rest ∧ c.isAlpha = true := by
  constructor
  · intro h
    unfold hasDrive at h
    split at h
    · exact ⟨_, _, rfl, h⟩
    · cases h
  · rintro ⟨c, rest, rfl, hc⟩
    exact hc

theorem hasDrive_joinPath (hdot : ['.'] ∉ (normalised name).splitOn '/')
    (habsolute : (normalised name).head? ≠ some '/') (hdrive : hasDrive (normalised name) = false)
    (hempty : keptSegments name ≠ []) : hasDrive (joinPath (keptSegments name)) = false := by
  rw [Bool.eq_false_iff]
  intro h
  obtain ⟨c, rest, hjoin, hc⟩ := hasDrive_iff.1 h
  have hslash : '/' ∉ [c, ':'] := by
    rw [List.mem_cons, List.mem_singleton, not_or]
    exact ⟨fun heq => by rw [← heq] at hc; revert hc; decide, by decide⟩
  have hkept : [c, ':'] :: rest.splitOn '/' = keptSegments name := by
    rw [← splitOn_joinPath hempty, hjoin]
    exact (List.splitOn_append_cons_self_of_not_mem hslash rest).symm
  rw [keptSegments_eq hdot] at hkept
  have hname : ['/'].intercalate ((normalised name).splitOn '/') = normalised name :=
    List.intercalate_splitOn _
  cases hparts : (normalised name).splitOn '/' with
  | nil => exact List.splitOn_ne_nil _ _ hparts
  | cons first more =>
    rw [hparts] at hkept hname
    have hfirst : first ≠ [] := by
      rintro rfl
      cases more with
      | nil => cases hkept
      | cons second more =>
        apply habsolute
        rw [← hname]
        rfl
    rw [List.filter_cons_of_pos (by simpa using hfirst)] at hkept
    obtain ⟨rfl, hmore⟩ := List.cons.inj hkept
    cases more with
    | nil => exact List.splitOn_ne_nil _ _ hmore
    | cons second more =>
      rw [List.intercalate_cons_cons] at hname
      have hno := hasDrive_iff.2 ⟨c, _, hname.symm, hc⟩
      rw [hdrive] at hno
      cases hno

theorem cleanPath_of_wanted (htaken : isTaken sourceExtractionLimits z.entry = true)
    (hwanted : wanted language z.entry.path = true) : CleanPath z.safePath := by
  cases hdecide : decideEntry z.entry sourceExtractionLimits with
  | reject reason oversized =>
    rw [isTaken, hdecide] at htaken
    cases htaken
  | take path =>
    obtain ⟨-, -, habsolute, hdrive, hparent, hempty⟩ := decideEntry_take hdecide
    have hsplit := splitOn_joinPath hempty
    constructor
    · exact hasDrive_joinPath (dot_notMem_of_wanted hwanted) habsolute hdrive hempty
    · intro segment hsegment
      unfold ZipEntry.safePath at hsegment
      rw [hsplit] at hsegment
      obtain ⟨hne, hdot⟩ := keptSegments_spec hsegment
      exact ⟨hne, hdot, fun heq => hparent (heq ▸ hsegment)⟩

theorem wanted_of_isSourceText (h : IsSourceText language z)
    (hdot : ['.'] ∉ (normalised z.entry.path).splitOn '/') :
    wanted language z.entry.path = true := by
  have hvisible := h.visible
  rw [keptSegments_eq hdot] at hvisible
  unfold wanted
  dsimp only
  rw [if_neg, h.source]
  rw [not_or]
  constructor
  · intro hhead
    exact (hvisible _ (List.mem_of_mem_head? hhead)).2 rfl
  · rw [List.any_eq_true]
    rintro ⟨segment, hsegment, hhead⟩
    exact (hvisible segment hsegment).1 (of_decide_eq_true hhead)

/-! ## When every entry is accounted for -/

section Account

variable {language : SandboxLanguage} {all : List ZipEntry} {files : List SourceFile}
  {dropped : List Name}

variable {z : ZipEntry}

theorem mem_sourceTexts : z ∈ sourceTexts language all ↔
    z ∈ fileEntries all ∧ wanted language z.entry.path = true ∧ z.file?.isSome := by
  unfold sourceTexts
  rw [List.mem_filter, Bool.and_eq_true]

theorem path_of_file? {f : SourceFile} (h : z.file? = some f) : f.path = z.safePath := by
  unfold ZipEntry.file? at h
  split at h
  · obtain ⟨content, -, rfl⟩ := Option.map_eq_some_iff.1 h
    rfl
  · cases h

theorem map_filterMap_sourceTexts {β : Type} {g : SourceFile → β} {h : ZipEntry → β}
    (heq : ∀ z f, z.file? = some f → g f = h z) :
    ((sourceTexts language all).filterMap ZipEntry.file?).map g =
      (sourceTexts language all).map h := by
  rw [List.map_filterMap, ← List.filterMap_eq_map]
  apply List.filterMap_congr
  intro z hz
  obtain ⟨f, hf⟩ := Option.isSome_iff_exists.1 (mem_sourceTexts.1 hz).2.2
  rw [hf, Option.map_some, heq z f hf]
  rfl

theorem map_file?_sourceTexts (h : Accepted language all files dropped) :
    ((sourceTexts language all).map ZipEntry.file?).Perm (files.map some) := by
  rw [← map_filterMap_sourceTexts fun z f hf => hf.symm]
  exact (h.files.map some).symm

theorem paths_of_accepted (h : Accepted language all files dropped) :
    (files.map SourceFile.path).Perm ((sourceTexts language all).map ZipEntry.safePath) := by
  rw [← map_filterMap_sourceTexts fun z f hf => path_of_file? hf]
  exact h.files.map SourceFile.path

theorem uncompressedSize_of_isTaken {limits : ExtractionLimits} {entry : ArchiveEntry}
    (h : isTaken limits entry = true) : entry.uncompressedSize ≤ limits.maxFileBytes := by
  cases hdecide : decideEntry entry limits with
  | take path => exact (decideEntry_take hdecide).2.1
  | reject reason oversized =>
    rw [isTaken, hdecide] at h
    cases h

theorem isTaken_of_wanted (h : Accepted language all files dropped) (hz : z ∈ fileEntries all)
    (hwanted : wanted language z.entry.path = true) :
    isTaken sourceExtractionLimits z.entry = true := by
  by_contra htaken
  have hunwanted := (h.decided z hz (Bool.not_eq_true _ ▸ htaken)).2
  rw [hwanted] at hunwanted
  cases hunwanted

theorem perm_fileEntries (h : Accepted language all files dropped) :
    (sourceTexts language all ++ (tooLarge all ++ others language all ++
      binaries language all)).Perm (fileEntries all) := by
  have hwanted := List.filter_append_perm (fun z => wanted language z.entry.path)
    (fileEntries all)
  have htext := List.filter_append_perm (fun z => z.file?.isSome)
    ((fileEntries all).filter fun z => wanted language z.entry.path)
  have htaken := List.filter_append_perm (fun z => !isTaken sourceExtractionLimits z.entry)
    ((fileEntries all).filter fun z => !wanted language z.entry.path)
  have htexts : ((fileEntries all).filter fun z => wanted language z.entry.path).filter
      (fun z => z.file?.isSome) = sourceTexts language all := by
    unfold sourceTexts
    rw [List.filter_filter]
    exact List.filter_congr fun z _ => Bool.and_comm _ _
  have hbinaries : ((fileEntries all).filter fun z => wanted language z.entry.path).filter
      (fun z => !z.file?.isSome) = binaries language all := by
    unfold binaries
    rw [List.filter_filter]
    exact List.filter_congr fun z _ => Bool.and_comm _ _
  have hothers : ((fileEntries all).filter fun z => !wanted language z.entry.path).filter
      (fun z => !!isTaken sourceExtractionLimits z.entry) = others language all := by
    unfold others
    rw [List.filter_filter]
    exact List.filter_congr fun z _ => by rw [Bool.not_not]
  -- what is too large is no source
  have hlarge : ((fileEntries all).filter fun z => !wanted language z.entry.path).filter
      (fun z => !isTaken sourceExtractionLimits z.entry) = tooLarge all := by
    unfold tooLarge
    rw [List.filter_filter]
    apply List.filter_congr
    intro z hz
    cases htaken : isTaken sourceExtractionLimits z.entry with
    | true => rfl
    | false => simp [(h.decided z hz htaken).2]
  rw [htexts, hbinaries] at htext
  rw [hlarge, hothers] at htaken
  calc sourceTexts language all ++ (tooLarge all ++ others language all ++ binaries language all)
      |>.Perm (sourceTexts language all ++ (binaries language all ++
        (tooLarge all ++ others language all))) := List.perm_append_comm.append_left _
    _ |>.Perm (sourceTexts language all ++ binaries language all ++
        (tooLarge all ++ others language all)) := by rw [List.append_assoc]
    _ |>.Perm (fileEntries all) := (htext.append htaken).trans hwanted

theorem withinLimits_sourceTexts (h : Accepted language all files dropped)
    (hfaithful : Faithful all) :
    WithinLimits sourceExtractionLimits (sourceTexts language all) := by
  have hsize : ∀ z ∈ sourceTexts language all, z.size = z.entry.uncompressedSize := by
    intro z hz
    obtain ⟨hmem, -, htext⟩ := mem_sourceTexts.1 hz
    obtain ⟨f, hf⟩ := Option.isSome_iff_exists.1 htext
    unfold ZipEntry.file? at hf
    split at hf
    · rename_i bytes hstream
      unfold ZipEntry.size
      rw [hstream]
      exact hfaithful z (List.mem_of_mem_filter hmem) bytes hstream
    · cases hf
  have htaken : ∀ z ∈ sourceTexts language all,
      isTaken sourceExtractionLimits z.entry = true := fun z hz =>
    isTaken_of_wanted h (mem_sourceTexts.1 hz).1 (mem_sourceTexts.1 hz).2.1
  constructor
  · exact (List.length_filter_le _ _).trans h.count
  · intro z hz
    rw [hsize z hz]
    exact uncompressedSize_of_isTaken (htaken z hz)
  · rw [List.map_congr_left hsize]
    have hsub : (sourceTexts language all).Sublist
        ((fileEntries all).filter fun z => isTaken sourceExtractionLimits z.entry) := by
      rw [← List.filter_eq_self.2 htaken]
      exact List.filter_sublist.filter _
    have hsum := (hsub.map fun z => z.entry.uncompressedSize).sum_le_sum
      fun _ _ => Nat.zero_le _
    exact hsum.trans h.total

theorem unread_eq (h : Accepted language all files dropped)
    (hsizes : ∀ z ∈ fileEntries all, ∀ z' ∈ fileEntries all,
      sourceExtractionLimits.maxFileBytes < z.entry.uncompressedSize →
        z'.entry.uncompressedSize ≤ sourceExtractionLimits.maxFileBytes →
          z.entry.path ≠ z'.entry.path) : unread language all = others language all := by
  unfold unread others
  apply List.filter_congr
  intro z hz
  congr 1
  rw [Bool.eq_iff_iff]
  constructor
  · intro hname
    obtain ⟨z', hz', hand⟩ := List.any_eq_true.1 hname
    obtain ⟨htaken', hpath⟩ := Bool.and_eq_true_iff.1 hand
    by_contra htaken
    obtain ⟨hlarge, -⟩ := h.decided z hz (Bool.not_eq_true _ ▸ htaken)
    exact hsizes z hz z' hz' hlarge (uncompressedSize_of_isTaken htaken')
      (of_decide_eq_true hpath).symm
  · exact nameTaken_of_isTaken hz

theorem accountsFor_of_noClash (h : Accepted language all files dropped)
    (hfaithful : Faithful all) (hclash : NoClash language all) :
    AccountsFor language all files dropped := by
  constructor
  · exact (paths_of_accepted h).nodup_iff.2 hclash.paths
  · intro f hf
    have hpath := (paths_of_accepted h).mem_iff.1 (List.mem_map_of_mem hf)
    obtain ⟨z, hz, heq⟩ := List.mem_map.1 hpath
    obtain ⟨hmem, hwanted, -⟩ := mem_sourceTexts.1 hz
    rw [← heq]
    exact cleanPath_of_wanted (isTaken_of_wanted h hmem hwanted) hwanted
  · refine ⟨sourceTexts language all,
      tooLarge all ++ others language all ++ binaries language all, ?_⟩
    constructor
    · exact perm_fileEntries h
    · exact map_file?_sourceTexts h
    · rw [h.dropped, unread_eq h hclash.sizes]
      apply List.rel_append
      · apply List.rel_append
        · exact List.forall₂_map_right_iff.2 (List.forall₂_same.2 fun z _ => Or.inl rfl)
        · exact List.forall₂_map_right_iff.2 (List.forall₂_same.2 fun z _ => Or.inr rfl)
      · exact List.forall₂_map_right_iff.2 (List.forall₂_same.2 fun z _ => Or.inr rfl)
    · exact withinLimits_sourceTexts h hfaithful
    · intro z hz hsource
      have hwanted : z ∈ fileEntries all → wanted language z.entry.path = true := fun hmem =>
        wanted_of_isSourceText hsource (hclash.dots z hmem hsource)
      rw [List.mem_append, List.mem_append] at hz
      rcases hz with (hz | hz) | hz
      · obtain ⟨hmem, htaken⟩ := List.mem_filter.1 hz
        have hno := (h.decided z hmem (Bool.not_eq_true' _ ▸ htaken)).2
        rw [hwanted hmem] at hno
        cases hno
      · obtain ⟨hmem, hand⟩ := List.mem_filter.1 hz
        rw [hwanted hmem, Bool.not_true, Bool.and_false] at hand
        cases hand
      · obtain ⟨-, hand⟩ := List.mem_filter.1 hz
        rw [hsource.text, Bool.not_true, Bool.and_false] at hand
        cases hand

theorem unread_eq_of_accounted (h : Accepted language all files dropped)
    {kept rest : List ZipEntry} (haccount : Accounted language all files dropped kept rest) :
    unread language all = others language all := by
  have hsub : (others language all).Sublist (unread language all) := by
    have hfilter : others language all = (unread language all).filter fun z =>
        isTaken sourceExtractionLimits z.entry := by
      unfold others unread
      rw [List.filter_filter]
      apply List.filter_congr
      intro z hz
      cases htaken : isTaken sourceExtractionLimits z.entry with
      | false => rfl
      | true => rw [nameTaken_of_isTaken hz htaken, Bool.true_and, Bool.true_and]
    rw [hfilter]
    exact List.filter_sublist
  apply Eq.symm
  apply hsub.eq_of_length
  have hall := haccount.every.length_eq
  have hperm := (perm_fileEntries h).length_eq
  have hkept := haccount.files.length_eq
  have htexts := (map_file?_sourceTexts h).length_eq
  have hrest := haccount.dropped.length_eq
  rw [h.dropped] at hrest
  simp only [List.length_append, List.length_map] at hall hperm hkept htexts hrest
  omega

theorem noClash_of_accountsFor (h : Accepted language all files dropped)
    (haccount : AccountsFor language all files dropped) : NoClash language all := by
  obtain ⟨hdistinct, -, kept, rest, haccounted⟩ := haccount
  constructor
  · exact (paths_of_accepted h).nodup_iff.1 hdistinct
  · intro z hz z' hz' hlarge hsmall hpath
    have htaken : isTaken sourceExtractionLimits z.entry = false := by
      by_contra htaken
      have hsize := uncompressedSize_of_isTaken (Bool.not_eq_false _ ▸ htaken)
      omega
    have htaken' : isTaken sourceExtractionLimits z'.entry = true := by
      by_contra htaken'
      obtain ⟨hlarge', -⟩ := h.decided z' hz' (Bool.not_eq_true _ ▸ htaken')
      omega
    have hmem : z ∈ unread language all := by
      apply List.mem_filter.2
      rw [hpath, nameTaken_of_isTaken hz' htaken', ← hpath, (h.decided z hz htaken).2]
      exact ⟨hz, rfl⟩
    rw [unread_eq_of_accounted h haccounted] at hmem
    obtain ⟨-, hand⟩ := List.mem_filter.1 hmem
    rw [htaken] at hand
    cases hand
  · intro z hz hsource hdot
    have hinKept : ∀ z ∈ fileEntries all, IsSourceText language z → z ∈ kept := by
      intro z hz hsource
      rcases List.mem_append.1 (haccounted.every.mem_iff.2 hz) with hkept | hrest
      · exact hkept
      · exact absurd hsource (haccounted.sources z hrest)
    have hkept := hinKept z hz hsource
    -- its file is that of a source that is read, under the same path
    have hfile := haccounted.files.mem_iff.1 (List.mem_map_of_mem hkept)
    obtain ⟨z', hz', heq⟩ := List.mem_map.1 ((map_file?_sourceTexts h).mem_iff.2 hfile)
    obtain ⟨hmem', hwanted', htext'⟩ := mem_sourceTexts.1 hz'
    obtain ⟨f, hf⟩ := Option.isSome_iff_exists.1 hsource.text
    have hsafe : keptSegments z'.entry.path = keptSegments z.entry.path := by
      apply keptSegments_of_joinPath
      show z'.safePath = z.safePath
      rw [← path_of_file? hf, ← path_of_file? (heq.trans hf)]
    have hsource' : IsSourceText language z' := by
      constructor
      · exact hasSourceExtension_of_wanted hwanted'
      · exact htext'
      · rw [hsafe]
        exact hsource.visible
    -- the files are distinct, so the two are one entry
    have hnodup : (kept.map ZipEntry.file?).Nodup := by
      rw [haccounted.files.nodup_iff]
      exact (List.Nodup.of_map _ hdistinct).map (Option.some_injective _)
    have hsame := List.inj_on_of_nodup_map hnodup (hinKept z' hmem' hsource') hkept heq
    rw [hsame] at hwanted'
    exact dot_notMem_of_wanted hwanted' hdot

end Account

/-- An archive that is not refused is accounted for exactly where the rules
about its entries agree. -/
theorem accountsFor_iff {localeLe : Name → Name → Bool}
    {archive : List Nat → Except String (List ZipEntry)} {bytes : List Nat}
    {declaredFilename : Name} {language : SandboxLanguage} {all : List ZipEntry}
    {files : List SourceFile} {entry : Option Name} {dropped : List Name}
    (hzip : detectArchiveFormat bytes = .zip) (hall : archive bytes = .ok all)
    (hfaithful : Faithful all)
    (h : sourceFilesOf localeLe archive bytes declaredFilename language =
      .ok files entry dropped) :
    AccountsFor language all files dropped ↔ NoClash language all := by
  have haccepted := accepted_of_sourceFilesOf hzip hall h
  constructor
  · exact noClash_of_accountsFor haccepted
  · exact accountsFor_of_noClash haccepted hfaithful

def zipBytes : List Nat := [0x50, 0x4b, 0x03, 0x04]

theorem sourceFilesOf_of_readZip {localeLe : Name → Name → Bool} {declaredFilename : Name}
    {read : List (Name × List Nat)} {dropped : List Name}
    (h : readZip language all = .ok (read, dropped)) :
    sourceFilesOf localeLe (fun _ => .ok all) zipBytes declaredFilename language =
      filesOfArchive localeLe language read dropped := by
  have hformat : detectArchiveFormat zipBytes = .zip := rfl
  have hread : (Except.ok all >>= readZip language) = .ok (read, dropped) := h
  unfold sourceFilesOf
  rw [hformat]
  dsimp only
  rw [hread]

/-- A text file of one letter. -/
def letterEntry (path : String) (letter : Nat) : ZipEntry :=
  ⟨⟨path.toList, 1, false, false⟩, .ok [letter]⟩

theorem one_file_accounted : AccountsFor .cpp [letterEntry "a.cpp" 65]
    [⟨"a.cpp".toList, ['A']⟩] [] ↔ NoClash .cpp [letterEntry "a.cpp" 65] := by
  have hfaithful : Faithful [letterEntry "a.cpp" 65] := by
    intro z hz bytes hbytes
    rw [List.mem_singleton.1 hz] at hbytes ⊢
    cases hbytes
    rfl
  have hfiles : sourceFilesOf (fun _ _ => true) (fun _ => .ok [letterEntry "a.cpp" 65]) zipBytes []
      .cpp = .ok [⟨"a.cpp".toList, ['A']⟩] none [] := by
    have hread : readZip .cpp [letterEntry "a.cpp" 65] = .ok ([("a.cpp".toList, [65])], []) := rfl
    have htexts : textFiles [("a.cpp".toList, [65])] = [⟨"a.cpp".toList, ['A']⟩] := rfl
    rw [sourceFilesOf_of_readZip hread]
    unfold filesOfArchive
    rw [htexts, List.mergeSort_singleton]
    rfl
  exact accountsFor_iff rfl rfl hfaithful hfiles

/-- Two entries of one name. -/
def oneNameTwice : List ZipEntry := [letterEntry "a.cpp" 65, letterEntry "a.cpp" 66]

/-- They give two files of one path. -/
theorem one_name_twice : ∃ files, Faithful oneNameTwice ∧
    sourceFilesOf (fun _ _ => true) (fun _ => .ok oneNameTwice) zipBytes [] .cpp =
      .ok files none [] ∧ ¬ AccountsFor .cpp oneNameTwice files [] := by
  refine ⟨[⟨"a.cpp".toList, ['A']⟩, ⟨"a.cpp".toList, ['B']⟩], ?_, ?_, ?_⟩
  · intro z hz bytes hbytes
    rcases List.mem_pair.1 hz with rfl | rfl <;> cases hbytes <;> rfl
  · have hread : readZip .cpp oneNameTwice =
        .ok ([("a.cpp".toList, [65]), ("a.cpp".toList, [66])], []) := rfl
    have htexts : textFiles [("a.cpp".toList, [65]), ("a.cpp".toList, [66])] =
        [⟨"a.cpp".toList, ['A']⟩, ⟨"a.cpp".toList, ['B']⟩] := rfl
    rw [sourceFilesOf_of_readZip hread]
    unfold filesOfArchive
    rw [htexts, List.mergeSort_of_pairwise (by decide)]
    rfl
  · intro h
    exact absurd h.distinct (by decide)

end Cine.Grading.Sandbox
