import Cine.Agent.JoinWorkspace
import Cine.Exam.FilenameTemplate

/-!
# Every file has a name of its own

What becomes of the names that a session requires, when `exam-session.gateway.ts`
has rendered them for a student and the agent of the student makes the files.

The rendered names are safe, and they are the patterns with the tokens
replaced.  Nothing looks at them once more, so that the agent refuses some, and
some of them name one file.

* `namesDevice_iff`: a rendered name is one of a device if the pattern spells
  one before its first dot.
* `alike_iff`: two rendered names are the same on Windows if the patterns have
  the same separators and spell the same words.
* `ownNames_iff`: when every file has a name of its own.
-/

namespace Cine.Exam.RenderedNames

open Cine.Lib.NodePath Cine.Lib.Words
open Cine.Agent.Workspace (safeFilenameChar windowsReservedDeviceNames)
open Cine.Agent.Containment (validateFilename win32Root)
open Cine.Agent.JoinWorkspace
open Cine.Exam.FilenameTemplate

/-! ## Letter case -/

/-- A name without regard to the case of its letters. -/
def folded (name : Name) : Name := Agent.Workspace.lower name

def isSeparator (c : Char) : Bool := c = '_' || c = '-' || c = '.'

theorem toLower_of_not_safe {c : Char} (h : safeFilenameChar c = false) : c.toLower = c := by
  unfold Char.toLower
  rw [dif_neg]
  intro hupper
  have hsafe : safeFilenameChar c = true := by
    have hletter : c.isUpper = true := decide_eq_true hupper
    refine safe_of_isAlphanum ?_
    show (c.isUpper || c.isLower || c.isDigit) = true
    rw [hletter]
    rfl
  rw [hsafe] at h
  cases h

theorem folded_separator {c : Char} (h : isSeparator c = true) : folded [c] = [c] := by
  have hcases : c = '_' ∨ c = '-' ∨ c = '.' := by simpa [isSeparator, or_assoc] using h
  rcases hcases with rfl | rfl | rfl <;> rfl

theorem folded_letter {c : Char} (h : isSeparator c = false) :
    ∀ b ∈ folded [c], isSeparator b = false := by
  intro b hb
  rw [List.mem_singleton.1 hb]
  cases hsafe : safeFilenameChar c with
  | true =>
    have hall := @forall_safe (fun c => isSeparator c = false →
      isSeparator (if c = '\u212a' then 'k' else c.toLower) = false) (by decide) c hsafe
    exact hall h
  | false =>
    dsimp only
    split_ifs
    · rfl
    · rw [toLower_of_not_safe hsafe]
      exact h

theorem folded_plain {name : Name} (h : Plain name) : ∀ b ∈ folded name, isSeparator b = false := by
  intro b hb
  obtain ⟨c, hc, rfl⟩ := List.mem_map.1 hb
  have halphanum := h.alphanum c hc
  have hall := @forall_safe (fun c => c.isAlphanum = true → isSeparator c = false) (by decide) c
    (safe_of_isAlphanum halphanum)
  exact folded_letter (hall halphanum) _ (List.mem_singleton.2 rfl)

/-! ## Words of a pattern -/

/-- A separator of a pattern.  What replaces a token has none. -/
def separates : Piece → Bool
  | .letter c => isSeparator c
  | .token _ => false

/-- A word of a pattern, as Windows compares names. -/
def spelled (value : FilenameToken → Name) (word : Pattern) : Name := folded (nameOf value word)

/-- The pattern spells a device before its first dot. -/
def NamesDevice (value : FilenameToken → Name) (pattern : Pattern) : Prop :=
  spelled value ((pattern.splitOnP Piece.isDot).headD []) ∈ windowsReservedDeviceNames

/-- The same separators, and between them the same words. -/
structure Alike (value : FilenameToken → Name) (a b : Pattern) : Prop where
  separators : a.filter separates = b.filter separates
  words : (a.splitOnP separates).map (spelled value) = (b.splitOnP separates).map (spelled value)

instance (value : FilenameToken → Name) (pattern : Pattern) :
    Decidable (NamesDevice value pattern) :=
  inferInstanceAs (Decidable (_ ∈ windowsReservedDeviceNames))

instance (value : FilenameToken → Name) (a b : Pattern) : Decidable (Alike value a b) :=
  decidable_of_iff (a.filter separates = b.filter separates ∧
    (a.splitOnP separates).map (spelled value) = (b.splitOnP separates).map (spelled value))
    ⟨fun h => ⟨h.1, h.2⟩, fun h => ⟨h.separators, h.words⟩⟩

variable {value : FilenameToken → Name}

theorem folded_nameOf (value : FilenameToken → Name) (pattern : Pattern) :
    folded (nameOf value pattern) = pattern.flatMap fun piece => folded (piece.filled value) :=
  List.map_flatMap

theorem written_folded (h : ∀ t, Plain (value t)) :
    Written separates isSeparator fun piece => folded (piece.filled value) where
  separator piece hpiece := by
    cases piece with
    | letter c => exact ⟨c, hpiece, folded_separator hpiece⟩
    | token t => cases hpiece
  word piece hpiece := by
    cases piece with
    | letter c => exact folded_letter hpiece
    | token t => exact folded_plain (h t)

theorem written_dot (h : ∀ t, Plain (value t)) :
    Written Piece.isDot (· == '.') (Piece.filled value) where
  separator piece hpiece := by
    cases piece with
    | letter c => exact ⟨c, decide_eq_true (of_decide_eq_true hpiece), rfl⟩
    | token t => cases hpiece
  word piece hpiece b hb := by
    rw [beq_eq_false_iff_ne]
    rintro rfl
    exact dot_notMem_filled h hpiece hb

theorem stem_nameOf (h : ∀ t, Plain (value t)) (pattern : Pattern) :
    stem (nameOf value pattern) = nameOf value ((pattern.splitOnP Piece.isDot).headD []) := by
  unfold stem
  rw [List.splitOn_eq_splitOnP]
  show ((pattern.flatMap (Piece.filled value)).splitOnP _).headD [] = _
  rw [splitOnP_flatMap (written_dot h)]
  cases pattern.splitOnP Piece.isDot <;> rfl

theorem namesDevice_iff (h : ∀ t, Plain (value t)) (pattern : Pattern) :
    folded (stem (nameOf value pattern)) ∈ windowsReservedDeviceNames ↔
      NamesDevice value pattern := by
  rw [stem_nameOf h]
  rfl

theorem separators_iff (h : ∀ t, Plain (value t)) (a b : Pattern) :
    (folded (nameOf value a)).filter isSeparator = (folded (nameOf value b)).filter isSeparator ↔
      a.filter separates = b.filter separates := by
  have hletters : ∀ pattern : Pattern, ∃ letters : List Char,
      pattern.filter separates = letters.map Piece.letter ∧
        (folded (nameOf value pattern)).filter isSeparator = letters := by
    intro pattern
    rw [folded_nameOf, filter_flatMap_words (written_folded h)]
    induction pattern with
    | nil => exact ⟨[], rfl, rfl⟩
    | cons piece pattern ih =>
      obtain ⟨letters, hpieces, hseps⟩ := ih
      cases hpiece : separates piece with
      | false =>
        rw [List.filter_cons_of_neg (Bool.eq_false_iff.1 hpiece)]
        exact ⟨letters, hpieces, hseps⟩
      | true =>
        cases piece with
        | letter c =>
          refine ⟨c :: letters, ?_, ?_⟩
          · rw [List.filter_cons_of_pos hpiece, hpieces]
            rfl
          · rw [List.filter_cons_of_pos hpiece, List.flatMap_cons, hseps]
            show folded [c] ++ letters = _
            rw [folded_separator hpiece]
            rfl
        | token t => cases hpiece
  obtain ⟨letters, hpieces, hseps⟩ := hletters a
  obtain ⟨letters', hpieces', hseps'⟩ := hletters b
  rw [hpieces, hpieces', hseps, hseps']
  have hinjective : Function.Injective Piece.letter := fun _ _ heq => by cases heq; rfl
  exact (List.map_injective_iff.2 hinjective).eq_iff.symm

theorem words_folded (h : ∀ t, Plain (value t)) (pattern : Pattern) :
    (folded (nameOf value pattern)).splitOnP isSeparator =
      (pattern.splitOnP separates).map (spelled value) := by
  rw [folded_nameOf, splitOnP_flatMap (written_folded h)]
  apply List.map_congr_left
  intro word _
  exact (folded_nameOf value word).symm

theorem alike_iff (h : ∀ t, Plain (value t)) (a b : Pattern) :
    folded (nameOf value a) = folded (nameOf value b) ↔ Alike value a b := by
  rw [eq_iff_words isSeparator, separators_iff h, words_folded h, words_folded h]
  exact ⟨fun hboth => ⟨hboth.1, hboth.2⟩, fun halike => ⟨halike.separators, halike.words⟩⟩

/-! ## The names of a student -/

/-- What is asked of the names: each is safe, is the pattern with its tokens
replaced and is accepted by the agent, and no two are the same on Windows. -/
structure OwnNames {os : Platform} {lower : Name → Name} (nfd : Name → Name) (p : Process os lower)
    (workspaceRoot : Name) (context : FilenameContext) (requiredFilenames : List Name) : Prop where
  safe : ∀ declared ∈ requiredFilenames, SafeFilename (renderFilename nfd declared context)
  replaced : ∀ declared ∈ requiredFilenames, ∀ pattern ∈ patternOf declared,
    renderFilename nfd declared context = nameOf (valueOf nfd context) pattern
  accepted : ∀ declared ∈ requiredFilenames, (validateFilename p
    (workspaceDir p workspaceRoot context.studentMssv)
    (renderFilename nfd declared context)).isSome = true
  different : requiredFilenames.Pairwise fun a b =>
    folded (renderFilename nfd a context) ≠ folded (renderFilename nfd b context)

/-- What the check of the request would have to ask, for a student. -/
structure NoneAlike (value : FilenameToken → Name) (requiredFilenames : List Name) : Prop where
  dot : ∀ declared ∈ requiredFilenames, declared ≠ ['.']
  device : ∀ declared ∈ requiredFilenames, ∀ pattern ∈ patternOf declared,
    ¬ NamesDevice value pattern
  alike : requiredFilenames.Pairwise fun a b =>
    ∀ pattern ∈ patternOf a, ∀ pattern' ∈ patternOf b, ¬ Alike value pattern pattern'

theorem nameOf_eq_dot (h : ∀ t, Plain (value t)) (pattern : Pattern) :
    nameOf value pattern = ['.'] ↔ pattern.flatMap Piece.declared = ['.'] := by
  cases pattern with
  | nil => exact iff_of_false nofun nofun
  | cons piece pattern =>
    unfold nameOf
    rw [List.flatMap_cons, List.flatMap_cons]
    cases piece with
    | letter c =>
      show c :: _ = _ ↔ c :: _ = _
      rw [List.cons_eq_cons, List.cons_eq_cons]
      cases pattern with
      | nil => exact Iff.rfl
      | cons second rest =>
        have hfilled := List.append_ne_nil_of_left_ne_nil (filled_ne_nil h second)
          (rest.flatMap (Piece.filled value))
        have hdeclared : (second :: rest).flatMap Piece.declared ≠ [] := by
          rw [List.flatMap_cons]
          apply List.append_ne_nil_of_left_ne_nil
          cases second <;> exact List.cons_ne_nil _ _
        exact iff_of_false (fun heq => hfilled heq.2) (fun heq => hdeclared heq.2)
    | token t =>
      obtain ⟨c, rest, hvalue⟩ := List.exists_cons_of_ne_nil (h t).nonempty
      have hc := (h t).alphanum c (hvalue ▸ List.mem_cons_self)
      apply iff_of_false
      · intro heq
        rw [show Piece.filled value (.token t) = c :: rest from hvalue, List.cons_append,
          List.cons_eq_cons] at heq
        rw [heq.1] at hc
        revert hc
        decide
      · nofun

section

variable {os : Platform} {lower : Name → Name} (nfd : Name → Name) (p : Process os lower)
  (workspaceRoot : Name) {context : FilenameContext}

theorem accepted_iff (hid : IsSafeForPathSegment context.studentMssv) {declared : Name}
    {pattern : Pattern} (hname : MatchesTemplate declared)
    (hpattern : patternOf declared = some pattern) :
    (validateFilename p (workspaceDir p workspaceRoot context.studentMssv)
      (renderFilename nfd declared context)).isSome = true ↔
        declared ≠ ['.'] ∧ ¬ NamesDevice (valueOf nfd context) pattern := by
  have hsafe := safeFilename_renderFilename nfd context hname
  have hvalue := valueOf_spec nfd context
  rw [validateFilename_isSome p workspaceRoot hid hsafe.1 hsafe.2.2 hsafe.2.1,
    renderFilename_eq nfd context hname hpattern, Ne, nameOf_eq_dot hvalue,
    (declared_of_patternOf hpattern).1]
  exact and_congr_right fun _ => not_congr (namesDevice_iff hvalue pattern)

theorem ownNames_iff {requiredFilenames : List Name} (h : RequiredFilenames requiredFilenames)
    (hid : IsSafeForPathSegment context.studentMssv) :
    OwnNames nfd p workspaceRoot context requiredFilenames ↔
      NoneAlike (valueOf nfd context) requiredFilenames := by
  have hvalue := valueOf_spec nfd context
  have hpattern : ∀ declared ∈ requiredFilenames, ∃ pattern, patternOf declared = some pattern :=
    fun declared hdeclared => Option.isSome_iff_exists.1 (h.template declared hdeclared).2.2
  have halike : requiredFilenames.Pairwise (fun a b =>
      folded (renderFilename nfd a context) ≠ folded (renderFilename nfd b context)) ↔
      requiredFilenames.Pairwise fun a b => ∀ pattern ∈ patternOf a, ∀ pattern' ∈ patternOf b,
        ¬ Alike (valueOf nfd context) pattern pattern' := by
    apply List.Pairwise.iff_of_mem
    intro a b ha hb
    obtain ⟨pattern, hleft⟩ := hpattern a ha
    obtain ⟨pattern', hright⟩ := hpattern b hb
    rw [renderFilename_eq nfd context (h.template a ha) hleft,
      renderFilename_eq nfd context (h.template b hb) hright, Ne, alike_iff hvalue, hleft, hright]
    constructor
    · intro hno left hmem right hmem'
      cases hmem
      cases hmem'
      exact hno
    · exact fun hno => hno pattern rfl pattern' rfl
  constructor
  · intro hown
    refine ⟨?_, ?_, halike.1 hown.different⟩
    · intro declared hdeclared
      obtain ⟨pattern, hpattern⟩ := hpattern declared hdeclared
      exact ((accepted_iff nfd p workspaceRoot hid (h.template declared hdeclared) hpattern).1
        (hown.accepted declared hdeclared)).1
    · intro declared hdeclared pattern hpattern
      exact ((accepted_iff nfd p workspaceRoot hid (h.template declared hdeclared) hpattern).1
        (hown.accepted declared hdeclared)).2
  · intro hnone
    refine ⟨?_, ?_, ?_, halike.2 hnone.alike⟩
    · exact fun declared hdeclared =>
        safeFilename_renderFilename nfd context (h.template declared hdeclared)
    · exact fun declared hdeclared pattern hpattern =>
        renderFilename_eq nfd context (h.template declared hdeclared) hpattern
    · intro declared hdeclared
      obtain ⟨pattern, hpattern⟩ := hpattern declared hdeclared
      exact (accepted_iff nfd p workspaceRoot hid (h.template declared hdeclared) hpattern).2
        ⟨hnone.dot declared hdeclared, hnone.device declared hdeclared pattern hpattern⟩

end

/-- A student in a room, at a machine. -/
def plainContext : FilenameContext where
  studentMssv := "SV20120001".toList
  studentName := "Nguyen Van An".toList
  roomName := "A1".toList
  machineName := some "A1".toList

theorem three_names : OwnNames id win32Root "C:\\lab".toList plainContext
    ["{MSSV}_{TEN}.docx".toList, "{PHONG}-Cau2.zip".toList, "Cau1.cpp".toList] :=
  (ownNames_iff id win32Root "C:\\lab".toList (by decide) (by decide)).2
    ⟨by decide, by decide, by decide⟩

/-- A machine has the name of its room, and a device is declared. -/
theorem one_name_for_two :
    RequiredFilenames ["{PHONG}.docx".toList, "{SOMAY}.docx".toList, "Aux.docx".toList] ∧
      IsSafeForPathSegment plainContext.studentMssv ∧
      renderFilename id "{PHONG}.docx".toList plainContext =
        renderFilename id "{SOMAY}.docx".toList plainContext ∧
      validateFilename win32Root (workspaceDir win32Root "C:\\lab".toList plainContext.studentMssv)
        (renderFilename id "Aux.docx".toList plainContext) = none ∧
      ¬ OwnNames id win32Root "C:\\lab".toList plainContext
        ["{PHONG}.docx".toList, "{SOMAY}.docx".toList, "Aux.docx".toList] := by
  refine ⟨by decide, by decide, by decide, by decide, ?_⟩
  intro hown
  have hpair := (List.pairwise_cons.1 hown.different).1 "{SOMAY}.docx".toList List.mem_cons_self
  revert hpair
  decide

end Cine.Exam.RenderedNames
