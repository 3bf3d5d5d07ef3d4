import Cine.Agent.Workspace
import Cine.Lib.Words

/-!
# The name of a file for each student

`filename-template.ts`, and what `create-exam-session.dto.ts` asks of the
names of the files that a session requires.

A name is declared as a pattern with tokens, and for a student the tokens are
replaced.  `patternOf` reads the pattern as the check does, `chunks` as the
replacement does.

* `chunks_of_patternOf`: in a name that is accepted they read the same.
* `normalize_spec`: what a token is replaced by has letters and digits only,
  and one at least.
* `renderFilename_eq`: the name is the pattern with its tokens replaced.
* `safeFilename_renderFilename`: it is safe.

Unicode's canonical decomposition is a parameter, `nfd`.
-/

namespace Cine.Exam.FilenameTemplate

open Cine.Lib.Words
open Cine.Agent.Workspace (Name safeFilenameChar)

/-! ## Patterns -/

/-- `SAFE_FILENAME_REGEX`. -/
def SafeFilename (name : Name) : Prop :=
  name ≠ [] ∧ ¬ "..".toList <:+: name ∧ name.all safeFilenameChar = true

instance (name : Name) : Decidable (SafeFilename name) :=
  inferInstanceAs (Decidable (_ ∧ _))

inductive FilenameToken
  | mssv
  | ten
  | phong
  | somay
  deriving DecidableEq

def FilenameToken.text : FilenameToken → Name
  | .mssv => "MSSV".toList
  | .ten => "TEN".toList
  | .phong => "PHONG".toList
  | .somay => "SOMAY".toList

/-- A part of a pattern. -/
inductive Piece
  | letter (c : Char)
  | token (t : FilenameToken)
  deriving DecidableEq

abbrev Pattern := List Piece

/-- The group of `FILENAME_TEMPLATE_REGEX`, as often as it fits. -/
def patternOf : Name → Option Pattern
  | [] => some []
  | '{' :: 'M' :: 'S' :: 'S' :: 'V' :: '}' :: rest => (patternOf rest).map (.token .mssv :: ·)
  | '{' :: 'T' :: 'E' :: 'N' :: '}' :: rest => (patternOf rest).map (.token .ten :: ·)
  | '{' :: 'P' :: 'H' :: 'O' :: 'N' :: 'G' :: '}' :: rest =>
    (patternOf rest).map (.token .phong :: ·)
  | '{' :: 'S' :: 'O' :: 'M' :: 'A' :: 'Y' :: '}' :: rest =>
    (patternOf rest).map (.token .somay :: ·)
  | c :: rest => if safeFilenameChar c then (patternOf rest).map (.letter c :: ·) else none

/-- `FILENAME_TEMPLATE_REGEX`. -/
def MatchesTemplate (name : Name) : Prop :=
  name ≠ [] ∧ ¬ "..".toList <:+: name ∧ (patternOf name).isSome = true

instance (name : Name) : Decidable (MatchesTemplate name) :=
  inferInstanceAs (Decidable (_ ∧ _))

/-- The names of the files that a request has to declare: each is one of
`RequiredFilenameDto`, and all together pass `UniqueFilenamesConstraint`. -/
structure RequiredFilenames (names : List Name) : Prop where
  template : ∀ name ∈ names, MatchesTemplate name
  maxLength : ∀ name ∈ names, name.length ≤ 255
  unique : names.Nodup

instance (names : List Name) : Decidable (RequiredFilenames names) :=
  decidable_of_iff ((∀ name ∈ names, MatchesTemplate name) ∧ (∀ name ∈ names, name.length ≤ 255) ∧
    names.Nodup) ⟨fun h => ⟨h.1, h.2.1, h.2.2⟩, fun h => ⟨h.template, h.maxLength, h.unique⟩⟩

/-! ## What replaces a token -/

structure FilenameContext where
  studentMssv : Name
  studentName : Name
  roomName : Name
  machineName : Option Name

def missing : Name := "UNKNOWN".toList

/-- `/[̀-ͯ]/`. -/
def isCombining (c : Char) : Bool := '\u0300' ≤ c && c ≤ '\u036f'

def plainD (c : Char) : Char :=
  if c = 'đ' then 'd' else if c = 'Đ' then 'D' else c

/-- The last `replace` of `normalize`: what is no letter and no digit goes,
and what stands behind it gets a capital. -/
def joinWords : Bool → Name → Name
  | _, [] => []
  | behind, c :: rest =>
    if c.isAlphanum then (if behind then c.toUpper else c) :: joinWords false rest
    else joinWords true rest

def normalize (nfd : Name → Name) (value : Name) : Name :=
  let stripped := joinWords false (((nfd value).filter fun c => !isCombining c).map plainD)
  if stripped = [] then missing else stripped

/-- What a token is replaced by, known or not. -/
def tokenValue (nfd : Name → Name) (context : FilenameContext) (token : Name) : Name :=
  if token = FilenameToken.mssv.text then normalize nfd context.studentMssv
  else if token = FilenameToken.ten.text then normalize nfd context.studentName
  else if token = FilenameToken.phong.text then normalize nfd context.roomName
  else if token = FilenameToken.somay.text then
    match context.machineName with
    | none => missing
    | some machineName => if machineName = [] then missing else normalize nfd machineName
  else missing

/-! ## The replacement -/

def isTokenLetter (c : Char) : Bool := c.isUpper || c = '_'

/-- A match of `TOKEN_PATTERN`, or a letter outside all of them. -/
inductive Chunk
  | letter (c : Char)
  | braced (token : Name)

/-- The matches of `TOKEN_PATTERN`.  The first argument is what has been read
behind a brace. -/
def chunks : Option Name → Name → List Chunk
  | none, [] => []
  | some run, [] => ('{' :: run).map .letter
  | none, c :: rest => if c = '{' then chunks (some []) rest else .letter c :: chunks none rest
  | some run, c :: rest =>
    if isTokenLetter c then chunks (some (run ++ [c])) rest
    else if c = '}' ∧ run ≠ [] then .braced run :: chunks none rest
    else ('{' :: run).map .letter ++
      if c = '{' then chunks (some []) rest else .letter c :: chunks none rest

def Chunk.isBraced : Chunk → Bool
  | .letter _ => false
  | .braced _ => true

def Chunk.replaced (value : Name → Name) : Chunk → Name
  | .letter c => [c]
  | .braced token => value token

def isTemplatedFilename (declared : Name) : Bool := (chunks none declared).any Chunk.isBraced

def renderFilename (nfd : Name → Name) (declared : Name) (context : FilenameContext) : Name :=
  if isTemplatedFilename declared then
    let rendered := (chunks none declared).flatMap (Chunk.replaced (tokenValue nfd context))
    if SafeFilename rendered then rendered else missing
  else declared

example : renderFilename id "{PHONG}_{MSSV}_{TEN}_{SOMAY}.docx".toList
    ⟨"SV20120001".toList, "Nguyen Van An".toList, "Phong may A1".toList, none⟩ =
    "PhongMayA1_SV20120001_NguyenVanAn_UNKNOWN.docx".toList := by
  decide

/-! ## Pieces -/

def Piece.declared : Piece → Name
  | .letter c => [c]
  | .token t => '{' :: t.text ++ ['}']

def Piece.filled (value : FilenameToken → Name) : Piece → Name
  | .letter c => [c]
  | .token t => value t

def Piece.chunk : Piece → Chunk
  | .letter c => .letter c
  | .token t => .braced t.text

def Piece.isDot : Piece → Bool
  | .letter c => c = '.'
  | .token _ => false

def Piece.isLetter : Piece → Bool
  | .letter c => safeFilenameChar c
  | .token _ => true

theorem declared_of_patternOf {name : Name} {pattern : Pattern}
    (h : patternOf name = some pattern) :
    pattern.flatMap Piece.declared = name ∧ pattern.all Piece.isLetter = true := by
  fun_induction patternOf name generalizing pattern with
  | case1 =>
    cases h
    exact ⟨rfl, rfl⟩
  | case2 rest ih | case3 rest ih | case4 rest ih | case5 rest ih =>
    obtain ⟨others, hothers, rfl⟩ := Option.map_eq_some_iff.1 h
    obtain ⟨hrest, hall⟩ := ih hothers
    rw [List.flatMap_cons, hrest]
    exact ⟨rfl, hall⟩
  | case6 c rest _ _ _ _ hsafe ih =>
    obtain ⟨others, hothers, rfl⟩ := Option.map_eq_some_iff.1 h
    obtain ⟨hrest, hall⟩ := ih hothers
    rw [List.flatMap_cons, hrest, List.all_cons, hall, Bool.and_true]
    exact ⟨rfl, hsafe⟩
  | case7 => cases h

theorem chunks_letter {c : Char} (h : safeFilenameChar c = true) (rest : Name) :
    chunks none (c :: rest) = .letter c :: chunks none rest := by
  have hc : c ≠ '{' := by
    rintro rfl
    revert h
    decide
  rw [chunks, if_neg hc]

theorem chunks_token (t : FilenameToken) (rest : Name) :
    chunks none (Piece.declared (.token t) ++ rest) = .braced t.text :: chunks none rest := by
  cases t <;> rfl

theorem chunks_of_patternOf {name : Name} {pattern : Pattern}
    (h : patternOf name = some pattern) : chunks none name = pattern.map Piece.chunk := by
  obtain ⟨rfl, hall⟩ := declared_of_patternOf h
  clear h
  induction pattern with
  | nil => rfl
  | cons piece pattern ih =>
    rw [List.all_cons, Bool.and_eq_true] at hall
    rw [List.flatMap_cons, List.map_cons, ← ih hall.2]
    cases piece with
    | letter c => exact chunks_letter hall.1 _
    | token t => exact chunks_token t _

/-! ## The values -/

/-- Letters and digits, and one at least. -/
structure Plain (name : Name) : Prop where
  nonempty : name ≠ []
  alphanum : ∀ c ∈ name, c.isAlphanum = true

theorem toNat_of_isAlphanum {c : Char} (h : c.isAlphanum = true) : c.toNat < 128 := by
  have hcases : (decide ('A'.val ≤ c.val ∧ c.val ≤ 'Z'.val) ||
      decide ('a'.val ≤ c.val) && decide (c.val ≤ 'z'.val) ||
      decide ('0'.val ≤ c.val) && decide (c.val ≤ '9'.val)) = true := h
  simp only [Bool.or_eq_true, Bool.and_eq_true, decide_eq_true_eq,
    UInt32.le_iff_toNat_le] at hcases
  have h0 : c.toNat = c.val.toNat := rfl
  have hZ : 'Z'.val.toNat = 90 := rfl
  have hz : 'z'.val.toNat = 122 := rfl
  have hnine : '9'.val.toNat = 57 := rfl
  simp only [hZ, hz, hnine, ← h0] at hcases
  omega

theorem toNat_of_safe {c : Char} (h : safeFilenameChar c = true) : c.toNat < 128 := by
  simp only [safeFilenameChar, Bool.or_eq_true, decide_eq_true_eq] at h
  rcases h with ((h | rfl) | rfl) | rfl
  · exact toNat_of_isAlphanum h
  · decide
  · decide
  · decide

theorem forall_safe {P : Char → Prop}
    (h : ∀ n < 128, safeFilenameChar (Char.ofNat n) = true → P (Char.ofNat n)) {c : Char}
    (hc : safeFilenameChar c = true) : P c := by
  have hn := h c.toNat (toNat_of_safe hc)
  rw [Char.ofNat_toNat] at hn
  exact hn hc

theorem safe_of_isAlphanum {c : Char} (h : c.isAlphanum = true) : safeFilenameChar c = true := by
  unfold safeFilenameChar
  rw [h]
  rfl

theorem isAlphanum_toUpper {c : Char} (h : c.isAlphanum = true) : c.toUpper.isAlphanum = true := by
  have hsafe := safe_of_isAlphanum h
  revert h
  exact @forall_safe (fun c => c.isAlphanum = true → c.toUpper.isAlphanum = true) (by decide) c
    hsafe

theorem joinWords_alphanum (behind : Bool) (value : Name) :
    ∀ c ∈ joinWords behind value, c.isAlphanum = true := by
  induction value generalizing behind with
  | nil => exact fun c hc => absurd hc List.not_mem_nil
  | cons a value ih =>
    unfold joinWords
    split_ifs with ha hbehind
    · intro c hc
      rcases List.mem_cons.1 hc with rfl | hc
      · exact isAlphanum_toUpper ha
      · exact ih false c hc
    · intro c hc
      rcases List.mem_cons.1 hc with rfl | hc
      · exact ha
      · exact ih false c hc
    · exact ih true

theorem plain_missing : Plain missing := by
  have hall : missing.all Char.isAlphanum = true := rfl
  exact ⟨List.cons_ne_nil _ _, List.all_eq_true.1 hall⟩

theorem normalize_spec (nfd : Name → Name) (value : Name) : Plain (normalize nfd value) := by
  unfold normalize
  dsimp only
  split_ifs with hempty
  · exact plain_missing
  · exact ⟨hempty, joinWords_alphanum _ _⟩

theorem tokenValue_spec (nfd : Name → Name) (context : FilenameContext) (token : Name) :
    Plain (tokenValue nfd context token) := by
  unfold tokenValue
  split_ifs
  · exact normalize_spec nfd _
  · exact normalize_spec nfd _
  · exact normalize_spec nfd _
  · split
    · exact plain_missing
    · split_ifs
      · exact plain_missing
      · exact normalize_spec nfd _
  · exact plain_missing

/-! ## The name -/

/-- The name with the values in place of the tokens. -/
def nameOf (value : FilenameToken → Name) (pattern : Pattern) : Name :=
  pattern.flatMap (Piece.filled value)

theorem filled_ne_nil {value : FilenameToken → Name} (h : ∀ t, Plain (value t)) (piece : Piece) :
    piece.filled value ≠ [] := by
  cases piece with
  | letter c => exact List.cons_ne_nil _ _
  | token t => exact (h t).nonempty

theorem dot_notMem_filled {value : FilenameToken → Name} (h : ∀ t, Plain (value t)) {piece : Piece}
    (hpiece : piece.isDot = false) : '.' ∉ piece.filled value := by
  cases piece with
  | letter c =>
    intro hmem
    rw [← List.mem_singleton.1 hmem] at hpiece
    exact Bool.false_ne_true hpiece.symm
  | token t =>
    intro hmem
    have hdot := (h t).alphanum _ hmem
    revert hdot
    decide

theorem dots_nameOf {value : FilenameToken → Name} (h : ∀ t, Plain (value t)) (pattern : Pattern) :
    "..".toList <:+: nameOf value pattern ↔ "..".toList <:+: pattern.flatMap Piece.declared := by
  have hdot : ∀ piece : Piece, piece.isDot = true → piece = .letter '.' := by
    intro piece hpiece
    cases piece with
    | letter c => rw [of_decide_eq_true hpiece]
    | token t => cases hpiece
  have hfilled := @isChain_flatMap_pieces Piece Char '.' Piece.isDot (Piece.filled value)
    (filled_ne_nil h) (fun piece hpiece => by rw [hdot piece hpiece]; rfl)
    (fun piece hpiece => dot_notMem_filled h hpiece) pattern
  have hdeclared := @isChain_flatMap_pieces Piece Char '.' Piece.isDot Piece.declared
    (fun piece => by cases piece <;> exact List.cons_ne_nil _ _)
    (fun piece hpiece => by rw [hdot piece hpiece]; rfl)
    (fun piece hpiece => by
      cases piece with
      | letter c =>
        intro hmem
        rw [← List.mem_singleton.1 hmem] at hpiece
        cases hpiece
      | token t => cases t <;> decide) pattern
  show ['.', '.'] <:+: nameOf value pattern ↔ ['.', '.'] <:+: _
  rw [infix_pair_iff, infix_pair_iff, hdeclared, nameOf, hfilled]

theorem all_safe_nameOf {value : FilenameToken → Name} (h : ∀ t, Plain (value t))
    {pattern : Pattern} (hall : pattern.all Piece.isLetter = true) :
    (nameOf value pattern).all safeFilenameChar = true := by
  unfold nameOf
  rw [List.all_flatMap]
  apply List.all_eq_true.2
  intro piece hpiece
  have hletter := List.all_eq_true.1 hall piece hpiece
  apply List.all_eq_true.2
  cases piece with
  | letter c =>
    intro b hb
    rw [List.mem_singleton.1 hb]
    exact hletter
  | token t => exact fun b hb => safe_of_isAlphanum ((h t).alphanum b hb)

theorem safeFilename_nameOf {value : FilenameToken → Name} (h : ∀ t, Plain (value t))
    {name : Name} {pattern : Pattern} (hname : MatchesTemplate name)
    (hpattern : patternOf name = some pattern) : SafeFilename (nameOf value pattern) := by
  obtain ⟨hdeclared, hall⟩ := declared_of_patternOf hpattern
  refine ⟨?_, ?_, all_safe_nameOf h hall⟩
  · cases pattern with
    | nil => exact absurd hdeclared.symm hname.1
    | cons piece pattern =>
      exact List.append_ne_nil_of_left_ne_nil (filled_ne_nil h piece) _
  · rw [dots_nameOf h, hdeclared]
    exact hname.2.1

/-- What the context of a student has for a token. -/
def valueOf (nfd : Name → Name) (context : FilenameContext) (t : FilenameToken) : Name :=
  tokenValue nfd context t.text

theorem valueOf_spec (nfd : Name → Name) (context : FilenameContext) (t : FilenameToken) :
    Plain (valueOf nfd context t) := tokenValue_spec nfd context t.text

theorem replaced_chunks (nfd : Name → Name) (context : FilenameContext) (pattern : Pattern) :
    (pattern.map Piece.chunk).flatMap (Chunk.replaced (tokenValue nfd context)) =
      nameOf (valueOf nfd context) pattern := by
  rw [List.flatMap_map]
  apply List.flatMap_congr
  intro piece _
  cases piece <;> rfl

theorem nameOf_of_letters (value : FilenameToken → Name) {pattern : Pattern}
    (h : (pattern.map Piece.chunk).any Chunk.isBraced = false) :
    nameOf value pattern = pattern.flatMap Piece.declared := by
  apply List.flatMap_congr
  intro piece hpiece
  cases piece with
  | letter c => rfl
  | token t =>
    have hno := List.any_eq_false.1 h _ (List.mem_map_of_mem hpiece)
    exact absurd rfl hno

theorem renderFilename_eq (nfd : Name → Name) {name : Name} (context : FilenameContext)
    {pattern : Pattern} (hname : MatchesTemplate name) (hpattern : patternOf name = some pattern) :
    renderFilename nfd name context = nameOf (valueOf nfd context) pattern := by
  have hsafe := safeFilename_nameOf (valueOf_spec nfd context) hname hpattern
  unfold renderFilename isTemplatedFilename
  dsimp only
  rw [chunks_of_patternOf hpattern, replaced_chunks, if_pos hsafe]
  split_ifs with htemplated
  · rfl
  · rw [nameOf_of_letters _ (Bool.eq_false_iff.2 htemplated), (declared_of_patternOf hpattern).1]

theorem safeFilename_renderFilename (nfd : Name → Name) {name : Name} (context : FilenameContext)
    (hname : MatchesTemplate name) : SafeFilename (renderFilename nfd name context) := by
  obtain ⟨pattern, hpattern⟩ := Option.isSome_iff_exists.1 hname.2.2
  rw [renderFilename_eq nfd context hname hpattern]
  exact safeFilename_nameOf (valueOf_spec nfd context) hname hpattern

end Cine.Exam.FilenameTemplate
