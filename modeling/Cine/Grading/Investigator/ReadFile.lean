import Cine.Grading.Investigator.Truncate

/-!
# Reading a file in pieces

`sliceLines` and `readFile` of `grading/investigator/tools.ts`, with the files of
`workspace.ts` and the envelope of `harness/submission-envelope.ts`.  An answer
shows whole lines, as many as fit, and names the line to go on with.

* `pickLines_spec`: what the loop over the lines takes.
* `Shows`: what one answer shows, and `sliceLines_shows`.
* `readPages_spec`: a reader that goes on behind the last line that it saw gets
  every line once.
* `byteLength_answer_le`: what stands around the lines fits beside them, so
  that an answer is not cut again.
-/

namespace Cine.Grading

open Cine.Lib Cine.Lib.Utf8

/-! ## Lines -/

def newline : Nat := 0x0A

/-- `lines.join('\n')`. -/
def joinLines (lines : List (List Nat)) : List Nat := [newline].intercalate lines

/-- The lines of a file.  Behind a final line end there is no line. -/
def contentLines (content : List Nat) : List (List Nat) :=
  let lines := content.splitOn newline
  if 1 < lines.length ∧ lines.getLast? = some [] then lines.dropLast else lines

/-! ## A slice of the lines -/

/-- An argument that should be a line number or `null`. -/
inductive LineArg
  | absent
  | whole (n : Int)
  | other

def LineArg.isValid : LineArg → Bool
  | .absent => true
  | .whole n => 1 ≤ n
  | .other => false

/-- `arg ?? line`, for a valid argument. -/
def LineArg.lineOr (arg : LineArg) (line : Nat) : Nat :=
  match arg with
  | .whole n => n.toNat
  | _ => line

structure Slice where
  fromLine : Nat
  toLine : Nat
  total : Nat
  text : List Nat

def READ_CHUNK_BYTES : Nat := TOOL_OUTPUT_MAX_BYTES - 1024

/-- The loop over the lines, with the lines and the bytes that are picked. -/
def pickLines (picked : List (List Nat)) (bytes : Nat) : List (List Nat) → List (List Nat)
  | [] => picked
  | line :: rest =>
    let size := byteLength line + 1
    if 0 < picked.length ∧ READ_CHUNK_BYTES < bytes + size then picked
    else pickLines (picked ++ [line]) (bytes + size) rest

def sliceLines (content : List Nat) (fromLine toLine : LineArg) : Except String Slice :=
  let lines := contentLines content
  let total := lines.length
  if ¬ (fromLine.isValid ∧ toLine.isValid) then
    .error "fromLine và toLine phải là số nguyên ≥ 1, hoặc null"
  else
    let first := fromLine.lineOr 1
    let until_ := toLine.lineOr total
    if total < first then
      .error ("file có " ++ toString total ++ " dòng — fromLine=" ++ toString first ++ " vượt quá")
    else if until_ < first then
      .error ("toLine=" ++ toString until_ ++ " nhỏ hơn fromLine=" ++ toString first)
    else
      let picked :=
        pickLines [] 0 ((lines.drop (first - 1)).take (Nat.min until_ total + 1 - first))
      .ok
        { fromLine := first
          toLine := first - 1 + picked.length
          total
          text := joinLines picked }

/-! ## The answer -/

inductive FileSource
  | submission
  | system
deriving DecidableEq, Repr

structure WorkspaceFile where
  path : List Char
  content : List Nat
  source : FileSource

/-- The texts of the files that the system writes, and the files of the student
by their paths. -/
structure InvestigationFiles where
  statement : List Nat
  rules : List Nat
  testGroups : List Nat
  submission : List (List Char × List Nat)

/-- `Workspace.fromContext`. -/
def workspaceFiles (ctx : InvestigationFiles) : List WorkspaceFile :=
  [⟨"de-bai.md".toList, ctx.statement, .system⟩, ⟨"bang-loi.md".toList, ctx.rules, .system⟩,
      ⟨"goi-test.md".toList, ctx.testGroups, .system⟩] ++
    ctx.submission.map fun f => ⟨"bai-nop/".toList ++ f.1, f.2, .submission⟩

/-- `randomBytes(8).toString('hex')`. -/
structure Nonce where
  chars : List Char
  length_eq : chars.length = 16
  ascii : IsAscii chars

/-- `wrapSubmission`, without the search for markers in the text. -/
def wrapSubmission (nonce : Nonce) (rawText : List Nat) : List Nat :=
  joinLines [charUnits ("Mã định danh lượt này: ".toList ++ nonce.chars),
    charUnits ("===BEGIN SUBMISSION ".toList ++ nonce.chars ++ "===".toList), rawText,
    charUnits ("===END SUBMISSION ".toList ++ nonce.chars ++ "===".toList)]

/-- The line over an answer.  A name that the student gave is not repeated in it. -/
def headerOf (file : WorkspaceFile) (s : Slice) : List Char :=
  let path := match file.source with
    | .system => file.path
    | .submission => "File bài nộp".toList
  let again := match file.source with
    | .system => '"' :: file.path ++ ['"']
    | .submission => "<cùng path>".toList
  path ++ " — dòng ".toList ++ Nat.toDigits 10 s.fromLine ++ "–".toList ++
    Nat.toDigits 10 s.toLine ++ " trên tổng ".toList ++ Nat.toDigits 10 s.total ++
    " dòng".toList ++
    if s.toLine < s.total then
      " · còn tiếp: read_file(".toList ++ again ++ ", fromLine=".toList ++
        Nat.toDigits 10 (s.toLine + 1) ++ ")".toList
    else []

/-- `readFile`, of a file that was found. -/
def readFile (nonce : Nonce) (file : WorkspaceFile) (fromLine toLine : LineArg) :
    Except String (List Nat) :=
  (sliceLines file.content fromLine toLine).map fun s =>
    joinLines [charUnits (headerOf file s), match file.source with
      | .system => s.text
      | .submission => wrapSubmission nonce s.text]

/-- The output of the tool call. -/
def readFileOutput (nonce : Nonce) (file : WorkspaceFile) (fromLine toLine : LineArg) :
    Except String (List Nat) :=
  (readFile nonce file fromLine toLine).map fun text => truncateOutput text TOOL_OUTPUT_MAX_BYTES

/-! ## Bytes of lines -/

/-- The bytes of the lines, each with its line end. -/
def linesBytes : List (List Nat) → Nat
  | [] => 0
  | line :: lines => byteLength line + 1 + linesBytes lines

theorem linesBytes_append (a b : List (List Nat)) :
    linesBytes (a ++ b) = linesBytes a + linesBytes b := by
  induction a with
  | nil => exact (Nat.zero_add _).symm
  | cons line a ih =>
    rw [List.cons_append, linesBytes, linesBytes, ih]
    omega

theorem length_le_linesBytes (lines : List (List Nat)) : lines.length ≤ linesBytes lines := by
  induction lines with
  | nil => exact Nat.le_refl 0
  | cons line lines ih =>
    rw [List.length_cons, linesBytes]
    omega

theorem joinLines_cons {line : List Nat} {lines : List (List Nat)} (h : lines ≠ []) :
    joinLines (line :: lines) = line ++ newline :: joinLines lines := by
  unfold joinLines
  rw [List.intercalate_cons_of_ne_nil h, List.append_assoc]
  rfl

theorem joinLines_append {a b : List (List Nat)} (ha : a ≠ []) (hb : b ≠ []) :
    joinLines (a ++ b) = joinLines a ++ newline :: joinLines b := by
  induction a with
  | nil => exact absurd rfl ha
  | cons line a ih =>
    by_cases hnil : a = []
    · subst hnil
      rw [List.singleton_append, joinLines_cons hb]
      unfold joinLines
      rw [List.intercalate_singleton]
    · rw [List.cons_append, joinLines_cons (List.append_ne_nil_of_left_ne_nil hnil b), ih hnil,
        joinLines_cons hnil, List.append_assoc, List.cons_append]

theorem byteLength_newline (a b : List Nat) :
    byteLength (a ++ newline :: b) = byteLength a + 1 + byteLength b := by
  have hchars : readChars (a ++ newline :: b) = readChars a ++ '\n' :: readChars b := by
    unfold readChars
    rw [codePoints_append_cons (by decide), List.map_append, List.map_cons]
    rfl
  have hone : (encodeChar '\n').length = 1 := by decide
  unfold byteLength
  rw [hchars, length_encode_append, encode_cons, List.length_append]
  omega

theorem byteLength_joinLines {lines : List (List Nat)} (h : lines ≠ []) :
    byteLength (joinLines lines) + 1 = linesBytes lines := by
  induction lines with
  | nil => exact absurd rfl h
  | cons line lines ih =>
    by_cases hnil : lines = []
    · subst hnil
      unfold joinLines
      rw [List.intercalate_singleton]
      rfl
    · rw [joinLines_cons hnil, byteLength_newline, linesBytes, ← ih hnil]
      omega

theorem contentLines_ne_nil (content : List Nat) : contentLines content ≠ [] := by
  have hsplit : content.splitOn newline ≠ [] := List.splitOnP_ne_nil _ _
  unfold contentLines
  dsimp only
  split_ifs with hlast
  · intro hnil
    have hlength := congrArg List.length hnil
    rw [List.length_dropLast, List.length_nil] at hlength
    omega
  · exact hsplit

theorem content_eq (content : List Nat) : content = joinLines (contentLines content) ∨
    content = joinLines (contentLines content) ++ [newline] := by
  have hjoin : joinLines (content.splitOn newline) = content := List.intercalate_splitOn newline
  have hne := contentLines_ne_nil content
  unfold contentLines at hne ⊢
  dsimp only at hne ⊢
  split_ifs at hne ⊢ with hlast
  · right
    obtain ⟨front, hfront⟩ := List.getLast?_eq_some_iff.1 hlast.2
    rw [hfront, List.dropLast_concat] at hne ⊢
    rw [← hjoin, hfront, joinLines_append hne (List.cons_ne_nil _ _)]
    unfold joinLines
    rw [List.intercalate_singleton]
  · exact Or.inl hjoin.symm

theorem length_contentLines_le (content : List Nat) :
    (contentLines content).length ≤ 4 * content.length + 1 := by
  have hbytes := byteLength_le content
  have hlines := length_le_linesBytes (contentLines content)
  rw [← byteLength_joinLines (contentLines_ne_nil content)] at hlines
  have hjoin : byteLength (joinLines (contentLines content)) ≤ byteLength content := by
    rcases content_eq content with h | h
    · exact Nat.le_of_eq (congrArg byteLength h.symm)
    · have hend := congrArg byteLength h
      rw [byteLength_newline] at hend
      omega
  omega

/-! ## What a slice shows -/

theorem pickLines_spec (picked : List (List Nat)) (rest : List (List Nat))
    (hfits : 1 < picked.length → linesBytes picked ≤ READ_CHUNK_BYTES) :
    ∃ taken, taken <+: rest ∧ pickLines picked (linesBytes picked) rest = picked ++ taken ∧
      (picked = [] → rest ≠ [] → taken ≠ []) ∧
        (1 < (picked ++ taken).length → linesBytes (picked ++ taken) ≤ READ_CHUNK_BYTES) := by
  induction rest generalizing picked with
  | nil =>
    refine ⟨[], List.prefix_refl [], (List.append_nil picked).symm, fun _ h => h, ?_⟩
    rw [List.append_nil]
    exact hfits
  | cons line rest ih =>
    rw [pickLines]
    split_ifs with hfull
    · refine ⟨[], List.nil_prefix, (List.append_nil picked).symm, fun hnil => ?_, ?_⟩
      · rw [hnil] at hfull
        exact absurd hfull.1 (Nat.lt_irrefl 0)
      · rw [List.append_nil]
        exact hfits
    · have hbytes : linesBytes (picked ++ [line]) = linesBytes picked + (byteLength line + 1) := by
        rw [linesBytes_append]
        rfl
      have hnext : 1 < (picked ++ [line]).length →
          linesBytes (picked ++ [line]) ≤ READ_CHUNK_BYTES := by
        rw [List.length_append, List.length_singleton, hbytes]
        omega
      obtain ⟨taken, hprefix, heq, -, hsize⟩ := ih (picked ++ [line]) hnext
      rw [List.append_assoc, List.singleton_append] at heq hsize
      refine ⟨line :: taken, List.cons_prefix_cons.2 ⟨rfl, hprefix⟩, ?_, ?_, hsize⟩
      · rw [← hbytes]
        exact heq
      · exact fun _ _ => List.cons_ne_nil _ _

/-- What a slice shows of a file: whole lines, from one that exists on. -/
structure Shows (content : List Nat) (s : Slice) : Prop where
  first : 1 ≤ s.fromLine
  progress : s.fromLine ≤ s.toLine
  within : s.toLine ≤ s.total
  total : s.total = (contentLines content).length
  text : s.text =
    joinLines (((contentLines content).drop (s.fromLine - 1)).take (s.toLine + 1 - s.fromLine))
  fits : s.fromLine < s.toLine → byteLength s.text < READ_CHUNK_BYTES

theorem lineOr_pos {arg : LineArg} {line : Nat} (h : arg.isValid = true) (hline : 1 ≤ line) :
    1 ≤ arg.lineOr line := by
  cases arg with
  | absent => exact hline
  | whole n =>
    have := of_decide_eq_true h
    unfold LineArg.lineOr
    dsimp only
    omega
  | other => cases h

variable {content : List Nat} {s : Slice} {file : WorkspaceFile}

theorem sliceLines_shows {fromLine toLine : LineArg}
    (h : sliceLines content fromLine toLine = .ok s) : Shows content s := by
  unfold sliceLines at h
  dsimp only at h
  split_ifs at h with hvalid hbeyond hreversed
  have hfirst := lineOr_pos hvalid.1 (Nat.le_refl 1)
  generalize fromLine.lineOr 1 = first at *
  generalize toLine.lineOr (contentLines content).length = last at *
  generalize hcount : Nat.min last (contentLines content).length + 1 - first = count at *
  have hmin : Nat.min last (contentLines content).length ≤ (contentLines content).length :=
    Nat.min_le_right _ _
  have hlower : first ≤ Nat.min last (contentLines content).length :=
    Nat.le_min.2 ⟨by omega, by omega⟩
  obtain ⟨taken, hprefix, hpick, hsome, hsize⟩ := pickLines_spec []
    (((contentLines content).drop (first - 1)).take count)
    (fun hlt => absurd hlt (Nat.not_lt_zero 1))
  rw [List.nil_append] at hpick hsize
  have hcountLines : (((contentLines content).drop (first - 1)).take count).length = count := by
    rw [List.length_take, List.length_drop]
    omega
  have htaken : taken ≠ [] := by
    refine hsome rfl (List.length_pos_iff_ne_nil.1 ?_)
    omega
  have hpos : 0 < taken.length := List.length_pos_iff_ne_nil.2 htaken
  have hlength : taken.length ≤ count := hcountLines ▸ hprefix.length_le
  rw [show pickLines [] 0 _ = taken from hpick] at h
  cases h
  constructor
  · exact hfirst
  · show first ≤ first - 1 + taken.length
    omega
  · show first - 1 + taken.length ≤ (contentLines content).length
    omega
  · rfl
  · show joinLines taken = joinLines (((contentLines content).drop (first - 1)).take
      (first - 1 + taken.length + 1 - first))
    have hexact : first - 1 + taken.length + 1 - first = taken.length := by omega
    rw [hexact]
    refine congrArg joinLines ?_
    have htake := List.prefix_iff_eq_take.1 hprefix
    rw [List.take_take, Nat.min_eq_left hlength] at htake
    exact htake
  · intro hmany
    have hmany : first < first - 1 + taken.length := hmany
    have hbytes := hsize (by omega)
    have hjoin := byteLength_joinLines htaken
    show byteLength (joinLines taken) < READ_CHUNK_BYTES
    omega

theorem sliceLines_ok {first : Nat} (hpos : 1 ≤ first) (hle : first ≤ (contentLines content).length) :
    ∃ s, sliceLines content (.whole first) .absent = .ok s ∧ s.fromLine = first := by
  have hvalid : (LineArg.whole first).isValid = true ∧ LineArg.absent.isValid = true :=
    ⟨decide_eq_true (by omega), rfl⟩
  have hfirst : (LineArg.whole first).lineOr 1 = first := Int.toNat_natCast first
  have hlast : LineArg.absent.lineOr (contentLines content).length =
      (contentLines content).length := rfl
  unfold sliceLines
  dsimp only
  rw [if_neg (not_not_intro hvalid), hfirst, hlast, if_neg (not_lt.2 hle), if_neg (not_lt.2 hle)]
  exact ⟨_, rfl, rfl⟩

/-! ## A reader that goes on behind the last line -/

/-- The requests of a reader, who goes on behind the last line that was shown until
there are no more, and the slices that are shown. -/
def readPages (content : List Nat) : Nat → Nat → Option (List Slice)
  | 0, _ => none
  | fuel + 1, first =>
    match sliceLines content (.whole first) .absent with
    | .error _ => none
    | .ok s =>
      if s.toLine < s.total then (readPages content fuel (s.toLine + 1)).map (s :: ·) else some [s]

def Slice.lineNumbers (s : Slice) : List Nat := List.range' s.fromLine (s.toLine + 1 - s.fromLine)

/-- Slices that show a file from a line on. -/
structure Pages (content : List Nat) (first : Nat) (slices : List Slice) : Prop where
  nonempty : slices ≠ []
  asked : ∀ s ∈ slices, sliceLines content (.whole s.fromLine) .absent = .ok s
  once : slices.flatMap Slice.lineNumbers =
    List.range' first ((contentLines content).length + 1 - first)
  whole : joinLines (slices.map Slice.text) = joinLines ((contentLines content).drop (first - 1))

theorem pages_last (h : Shows content s)
    (hasked : sliceLines content (.whole s.fromLine) .absent = .ok s) (hlast : ¬ s.toLine < s.total) :
    Pages content s.fromLine [s] := by
  have hwithin := h.within
  have hprogress := h.progress
  have hend : s.toLine = (contentLines content).length := by
    rw [← h.total]
    omega
  constructor
  · exact List.cons_ne_nil _ _
  · intro t ht
    rw [List.mem_singleton.1 ht]
    exact hasked
  · rw [List.flatMap_singleton, Slice.lineNumbers, hend]
  · rw [List.map_singleton, h.text, List.take_of_length_le]
    · exact List.intercalate_singleton
    · rw [List.length_drop]
      omega

theorem pages_cons {slices : List Slice} (h : Shows content s)
    (hasked : sliceLines content (.whole s.fromLine) .absent = .ok s) (hmore : s.toLine < s.total)
    (hrest : Pages content (s.toLine + 1) slices) : Pages content s.fromLine (s :: slices) := by
  have hfirst := h.first
  have hprogress := h.progress
  have htotal := h.total
  constructor
  · exact List.cons_ne_nil _ _
  · exact List.forall_mem_cons.2 ⟨hasked, hrest.asked⟩
  · have hjoint : s.fromLine + (s.toLine + 1 - s.fromLine) = s.toLine + 1 := by omega
    have hcount : (contentLines content).length + 1 - s.fromLine =
        (s.toLine + 1 - s.fromLine) + ((contentLines content).length + 1 - (s.toLine + 1)) := by
      omega
    rw [List.flatMap_cons, hrest.once, hcount, ← List.range'_append_1, hjoint]
    rfl
  · have hchunk : ((contentLines content).drop (s.fromLine - 1)).take
        (s.toLine + 1 - s.fromLine) ≠ [] := by
      refine List.length_pos_iff_ne_nil.1 ?_
      rw [List.length_take, List.length_drop]
      omega
    have hdrop : (contentLines content).drop s.toLine ≠ [] := by
      refine List.length_pos_iff_ne_nil.1 ?_
      rw [List.length_drop]
      omega
    have hsplit : s.fromLine - 1 + (s.toLine + 1 - s.fromLine) = s.toLine := by omega
    have hwhole := hrest.whole
    rw [Nat.add_sub_cancel] at hwhole
    rw [List.map_cons, joinLines_cons (by simpa using hrest.nonempty), hwhole, h.text,
      ← joinLines_append hchunk hdrop]
    refine congrArg joinLines ?_
    have htake := List.take_append_drop (s.toLine + 1 - s.fromLine)
      ((contentLines content).drop (s.fromLine - 1))
    rw [List.drop_drop, hsplit] at htake
    exact htake

theorem readPages_spec {n first : Nat} (hpos : 1 ≤ first)
    (hle : first ≤ (contentLines content).length) (hn : (contentLines content).length < first + n) :
    ∃ slices, (∀ fuel ≥ n, readPages content fuel first = some slices) ∧
      Pages content first slices := by
  induction n generalizing first with
  | zero => omega
  | succ n ih =>
    obtain ⟨s, hs, rfl⟩ := sliceLines_ok hpos hle
    have hshows := sliceLines_shows hs
    have hprogress := hshows.progress
    have htotal := hshows.total
    by_cases hmore : s.toLine < s.total
    · obtain ⟨slices, hrun, hpages⟩ := ih (Nat.le_add_left 1 s.toLine) (by omega) (by omega)
      refine ⟨s :: slices, fun fuel hfuel => ?_, pages_cons hshows hs hmore hpages⟩
      obtain ⟨k, rfl⟩ : ∃ k, fuel = k + 1 := ⟨fuel - 1, by omega⟩
      rw [readPages, hs]
      dsimp only
      rw [if_pos hmore, hrun k (by omega)]
      rfl
    · refine ⟨[s], fun fuel hfuel => ?_, pages_last hshows hs hmore⟩
      obtain ⟨k, rfl⟩ : ∃ k, fuel = k + 1 := ⟨fuel - 1, by omega⟩
      rw [readPages, hs]
      exact if_neg hmore

/-! ## The bytes of an answer -/

theorem path_of_system {ctx : InvestigationFiles} (hfile : file ∈ workspaceFiles ctx)
    (hsource : file.source = .system) : (encode file.path).length ≤ 11 := by
  unfold workspaceFiles at hfile
  rcases List.mem_append.1 hfile with hfile | hfile
  · simp only [List.mem_cons, List.not_mem_nil, or_false] at hfile
    rcases hfile with rfl | rfl | rfl
    · exact (by decide : (encode "de-bai.md".toList).length ≤ 11)
    · exact (by decide : (encode "bang-loi.md".toList).length ≤ 11)
    · exact (by decide : (encode "goi-test.md".toList).length ≤ 11)
  · obtain ⟨f, -, rfl⟩ := List.mem_map.1 hfile
    cases hsource

theorem length_header_le (hpath : file.source = .system → (encode file.path).length ≤ 11)
    (hprogress : s.fromLine ≤ s.toLine) (hwithin : s.toLine ≤ s.total)
    (htotal : s.total + 1 < 10 ^ 20) : (encode (headerOf file s)).length ≤ 200 := by
  have hfrom := length_encode_toDigits (n := s.fromLine) (k := 20) (by decide) (by omega)
  have hto := length_encode_toDigits (n := s.toLine) (k := 20) (by decide) (by omega)
  have hall := length_encode_toDigits (n := s.total) (k := 20) (by decide) (by omega)
  have hnext := length_encode_toDigits (n := s.toLine + 1) (k := 20) (by decide) (by omega)
  have hline : (encode " — dòng ".toList).length = 11 := by decide
  have hdash : (encode "–".toList).length = 3 := by decide
  have hof : (encode " trên tổng ".toList).length = 14 := by decide
  have hlines : (encode " dòng".toList).length = 6 := by decide
  have hmore : (encode " · còn tiếp: read_file(".toList).length = 27 := by decide
  have hat : (encode ", fromLine=".toList).length = 11 := by decide
  have hclose : (encode ")".toList).length = 1 := by decide
  have hquote : (encode ['"']).length = 1 := by decide
  have hname : (encode "File bài nộp".toList).length = 15 := by decide
  have hsame : (encode "<cùng path>".toList).length = 12 := by decide
  have hquoted : (encode ('"' :: file.path ++ ['"'])).length = (encode file.path).length + 2 := by
    rw [← List.singleton_append, List.append_assoc, length_encode_append, length_encode_append,
      hquote]
    omega
  unfold headerOf
  dsimp only
  simp only [length_encode_append, hline, hdash, hof, hlines]
  cases hsource : file.source with
  | system =>
    have := hpath hsource
    dsimp only
    split_ifs
    · simp only [length_encode_append, hquoted, hmore, hat, hclose]
      omega
    · show _ + 0 ≤ 200
      omega
  | submission =>
    dsimp only
    split_ifs
    · simp only [length_encode_append, hsame, hname, hmore, hat, hclose]
      omega
    · show _ + 0 ≤ 200
      omega

theorem byteLength_wrapSubmission (nonce : Nonce) (text : List Nat) :
    byteLength (wrapSubmission nonce text) = byteLength text + 126 := by
  have hnonce : (encode nonce.chars).length = 16 :=
    (length_encode_ascii nonce.ascii).trans nonce.length_eq
  have hid : (encode "Mã định danh lượt này: ".toList).length = 31 := by decide
  have hbegin : (encode "===BEGIN SUBMISSION ".toList).length = 20 := by decide
  have hend : (encode "===END SUBMISSION ".toList).length = 18 := by decide
  have hbar : (encode "===".toList).length = 3 := by decide
  have hjoin := byteLength_joinLines (List.cons_ne_nil
    (charUnits ("Mã định danh lượt này: ".toList ++ nonce.chars))
    [charUnits ("===BEGIN SUBMISSION ".toList ++ nonce.chars ++ "===".toList), text,
      charUnits ("===END SUBMISSION ".toList ++ nonce.chars ++ "===".toList)])
  simp only [linesBytes, byteLength_charUnits, length_encode_append, hnonce, hid, hbegin, hend,
    hbar] at hjoin
  unfold wrapSubmission
  omega

theorem readFileOutput_eq {ctx : InvestigationFiles} (hfile : file ∈ workspaceFiles ctx)
    (hlength : file.content.length < 2 ^ 53) (nonce : Nonce) {fromLine toLine : LineArg}
    (hs : sliceLines file.content fromLine toLine = .ok s)
    (hfits : byteLength s.text < READ_CHUNK_BYTES) :
    readFileOutput nonce file fromLine toLine = readFile nonce file fromLine toLine := by
  have hshows := sliceLines_shows hs
  have htotal := hshows.total
  have hlines := length_contentLines_le file.content
  have hheader := length_header_le (fun hsource => path_of_system hfile hsource) hshows.progress
    hshows.within (by omega)
  have hbody : ∀ body, byteLength body ≤ byteLength s.text + 126 →
      byteLength (joinLines [charUnits (headerOf file s), body]) ≤ TOOL_OUTPUT_MAX_BYTES := by
    intro body hlong
    have hjoin := byteLength_joinLines (List.cons_ne_nil (charUnits (headerOf file s)) [body])
    simp only [linesBytes, byteLength_charUnits] at hjoin
    unfold READ_CHUNK_BYTES TOOL_OUTPUT_MAX_BYTES at hfits
    unfold TOOL_OUTPUT_MAX_BYTES
    omega
  unfold readFileOutput readFile
  rw [hs]
  dsimp only [Except.map]
  rw [truncateOutput_short]
  apply hbody
  cases file.source with
  | system => exact Nat.le_add_right _ _
  | submission => exact Nat.le_of_eq (byteLength_wrapSubmission nonce s.text)

/-- A reader who starts with line 1 and goes on behind the last line that was shown
comes to the end, and the slices show every line once, in their order: joined, they
are the file, without a final line end.  A slice of several lines fits into the
bytes of a piece, and no part of its answer is cut away. -/
theorem readPages_whole (ctx : InvestigationFiles) (file : WorkspaceFile)
    (hfile : file ∈ workspaceFiles ctx) (hlength : file.content.length < 2 ^ 53) :
    ∃ slices,
      (∀ fuel ≥ (contentLines file.content).length, readPages file.content fuel 1 = some slices) ∧
        slices.flatMap Slice.lineNumbers = List.range' 1 (contentLines file.content).length ∧
        (file.content = joinLines (slices.map Slice.text) ∨
          file.content = joinLines (slices.map Slice.text) ++ [newline]) ∧
        ∀ s ∈ slices, Shows file.content s ∧ (s.fromLine < s.toLine → ∀ nonce,
          readFileOutput nonce file (.whole s.fromLine) .absent =
            readFile nonce file (.whole s.fromLine) .absent) := by
  have hpos : 1 ≤ (contentLines file.content).length :=
    List.length_pos_iff_ne_nil.2 (contentLines_ne_nil file.content)
  obtain ⟨slices, hrun, hpages⟩ := readPages_spec (Nat.le_refl 1) hpos (Nat.lt_one_add_iff.2 le_rfl)
  refine ⟨slices, hrun, hpages.once, ?_, fun s hs => ?_⟩
  · rw [hpages.whole]
    exact content_eq file.content
  · have hasked := hpages.asked s hs
    have hshows := sliceLines_shows hasked
    exact ⟨hshows, fun hmany nonce =>
      readFileOutput_eq hfile hlength nonce hasked (hshows.fits hmany)⟩

/-- A file of the student, with two lines and a final line end. -/
def smallFile : WorkspaceFile :=
  ⟨"bai-nop/main.py".toList, charUnits "print(1)\nprint(2)\n".toList, .submission⟩

def smallFiles : InvestigationFiles :=
  ⟨[], [], [], [("main.py".toList, smallFile.content)]⟩

theorem readPages_small :
    ∃ slices,
      (∀ fuel ≥ (contentLines smallFile.content).length,
          readPages smallFile.content fuel 1 = some slices) ∧
        slices.flatMap Slice.lineNumbers = List.range' 1 (contentLines smallFile.content).length ∧
        (smallFile.content = joinLines (slices.map Slice.text) ∨
          smallFile.content = joinLines (slices.map Slice.text) ++ [newline]) ∧
        ∀ s ∈ slices, Shows smallFile.content s ∧ (s.fromLine < s.toLine → ∀ nonce,
          readFileOutput nonce smallFile (.whole s.fromLine) .absent =
            readFile nonce smallFile (.whole s.fromLine) .absent) :=
  readPages_whole smallFiles smallFile (List.mem_append_right _ (List.mem_singleton_self _))
    (by decide)

end Cine.Grading
