import Mathlib.Data.List.Infix
import Mathlib.Data.List.TakeWhile

/-!
# Paths as `node:path` reads them

`node:path` has two grammars, `path.posix` and `path.win32`, and a program
gets the one of the machine it runs on.

* `segments` and `splitRoot` take a path apart.
* `normalize`, `join` and `resolve` put paths together.  `push` is what `.` and
  `..` do to the names so far.
* The names that are left are `Parts`, and `IsName`s from a root.
-/

namespace Cine.Lib.NodePath

inductive Platform
  | posix
  | win32
deriving DecidableEq, Repr

/-- The characters that separate the segments of a path. -/
def isSep : Platform → Char → Bool
  | .posix, c => c = '/'
  | .win32, c => c = '/' || c = '\\'

/-- The length of the drive at the front of a path. -/
def driveLength : Platform → List Char → Nat
  | .win32, letter :: ':' :: _ => if letter.isAlpha then 2 else 0
  | _, _ => 0

/-- `path.basename`: the last segment, whatever separators stand behind it. -/
def basename (os : Platform) (path : List Char) : List Char :=
  (((path.drop (driveLength os path)).reverse.dropWhile (isSep os)).takeWhile
    fun c => !isSep os c).reverse

theorem driveLength_eq_zero {os : Platform} {path : List Char} (h : ':' ∉ path) :
    driveLength os path = 0 := by
  unfold driveLength
  split
  · rename_i letter rest
    exact absurd (List.mem_cons_of_mem _ List.mem_cons_self) h
  · rfl

/-- A name without separators and drive is its own last segment. -/
theorem basename_eq_self {os : Platform} {path : List Char} (hsep : ∀ c ∈ path, isSep os c = false)
    (hcolon : ':' ∉ path) : basename os path = path := by
  have hdrive : driveLength os path = 0 := driveLength_eq_zero hcolon
  have hdrop : path.reverse.dropWhile (isSep os) = path.reverse := by
    rw [List.dropWhile_eq_self_iff]
    intro hlength
    rw [hsep _ (List.mem_reverse.1 (List.getElem_mem hlength))]
    exact Bool.false_ne_true
  have htake : path.reverse.takeWhile (fun c => !isSep os c) = path.reverse := by
    rw [List.takeWhile_eq_self_iff]
    intro c hc
    rw [hsep c (List.mem_reverse.1 hc)]
    rfl
  unfold basename
  rw [hdrive, List.drop_zero, hdrop, htake, List.reverse_reverse]

/-! ## The root of a path and its segments -/

theorem plain_of_mem_splitOnP {α : Type} {p : α → Bool} {l part : List α}
    (h : part ∈ l.splitOnP p) : ∀ a ∈ part, p a = false := by
  induction l generalizing part with
  | nil =>
    rw [List.splitOnP_nil, List.mem_singleton] at h
    rw [h]
    exact fun a ha => absurd ha List.not_mem_nil
  | cons b l ih =>
    rw [List.splitOnP_cons_eq_if_modifyHead] at h
    split_ifs at h with hb
    · rcases List.mem_cons.1 h with rfl | h
      · exact fun a ha => absurd ha List.not_mem_nil
      · exact ih h
    · cases hparts : l.splitOnP p with
      | nil => exact absurd hparts (List.splitOnP_ne_nil _ _)
      | cons first rest =>
        rw [hparts, List.modifyHead_cons] at h
        rcases List.mem_cons.1 h with rfl | h
        · intro a ha
          rcases List.mem_cons.1 ha with rfl | ha
          · exact Bool.eq_false_iff.2 hb
          · apply ih _ a ha
            rw [hparts]
            exact List.mem_cons_self
        · apply ih
          rw [hparts]
          exact List.mem_cons_of_mem _ h

theorem notMem_of_mem_splitOn {α : Type} [BEq α] [LawfulBEq α] {c : α} {l part : List α}
    (h : part ∈ l.splitOn c) : c ∉ part := by
  intro hc
  have hplain := plain_of_mem_splitOnP h c hc
  rw [beq_self_eq_true] at hplain
  cases hplain

abbrev Name := List Char

def sep : Platform → Char
  | .posix => '/'
  | .win32 => '\\'

@[simp] theorem isSep_sep (os : Platform) : isSep os (sep os) = true := by
  cases os <;> rfl

theorem isSep_back : isSep .win32 '\\' = true := rfl

/-- The names between the separators of a path. -/
def segments (os : Platform) (path : Name) : List Name :=
  (path.splitOnP (isSep os)).filter (· ≠ [])

structure Root where
  device : Name
  absolute : Bool
  tail : Name

/-- A path with two separators at its front, and `rest` behind them: a host
and a share are a device. -/
def splitUnc (path rest : Name) : Root :=
  let host := rest.takeWhile fun c => !isSep .win32 c
  let share := (rest.dropWhile fun c => !isSep .win32 c).dropWhile (isSep .win32)
  if host = [] ∨ share = [] then ⟨[], true, path⟩
  else
    ⟨'\\' :: '\\' :: host ++ '\\' :: share.takeWhile fun c => !isSep .win32 c, true,
      share.dropWhile fun c => !isSep .win32 c⟩

/-- A path on a drive, from behind the colon. -/
def splitDrive (letter : Char) : Name → Root
  | [] => ⟨[letter, ':'], false, []⟩
  | c :: rest =>
    if isSep .win32 c then ⟨[letter, ':'], true, rest⟩ else ⟨[letter, ':'], false, c :: rest⟩

def splitPosix : Name → Root
  | [] => ⟨[], false, []⟩
  | c :: rest => if c = '/' then ⟨[], true, rest⟩ else ⟨[], false, c :: rest⟩

def splitWin32 : Name → Root
  | [] => ⟨[], false, []⟩
  | [c] => if isSep .win32 c then ⟨[], true, []⟩ else ⟨[], false, [c]⟩
  | c :: d :: rest =>
    if isSep .win32 c then
      if isSep .win32 d then splitUnc (c :: d :: rest) rest else ⟨[], true, d :: rest⟩
    else if c.isAlpha ∧ d = ':' then splitDrive c rest
    else ⟨[], false, c :: d :: rest⟩

/-- The root that `node:path` finds in a path. -/
def splitRoot : Platform → Name → Root
  | .posix, path => splitPosix path
  | .win32, path => splitWin32 path

def isAbsolute (os : Platform) (path : Name) : Bool := (splitRoot os path).absolute

/-! ## `normalize`, `join` and `resolve` -/

/-- One segment after the names so far. -/
def push (aboveRoot : Bool) (names : List Name) (segment : Name) : List Name :=
  if segment = ['.'] then names
  else if segment = ['.', '.'] then
    if names ≠ [] ∧ names.getLast? ≠ some ['.', '.'] then names.dropLast
    else if aboveRoot then names ++ [segment] else names
  else names ++ [segment]

/-- `normalizeString`, as the names that are left. -/
def normalNames (aboveRoot : Bool) (segments : List Name) : List Name :=
  segments.foldl (push aboveRoot) []

/-- The names with separators between them. -/
def joinNames (os : Platform) (names : List Name) : Name := [sep os].intercalate names

/-- A colon at the end of a path or before a separator. -/
def colonBeforeSep : Name → Bool
  | [] => false
  | [c] => c = ':'
  | c :: d :: rest => c = ':' && isSep .win32 d || colonBeforeSep (d :: rest)

/-- A relative path does not become a drive. -/
def anchored (os : Platform) (root : Root) (path tail : Name) : Name :=
  if os = .win32 ∧ root.device = [] ∧ root.absolute = false ∧
      (driveLength .win32 tail ≠ 0 ∨ colonBeforeSep path = true) then
    ['.', '\\'] ++ tail
  else tail

def normalize (os : Platform) (path : Name) : Name :=
  let root := splitRoot os path
  let names := joinNames os (normalNames (!root.absolute) (segments os root.tail))
  let names := if names = [] ∧ root.absolute = false then ['.'] else names
  let tail := if names ≠ [] ∧ (path.getLast?.any (isSep os)) then names ++ [sep os] else names
  root.device ++ (if root.absolute then [sep os] else []) ++ anchored os root path tail

/-- Two separators and no third one: the path of a share. -/
def namesShare : Name → Bool
  | c :: d :: e :: _ => isSep .win32 c && isSep .win32 d && !isSep .win32 e
  | _ => false

def dirname (os : Platform) (path : Name) : Name :=
  let root := splitRoot os path
  let front := (((path.reverse.dropWhile (isSep os)).dropWhile fun c => !isSep os c).drop 1).reverse
  if front.length ≤ root.device.length then
    if root.absolute then root.device ++ [sep os]
    else if root.device = [] then ['.'] else root.device
  else front

/-- Several separators at the front become one. -/
def collapse (path : Name) : Name :=
  if 2 ≤ (path.takeWhile (isSep .win32)).length then '\\' :: path.dropWhile (isSep .win32)
  else path

def join (os : Platform) (paths : List Name) : Name :=
  match paths.filter (· ≠ []) with
  | [] => ['.']
  | first :: rest =>
    let joined := joinNames os (first :: rest)
    if os = .win32 ∧ namesShare first = false then normalize os (collapse joined)
    else normalize os joined

/-- What a process has as its current folder, on a drive or without one: an
absolute path, on Windows with a device. -/
structure Process (os : Platform) (lower : Name → Name) where
  cwd : Name → Name
  absolute : ∀ device, isAbsolute os (cwd device) = true
  hasDevice : os = .win32 → ∀ device, (splitRoot os (cwd device)).device ≠ []
  onDrive : os = .win32 → ∀ letter : Char, letter.isAlpha = true →
    lower (splitRoot os (cwd [letter, ':'])).device = lower [letter, ':']

/-- What `path.resolve` has found, from the last path to the first. -/
structure Resolving where
  device : Name
  absolute : Bool
  segments : List Name

def Resolving.take (os : Platform) (lower : Name → Name) (path : Name) (r : Resolving) :
    Resolving :=
  let root := splitRoot os path
  if root.device ≠ [] ∧ r.device ≠ [] ∧ lower root.device ≠ lower r.device then r
  else
    let device := if r.device = [] then root.device else r.device
    if r.absolute then ⟨device, true, r.segments⟩
    else ⟨device, root.absolute, NodePath.segments os root.tail ++ r.segments⟩

/-- The paths and behind them the current folder. -/
def Process.located {os : Platform} {lower : Name → Name} (p : Process os lower)
    (paths : List Name) : Resolving :=
  let r := (paths.filter (· ≠ [])).foldr (Resolving.take os lower) ⟨[], false, []⟩
  r.take os lower (p.cwd r.device)

def Process.resolve {os : Platform} {lower : Name → Name} (p : Process os lower)
    (paths : List Name) : Name :=
  let r := p.located paths
  r.device ++ sep os :: joinNames os (normalNames false r.segments)

/-! ## The names of a path -/

/-- A drive, or a host with a share. -/
def IsDevice : Platform → Name → Prop
  | .posix, device => device = []
  | .win32, device => (∃ letter : Char, letter.isAlpha = true ∧ device = [letter, ':']) ∨
      ∃ host share, host ≠ [] ∧ share ≠ [] ∧ (∀ c ∈ host, isSep .win32 c = false) ∧
        (∀ c ∈ share, isSep .win32 c = false) ∧
          device = '\\' :: '\\' :: host ++ '\\' :: share

/-- The name of a file or a folder. -/
structure IsName (os : Platform) (name : Name) : Prop where
  nonempty : name ≠ []
  dot : name ≠ ['.']
  dots : name ≠ ['.', '.']
  plain : ∀ c ∈ name, isSep os c = false

theorem mem_segments {os : Platform} {path name : Name} (h : name ∈ segments os path) :
    name ≠ [] ∧ ∀ c ∈ name, isSep os c = false := by
  obtain ⟨hmem, hne⟩ := List.mem_filter.1 h
  refine ⟨of_decide_eq_true hne, ?_⟩
  exact plain_of_mem_splitOnP hmem

theorem forall_normalNames {P : Name → Prop} {aboveRoot : Bool} {segments : List Name}
    (h : ∀ segment ∈ segments, segment ≠ ['.'] →
      (segment = ['.', '.'] → aboveRoot = true) → P segment) :
    ∀ name ∈ normalNames aboveRoot segments, P name := by
  unfold normalNames
  have hall : ∀ found : List Name, (∀ name ∈ found, P name) →
      ∀ name ∈ segments.foldl (push aboveRoot) found, P name := by
    induction segments with
    | nil => exact fun found hfound => hfound
    | cons segment segments ih =>
      intro found hfound
      have happend : P segment → ∀ name ∈ found ++ [segment], P name := by
        intro hsegment name hname
        rcases List.mem_append.1 hname with hname | hname
        · exact hfound name hname
        · rw [List.mem_singleton.1 hname]
          exact hsegment
      apply ih fun name hname => h name (List.mem_cons_of_mem _ hname)
      have hput := h segment List.mem_cons_self
      unfold push
      split_ifs with hdot hdots hpop habove
      · exact hfound
      · exact fun name hname => hfound name (List.dropLast_subset _ hname)
      · exact happend (hput hdot fun _ => habove)
      · exact hfound
      · exact happend (hput hdot fun heq => absurd heq hdots)
  exact hall [] fun name hname => absurd hname List.not_mem_nil

/-- What stands between separators: no separator, and not empty. -/
def Parts (os : Platform) (names : List Name) : Prop :=
  ∀ name ∈ names, name ≠ [] ∧ ∀ c ∈ name, isSep os c = false

theorem parts_segments (os : Platform) (path : Name) : Parts os (segments os path) :=
  fun _ => mem_segments

theorem parts_normalNames {os : Platform} {segments : List Name} (aboveRoot : Bool)
    (h : Parts os segments) : Parts os (normalNames aboveRoot segments) :=
  forall_normalNames fun segment hsegment _ _ => h segment hsegment

theorem dot_notMem_normalNames (aboveRoot : Bool) (segments : List Name) :
    ['.'] ∉ normalNames aboveRoot segments := by
  intro hmem
  exact @forall_normalNames (· ≠ ['.']) aboveRoot segments (fun _ _ hdot _ => hdot) _ hmem rfl

theorem isName_normalNames {os : Platform} {segments : List Name} (h : Parts os segments) :
    ∀ name ∈ normalNames false segments, IsName os name := by
  apply forall_normalNames
  intro segment hsegment hdot hdots
  obtain ⟨hne, hplain⟩ := h segment hsegment
  exact ⟨hne, hdot, fun heq => Bool.false_ne_true (hdots heq), hplain⟩

section Names

variable {os : Platform}

theorem segments_append_sep {c : Char} (hc : isSep os c = true) (a b : Name) :
    segments os (a ++ c :: b) = segments os a ++ segments os b := by
  unfold segments
  rw [List.splitOnP_append_cons _ _ hc, List.filter_append]

theorem segments_plain {name : Name} (hne : name ≠ []) (h : ∀ c ∈ name, isSep os c = false) :
    segments os name = [name] := by
  unfold segments
  rw [List.splitOnP_eq_singleton h, List.filter_cons_of_pos (by simpa using hne), List.filter_nil]

@[simp] theorem segments_nil : segments os [] = [] := rfl

theorem segments_sep_cons {c : Char} (hc : isSep os c = true) (path : Name) :
    segments os (c :: path) = segments os path := segments_append_sep hc [] path

@[simp] theorem joinNames_singleton (name : Name) : joinNames os [name] = name :=
  List.intercalate_singleton

theorem joinNames_cons {name : Name} {names : List Name} (h : names ≠ []) :
    joinNames os (name :: names) = name ++ sep os :: joinNames os names := by
  cases names with
  | nil => exact absurd rfl h
  | cons second names =>
    unfold joinNames
    rw [List.intercalate_cons_cons, List.append_assoc]
    rfl

theorem joinNames_append {names rest : List Name} (hnames : names ≠ []) (hrest : rest ≠ []) :
    joinNames os (names ++ rest) = joinNames os names ++ sep os :: joinNames os rest := by
  induction names with
  | nil => exact absurd rfl hnames
  | cons name names ih =>
    by_cases hnil : names = []
    · rw [hnil, List.singleton_append, joinNames_cons hrest, joinNames_singleton]
    · rw [List.cons_append, joinNames_cons (List.append_ne_nil_of_left_ne_nil hnil rest), ih hnil,
        joinNames_cons hnil, List.append_assoc]
      rfl

theorem segments_joinNames {names : List Name} (h : Parts os names) :
    segments os (joinNames os names) = names := by
  induction names with
  | nil => rfl
  | cons name names ih =>
    obtain ⟨hne, hplain⟩ := h name List.mem_cons_self
    have hrest := ih fun n hn => h n (List.mem_cons_of_mem _ hn)
    by_cases hnil : names = []
    · rw [hnil, joinNames_singleton, segments_plain hne hplain]
    · rw [joinNames_cons hnil, segments_append_sep (isSep_sep os), hrest,
        segments_plain hne hplain]
      rfl

theorem head?_joinNames {names : List Name} (h : Parts os names) {c : Char}
    (hc : (joinNames os names).head? = some c) : isSep os c = false := by
  cases names with
  | nil => cases hc
  | cons name names =>
    obtain ⟨hne, hplain⟩ := h name List.mem_cons_self
    have hname : (joinNames os (name :: names)).head? = name.head? := by
      by_cases hnil : names = []
      · rw [hnil, joinNames_singleton]
      · rw [joinNames_cons hnil, List.head?_append_of_ne_nil _ hne]
    rw [hname] at hc
    exact hplain c (List.mem_of_mem_head? hc)

theorem push_dot (aboveRoot : Bool) (names : List Name) : push aboveRoot names ['.'] = names :=
  if_pos rfl

theorem push_name {aboveRoot : Bool} {names : List Name} {name : Name} (hdot : name ≠ ['.'])
    (hdots : name ≠ ['.', '.']) : push aboveRoot names name = names ++ [name] := by
  unfold push
  rw [if_neg hdot, if_neg hdots]

theorem foldl_push {names : List Name} (hdot : ['.'] ∉ names) (found : List Name)
    (segment : Name) : (push true names segment).foldl (push false) found =
      push false (names.foldl (push false) found) segment := by
  by_cases hone : segment = ['.']
  · rw [hone, push_dot, push_dot]
  · by_cases hpop : segment = ['.', '.'] ∧ names ≠ [] ∧ names.getLast? ≠ some ['.', '.']
    · obtain ⟨rfl, hne, hlast⟩ := hpop
      have htrue : push true names ['.', '.'] = names.dropLast := by
        unfold push
        rw [if_neg (by decide), if_pos rfl, if_pos ⟨hne, hlast⟩]
      -- the name that goes is put down before it goes
      obtain ⟨init, last, rfl⟩ := (List.eq_nil_or_concat names).resolve_left hne
      rw [List.concat_eq_append] at hdot hlast htrue ⊢
      rw [List.getLast?_append_cons, List.getLast?_singleton] at hlast
      have hlastdot : last ≠ ['.'] := fun heq =>
        hdot (List.mem_append_right _ (List.mem_singleton.2 heq.symm))
      have hlastdots : last ≠ ['.', '.'] := fun heq => hlast (congrArg some heq)
      rw [htrue, List.dropLast_concat, List.foldl_append, List.foldl_cons, List.foldl_nil,
        push_name hlastdot hlastdots]
      unfold push
      rw [if_neg (by decide), if_pos rfl, if_pos, List.dropLast_concat]
      refine ⟨List.append_ne_nil_of_right_ne_nil _ (List.cons_ne_nil _ _), ?_⟩
      rw [List.getLast?_append_cons, List.getLast?_singleton]
      exact hlast
    · have hput : push true names segment = names ++ [segment] := by
        unfold push
        rw [if_neg hone]
        split_ifs with hdots hno habove
        · exact absurd ⟨hdots, hno⟩ hpop
        · rfl
        · exact absurd rfl habove
        · rfl
      rw [hput, List.foldl_append]
      rfl

theorem foldl_push_normalNames (segments found : List Name) :
    (normalNames true segments).foldl (push false) found = segments.foldl (push false) found := by
  induction segments using List.reverseRecOn with
  | nil => rfl
  | append_singleton segments segment ih =>
    have hlast : normalNames true (segments ++ [segment]) =
        push true (normalNames true segments) segment := List.foldl_append
    rw [hlast, foldl_push (dot_notMem_normalNames true segments), ih, List.foldl_append]
    rfl

theorem foldl_push_of_notMem {names : List Name} (hdot : ['.'] ∉ names)
    (hdots : ['.', '.'] ∉ names) (found : List Name) :
    names.foldl (push false) found = found ++ names := by
  induction names generalizing found with
  | nil => exact (List.append_nil found).symm
  | cons name names ih =>
    rw [List.mem_cons, not_or] at hdot hdots
    rw [List.foldl_cons, push_name (Ne.symm hdot.1) (Ne.symm hdots.1), ih hdot.2 hdots.2,
      List.append_assoc, List.singleton_append]

theorem normalNames_normalNames (segments : List Name) :
    normalNames false (normalNames false segments) = normalNames false segments := by
  have hdots : ['.', '.'] ∉ normalNames false segments := by
    intro hmem
    have hno := @forall_normalNames (· ≠ ['.', '.']) false segments
      (fun _ _ _ hdots heq => Bool.false_ne_true (hdots heq)) _ hmem
    exact hno rfl
  exact foldl_push_of_notMem (dot_notMem_normalNames false segments) hdots []

theorem length_normalNames_le (segments : List Name) :
    (normalNames false segments).length ≤ segments.length := by
  induction segments using List.reverseRecOn with
  | nil => exact le_rfl
  | append_singleton segments segment ih =>
    have hlast : normalNames false (segments ++ [segment]) =
        push false (normalNames false segments) segment := List.foldl_append
    have hpush : (push false (normalNames false segments) segment).length ≤
        (normalNames false segments).length + 1 := by
      unfold push
      split_ifs <;> simp
      omega
    rw [hlast, List.length_append, List.length_singleton]
    omega

end Names

end Cine.Lib.NodePath
