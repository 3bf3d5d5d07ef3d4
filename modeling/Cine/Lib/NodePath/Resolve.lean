import Cine.Lib.NodePath.Roots

/-!
# What `path.resolve` gives

* `located_spec`: an absolute path, on Windows with a device.
* `located_normalize` and `located_join`: a path and its normal form are
  resolved to one path, and a name in a folder to the name below the folder, or
  to what has one name at most.
* `below_of_startsWith`: what `startsWith` says about two such paths.
-/

namespace Cine.Lib.NodePath

/-! ## The device and the names -/

section Process

variable {os : Platform} {lower : Name → Name}

/-- What has been found so far: a device, or none. -/
structure Found (os : Platform) (r : Resolving) : Prop where
  device : r.device = [] ∨ IsDevice os r.device
  /-- Only a drive stands before a relative path. -/
  drive : r.absolute = false → r.device = [] ∨
    os = .win32 ∧ ∃ letter : Char, letter.isAlpha = true ∧ r.device = [letter, ':']
  segments : ∀ name ∈ r.segments, name ≠ [] ∧ ∀ c ∈ name, isSep os c = false

theorem found_splitRoot (os : Platform) (path : Name) : Found os
    ⟨(splitRoot os path).device, (splitRoot os path).absolute,
      segments os (splitRoot os path).tail⟩ := by
  cases os with
  | posix =>
    have hnone := splitPosix_device path
    exact ⟨Or.inl hnone, fun _ => Or.inl hnone, fun name => mem_segments⟩
  | win32 =>
    rcases splitWin32_cases path with hnone | ⟨letter, hletter, hdrive⟩ | ⟨hdevice, habsolute⟩
    · exact ⟨Or.inl hnone, fun _ => Or.inl hnone, fun name => mem_segments⟩
    · exact ⟨Or.inr (Or.inl ⟨letter, hletter, hdrive⟩),
        fun _ => Or.inr ⟨rfl, letter, hletter, hdrive⟩, fun name => mem_segments⟩
    · refine ⟨Or.inr hdevice, fun hno => ?_, fun name => mem_segments⟩
      rw [show (splitRoot .win32 path).absolute = true from habsolute] at hno
      cases hno

theorem found_take {r : Resolving} (path : Name) (h : Found os r) :
    Found os (r.take os lower path) := by
  have hroot := found_splitRoot os path
  unfold Resolving.take
  dsimp only
  split_ifs with hother habsolute hdevice hdevice
  · exact h
  · exact ⟨hroot.device, nofun, h.segments⟩
  · exact ⟨h.device, nofun, h.segments⟩
  · refine ⟨hroot.device, hroot.drive, ?_⟩
    intro name hname
    rcases List.mem_append.1 hname with hname | hname
    · exact hroot.segments name hname
    · exact h.segments name hname
  · refine ⟨h.device, fun _ => h.drive (Bool.not_eq_true _ ▸ habsolute), ?_⟩
    intro name hname
    rcases List.mem_append.1 hname with hname | hname
    · exact hroot.segments name hname
    · exact h.segments name hname

theorem found_foldr (paths : List Name) :
    Found os (paths.foldr (Resolving.take os lower) ⟨[], false, []⟩) := by
  induction paths with
  | nil => exact ⟨Or.inl rfl, fun _ => Or.inl rfl, fun name hname => absurd hname List.not_mem_nil⟩
  | cons path paths ih => exact found_take path ih

theorem isDevice_cwd (p : Process os lower) (r : Resolving) :
    IsDevice os (splitRoot os (p.cwd r.device)).device := by
  rcases (found_splitRoot os (p.cwd r.device)).device with hnone | hdevice
  · cases os with
    | posix => exact hnone
    | win32 => exact absurd hnone (p.hasDevice rfl r.device)
  · exact hdevice

theorem located_spec (p : Process os lower) (paths : List Name) :
    Found os (p.located paths) ∧ (p.located paths).absolute = true ∧
      IsDevice os (p.located paths).device := by
  have hfound := @found_foldr os lower (paths.filter (· ≠ []))
  unfold Process.located
  dsimp only
  generalize (paths.filter (· ≠ [])).foldr (Resolving.take os lower) ⟨[], false, []⟩ = r
    at hfound ⊢
  have hcwd : (splitRoot os (p.cwd r.device)).absolute = true := p.absolute r.device
  have hroot := found_splitRoot os (p.cwd r.device)
  refine ⟨found_take _ hfound, ?_⟩
  unfold Resolving.take
  dsimp only
  split_ifs with hother habsolute hdevice hdevice
  · -- another device than that of a path which is not absolute: no drive has one
    obtain ⟨-, hne, hlower⟩ := hother
    refine ⟨?_, hfound.device.resolve_left hne⟩
    by_contra habsolute
    rcases hfound.drive (Bool.not_eq_true _ ▸ habsolute) with hnone | ⟨hos, letter, hletter, hdrive⟩
    · exact hne hnone
    · rw [hdrive] at hlower
      exact hlower (p.onDrive hos letter hletter)
  · exact ⟨rfl, isDevice_cwd p r⟩
  · exact ⟨rfl, hfound.device.resolve_left hdevice⟩
  · exact ⟨hcwd, isDevice_cwd p r⟩
  · exact ⟨hcwd, hfound.device.resolve_left hdevice⟩

end Process

/-! ## `normalize` and `join` -/

section Normalize

variable {os : Platform} {lower : Name → Name}

theorem normalize_spec (os : Platform) (path : Name) :
    ∃ tail, normalize os path = (splitRoot os path).device ++
        (if (splitRoot os path).absolute then [sep os] else []) ++ tail ∧
      (∀ c, tail.head? = some c → isSep os c = false) ∧
      ((splitRoot os path).device = [] → (splitRoot os path).absolute = false →
        driveLength os tail = 0) ∧
      ∀ found, (segments os tail).foldl (push false) found =
        (normalNames (!(splitRoot os path).absolute)
          (segments os (splitRoot os path).tail)).foldl (push false) found := by
  unfold normalize
  dsimp only
  generalize hroot : splitRoot os path = root
  have hparts := parts_normalNames (!root.absolute) (parts_segments os root.tail)
  generalize normalNames (!root.absolute) (segments os root.tail) = names at hparts ⊢
  -- the names, or a dot
  obtain ⟨base, hbase⟩ : ∃ base, base =
      if joinNames os names = [] ∧ root.absolute = false then ['.']
      else joinNames os names := ⟨_, rfl⟩
  have hhead : ∀ c, base.head? = some c → isSep os c = false := by
    intro c hc
    rw [hbase] at hc
    split_ifs at hc
    · cases hc
      cases os <;> rfl
    · exact head?_joinNames hparts hc
  have hfold : ∀ found, (segments os base).foldl (push false) found =
      names.foldl (push false) found := by
    intro found
    rw [hbase]
    split_ifs with hnil
    · have hnone := segments_joinNames hparts
      rw [hnil.1] at hnone
      rw [← hnone, segments_nil, List.foldl_nil]
      cases os <;> exact push_dot false found
    · rw [segments_joinNames hparts]
  -- a separator at the end of the path stays
  obtain ⟨tail, htail⟩ : ∃ tail, tail =
    if base ≠ [] ∧ (path.getLast?.any (isSep os)) then base ++ [sep os] else base := ⟨_, rfl⟩
  have hhead' : ∀ c, tail.head? = some c → isSep os c = false := by
    intro c hc
    rw [htail] at hc
    split_ifs at hc with hsep
    · rw [List.head?_append_of_ne_nil _ hsep.1] at hc
      exact hhead c hc
    · exact hhead c hc
  have hsegments : segments os tail = segments os base := by
    rw [htail]
    split_ifs
    · rw [segments_append_sep (isSep_sep os), segments_nil, List.append_nil]
    · rfl
  refine ⟨anchored os root path tail, ?_, ?_, ?_, ?_⟩
  · rw [htail, hbase]
  · intro c hc
    unfold anchored at hc
    split_ifs at hc
    · cases hc
      cases os <;> rfl
    · exact hhead' c hc
  · intro hdevice habsolute
    unfold anchored
    split_ifs with hanchor
    · cases os <;> rfl
    · cases os with
      | posix => rfl
      | win32 =>
        by_contra hdrive
        exact hanchor ⟨rfl, hdevice, habsolute, Or.inl hdrive⟩
  · intro found
    rw [← hfold, ← hsegments]
    unfold anchored
    split_ifs with hanchor
    · obtain ⟨rfl, -⟩ := hanchor
      have hdot : segments .win32 (['.', '\\'] ++ tail) = ['.'] :: segments .win32 tail :=
        segments_append_sep isSep_back ['.'] tail
      rw [hdot, List.foldl_cons, push_dot]
    · rfl

theorem take_congr {device : Name} {absolute : Bool} {found found' : List Name} (path : Name)
    (h : ∀ names, (absolute = true → names = []) →
      found.foldl (push false) names = found'.foldl (push false) names) :
    ((⟨device, absolute, found⟩ : Resolving).take os lower path).device =
        ((⟨device, absolute, found'⟩ : Resolving).take os lower path).device ∧
      normalNames false ((⟨device, absolute, found⟩ : Resolving).take os lower path).segments =
        normalNames false
          ((⟨device, absolute, found'⟩ : Resolving).take os lower path).segments := by
  unfold Resolving.take normalNames
  dsimp only
  by_cases hother : (splitRoot os path).device ≠ [] ∧ device ≠ [] ∧
      lower (splitRoot os path).device ≠ lower device
  · rw [if_pos hother, if_pos hother]
    exact ⟨rfl, h [] fun _ => rfl⟩
  · rw [if_neg hother, if_neg hother]
    cases absolute with
    | true => exact ⟨rfl, h [] fun _ => rfl⟩
    | false =>
      refine ⟨rfl, ?_⟩
      rw [if_neg Bool.false_ne_true, if_neg Bool.false_ne_true, List.foldl_append,
        List.foldl_append]
      exact h _ nofun

theorem located_singleton (p : Process os lower) (path : Name) :
    p.located [path] = (⟨(splitRoot os path).device, (splitRoot os path).absolute,
      segments os (splitRoot os path).tail⟩ : Resolving).take os lower
        (p.cwd (splitRoot os path).device) := by
  unfold Process.located
  by_cases h : path = []
  · rw [h]
    cases os <;> rfl
  · have htake : (⟨[], false, []⟩ : Resolving).take os lower path =
        ⟨(splitRoot os path).device, (splitRoot os path).absolute,
          segments os (splitRoot os path).tail⟩ := by
      unfold Resolving.take
      dsimp only
      rw [if_neg (fun hno => hno.2.1 rfl), if_pos rfl, if_neg Bool.false_ne_true, List.append_nil]
    rw [List.filter_cons_of_pos (by simpa using h), List.filter_nil, List.foldr_cons,
      List.foldr_nil, htake]

theorem located_normalize (p : Process os lower) (path : Name) :
    (p.located [normalize os path]).device = (p.located [path]).device ∧
      normalNames false (p.located [normalize os path]).segments =
        normalNames false (p.located [path]).segments := by
  obtain ⟨tail, heq, hhead, hdrive, hfold⟩ := normalize_spec os path
  obtain ⟨tail', hroot, hsegments⟩ := splitRoot_render hhead hdrive
  rw [← heq] at hroot
  rw [located_singleton p (normalize os path), hroot, located_singleton p path]
  apply take_congr
  intro names hnames
  rw [hsegments, hfold]
  cases habsolute : (splitRoot os path).absolute with
  | false => exact foldl_push_normalNames _ names
  | true =>
    rw [hnames habsolute]
    exact normalNames_normalNames _

variable {name rest dir : Name} {c : Char}

theorem splitUnc_append (path path' : Name) (hhost : rest.takeWhile (fun c => !isSep .win32 c) ≠ [])
    (hname : name ≠ []) (hplain : ∀ c ∈ name, isSep .win32 c = false) :
    ((splitUnc path' (rest ++ '\\' :: name)).device = (splitUnc path rest).device ∧
      segments .win32 (splitUnc path' (rest ++ '\\' :: name)).tail =
        segments .win32 (splitUnc path rest).tail ++ [name]) ∨
    segments .win32 (splitUnc path' (rest ++ '\\' :: name)).tail = [] := by
  unfold splitUnc
  dsimp only
  rw [takeWhile_append_sep isSep_back, dropWhile_append_sep isSep_back, List.dropWhile_append,
    List.dropWhile_cons_of_pos isSep_back]
  generalize rest.takeWhile (fun c => !isSep .win32 c) = host at hhost
  generalize (rest.dropWhile fun c => !isSep .win32 c).dropWhile (isSep .win32) = share
  have hname' : name.dropWhile (isSep .win32) = name := by
    have happend := dropWhile_sep_plain hname hplain []
    rwa [List.append_nil] at happend
  by_cases hshare : share = []
  · -- the name becomes the share
    right
    rw [hshare, List.isEmpty_nil, if_pos rfl, hname', if_neg (by simp [hhost, hname]),
      dropWhile_plain hplain]
    rfl
  · left
    have hempty : share.isEmpty = false := by simpa using hshare
    rw [hempty, if_neg Bool.false_ne_true, if_neg (by simp [hhost]),
      if_neg (by simp [hhost, hshare]),
      takeWhile_append_sep isSep_back, dropWhile_append_sep isSep_back,
      segments_append_sep isSep_back, segments_plain hname hplain]
    exact ⟨rfl, rfl⟩

/-- Where `path'` is `path` with a name behind it, or has one name at most. -/
def Extends (os : Platform) (root root' : Root) (name : Name) : Prop :=
  (root'.device = root.device ∧ root'.absolute = root.absolute ∧
    segments os root'.tail = segments os root.tail ++ [name]) ∨
  root'.absolute = true ∧ (segments os root'.tail).length ≤ 1

theorem extends_posix (hdir : dir ≠ []) (hname : name ≠ [])
    (hplain : ∀ c ∈ name, isSep .posix c = false) :
    Extends .posix (splitPosix dir) (splitPosix (dir ++ '/' :: name)) name := by
  obtain ⟨c, rest, rfl⟩ := List.exists_cons_of_ne_nil hdir
  left
  rw [List.cons_append, splitPosix, splitPosix]
  split_ifs with hc
  · exact ⟨rfl, rfl, by rw [segments_append_sep rfl, segments_plain hname hplain]⟩
  · refine ⟨rfl, rfl, ?_⟩
    rw [← List.cons_append, segments_append_sep rfl, segments_plain hname hplain]

theorem segments_dropWhile (path : Name) :
    segments os (path.dropWhile (isSep os)) = segments os path := by
  induction path with
  | nil => rfl
  | cons c path ih =>
    rw [List.dropWhile_cons]
    split_ifs with hc
    · rw [ih, segments_sep_cons hc]
    · rfl

theorem head?_dropWhile {path : Name} (h : (path.dropWhile (isSep os)).head? = some c) :
    isSep os c = false := by
  have hhead := List.head?_dropWhile_not (isSep os) path
  rw [h] at hhead
  exact hhead

theorem namesShare_cons {d : Char} (h : namesShare (c :: d :: rest) = false)
    (hc : isSep .win32 c = true) (hd : isSep .win32 d = true) :
    rest.takeWhile (fun a => !isSep .win32 a) = [] := by
  cases rest with
  | nil => rfl
  | cons e rest =>
    rw [namesShare, hc, hd, Bool.true_and, Bool.true_and] at h
    rw [List.takeWhile_cons_of_neg (by rw [h]; exact Bool.false_ne_true)]

theorem splitWin32_of_sep (hc : isSep .win32 c = true) (h : namesShare (c :: rest) = false) :
    (splitWin32 (c :: rest)).device = [] ∧
      (splitWin32 (c :: rest)).absolute = true ∧
      segments .win32 (splitWin32 (c :: rest)).tail = segments .win32 rest := by
  cases rest with
  | nil =>
    rw [splitWin32, if_pos hc]
    exact ⟨rfl, rfl, rfl⟩
  | cons d rest =>
    rw [splitWin32, if_pos hc]
    split_ifs with hd
    · unfold splitUnc
      dsimp only
      rw [if_pos (Or.inl (namesShare_cons h hc hd))]
      exact ⟨rfl, rfl, segments_sep_cons hc _⟩
    · exact ⟨rfl, rfl, rfl⟩

theorem splitWin32_collapse (hc : isSep .win32 c = true) (rest : Name) :
    (splitWin32 (collapse (c :: rest))).device = [] ∧
      (splitWin32 (collapse (c :: rest))).absolute = true ∧
      segments .win32 (splitWin32 (collapse (c :: rest))).tail = segments .win32 rest := by
  unfold collapse
  split_ifs with hlength
  · rw [splitWin32_sep_cons fun c => head?_dropWhile, segments_dropWhile, segments_sep_cons hc]
    exact ⟨rfl, rfl, rfl⟩
  · apply splitWin32_of_sep hc
    -- the second letter is no separator
    match rest with
    | [] => rfl
    | [d] => rfl
    | d :: e :: rest =>
      cases hd : isSep .win32 d with
      | false => rw [namesShare, hd, Bool.and_false, Bool.false_and]
      | true =>
        rw [List.takeWhile_cons_of_pos hc, List.takeWhile_cons_of_pos hd] at hlength
        exact absurd (Nat.le_add_left 2 _) hlength

theorem extends_sep (hc : isSep .win32 c = true) (h : namesShare (c :: rest) = false)
    (hname : name ≠ []) (hplain : ∀ c ∈ name, isSep .win32 c = false) :
    Extends .win32 (splitWin32 (c :: rest)) (splitWin32 (collapse (c :: rest ++ '\\' :: name)))
      name := by
  obtain ⟨hdevice, habsolute, hsegments⟩ := splitWin32_of_sep hc h
  obtain ⟨hdevice', habsolute', hsegments'⟩ := splitWin32_collapse hc (rest ++ '\\' :: name)
  left
  rw [List.cons_append, hdevice, hdevice', habsolute, habsolute', hsegments, hsegments',
    segments_append_sep isSep_back, segments_plain hname hplain]
  exact ⟨rfl, rfl, rfl⟩

theorem extends_share (h : namesShare dir = true) (hname : name ≠ [])
    (hplain : ∀ c ∈ name, isSep .win32 c = false) :
    Extends .win32 (splitWin32 dir) (splitWin32 (dir ++ '\\' :: name)) name := by
  match dir, h with
  | c :: d :: e :: rest, h =>
    rw [namesShare, Bool.and_eq_true, Bool.and_eq_true, Bool.not_eq_true'] at h
    obtain ⟨⟨hc, hd⟩, he⟩ := h
    have hhost : (e :: rest).takeWhile (fun a => !isSep .win32 a) ≠ [] := by
      rw [List.takeWhile_cons_of_pos (by rw [he]; rfl)]
      exact List.cons_ne_nil _ _
    rw [List.cons_append, List.cons_append, splitWin32, if_pos hc, if_pos hd, splitWin32,
      if_pos hc, if_pos hd]
    have habsolute := (splitUnc_spec (c :: d :: e :: rest) (e :: rest)).1
    have habsolute' := (splitUnc_spec (c :: d :: (e :: rest ++ '\\' :: name))
      (e :: rest ++ '\\' :: name)).1
    rcases splitUnc_append (c :: d :: e :: rest) (c :: d :: (e :: rest ++ '\\' :: name)) hhost
      hname hplain with ⟨hdevice, hsegments⟩ | hnone
    · exact Or.inl ⟨hdevice, habsolute'.trans habsolute.symm, hsegments⟩
    · exact Or.inr ⟨habsolute', by rw [hnone]; exact Nat.zero_le _⟩

theorem extends_plain (hc : isSep .win32 c = false) (hname : name ≠ [])
    (hplain : ∀ c ∈ name, isSep .win32 c = false) :
    Extends .win32 (splitWin32 (c :: rest)) (splitWin32 (c :: rest ++ '\\' :: name)) name := by
  have hsegments : ∀ path : Name, segments .win32 (path ++ '\\' :: name) =
      segments .win32 path ++ [name] := by
    intro path
    rw [segments_append_sep isSep_back, segments_plain hname hplain]
  cases rest with
  | nil =>
    left
    rw [List.singleton_append, splitWin32, splitWin32, if_neg (Bool.eq_false_iff.1 hc),
      if_neg (Bool.eq_false_iff.1 hc), if_neg fun hno => absurd hno.2 (by decide)]
    exact ⟨rfl, rfl, hsegments [c]⟩
  | cons d rest =>
    rw [List.cons_append, List.cons_append, splitWin32, splitWin32,
      if_neg (Bool.eq_false_iff.1 hc), if_neg (Bool.eq_false_iff.1 hc)]
    split_ifs with hdrive
    · cases rest with
      | nil =>
        -- a drive alone becomes its root
        right
        rw [List.nil_append, splitDrive, if_pos isSep_back]
        dsimp only
        rw [segments_plain hname hplain]
        exact ⟨rfl, le_rfl⟩
      | cons e rest =>
        left
        rw [List.cons_append, splitDrive, splitDrive]
        split_ifs with he
        · exact ⟨rfl, rfl, hsegments rest⟩
        · exact ⟨rfl, rfl, hsegments (e :: rest)⟩
    · exact Or.inl ⟨rfl, rfl, hsegments (c :: d :: rest)⟩

theorem collapse_of_head (hc : isSep .win32 c = false) (path : Name) :
    collapse (c :: path) = c :: path := by
  unfold collapse
  rw [List.takeWhile_cons_of_neg (by rw [hc]; exact Bool.false_ne_true)]
  rfl

theorem join_pair (hdir : dir ≠ []) (hname : name ≠ []) (hplain : ∀ c ∈ name, isSep os c = false) :
    ∃ path, join os [dir, name] = normalize os path ∧
      Extends os (splitRoot os dir) (splitRoot os path) name := by
  have hjoined : joinNames os [dir, name] = dir ++ sep os :: name := by
    rw [joinNames_cons (List.cons_ne_nil _ _), joinNames_singleton]
  unfold join
  rw [List.filter_cons_of_pos (by simpa using hdir), List.filter_cons_of_pos (by simpa using hname),
    List.filter_nil]
  dsimp only
  rw [hjoined]
  cases os with
  | posix =>
    rw [if_neg fun hno => by cases hno.1]
    exact ⟨_, rfl, extends_posix hdir hname hplain⟩
  | win32 =>
    obtain ⟨c, rest, rfl⟩ := List.exists_cons_of_ne_nil hdir
    by_cases hshare : namesShare (c :: rest) = false
    · rw [if_pos ⟨rfl, hshare⟩]
      refine ⟨_, rfl, ?_⟩
      cases hc : isSep .win32 c with
      | true => exact extends_sep hc hshare hname hplain
      | false =>
        rw [List.cons_append, collapse_of_head hc]
        exact extends_plain hc hname hplain
    · rw [if_neg fun hno => hshare hno.2]
      exact ⟨_, rfl, extends_share (Bool.not_eq_false _ ▸ hshare) hname hplain⟩

theorem join_nil (hname : name ≠ []) (hplain : ∀ c ∈ name, isSep os c = false) (hcolon : ':' ∉ name) :
    ∃ path, join os [[], name] = normalize os path ∧
      Extends os (splitRoot os []) (splitRoot os path) name := by
  have hhead : ∀ c, name.head? = some c → isSep os c = false := fun c hc =>
    hplain c (List.mem_of_mem_head? hc)
  have hroot : splitRoot os name = ⟨[], false, name⟩ := by
    cases os with
    | posix => exact splitPosix_tail hhead
    | win32 => exact splitWin32_tail hhead (driveLength_eq_zero hcolon)
  have hcollapse : os = .win32 → collapse name = name := by
    rintro rfl
    obtain ⟨c, rest, rfl⟩ := List.exists_cons_of_ne_nil hname
    exact collapse_of_head (hhead c rfl) rest
  refine ⟨name, ?_, Or.inl ?_⟩
  · unfold join
    rw [List.filter_cons_of_neg (by simp), List.filter_cons_of_pos (by simpa using hname),
      List.filter_nil]
    dsimp only
    rw [joinNames_singleton]
    split_ifs with hwin
    · rw [hcollapse hwin.1]
    · rfl
  · rw [hroot]
    dsimp only
    rw [segments_plain hname hplain]
    cases os <;> exact ⟨rfl, rfl, rfl⟩

theorem take_append (r : Resolving) (path name : Name) :
    (⟨r.device, r.absolute, r.segments ++ [name]⟩ : Resolving).take os lower path =
      ⟨(r.take os lower path).device, (r.take os lower path).absolute,
        (r.take os lower path).segments ++ [name]⟩ := by
  unfold Resolving.take
  dsimp only
  split_ifs
  · rfl
  · rfl
  · rfl
  · rw [List.append_assoc]
  · rw [List.append_assoc]

theorem segments_take {r : Resolving} (path : Name) (h : r.absolute = true) :
    (r.take os lower path).segments = r.segments := by
  unfold Resolving.take
  dsimp only
  split_ifs <;> rfl

/-- A name in a folder: where it is resolved to, if not to a root or to what
stands at one. -/
theorem located_join (p : Process os lower) (hname : name ≠ [])
    (hplain : ∀ c ∈ name, isSep os c = false) (hcolon : ':' ∉ name) :
    ((p.located [join os [dir, name]]).device = (p.located [dir]).device ∧
      normalNames false (p.located [join os [dir, name]]).segments =
        push false (normalNames false (p.located [dir]).segments) name) ∨
    (normalNames false (p.located [join os [dir, name]]).segments).length ≤ 1 := by
  obtain ⟨path, hpath, hextends⟩ : ∃ path, join os [dir, name] = normalize os path ∧
      Extends os (splitRoot os dir) (splitRoot os path) name := by
    by_cases hdir : dir = []
    · rw [hdir]
      exact join_nil hname hplain hcolon
    · exact join_pair hdir hname hplain
  obtain ⟨hdevice, hsegments⟩ := located_normalize p path
  rw [hpath, hdevice, hsegments, located_singleton p path, located_singleton p dir]
  rcases hextends with ⟨hroot, habsolute, hbehind⟩ | ⟨habsolute, hshort⟩
  · left
    have hlast : ∀ names : List Name, normalNames false (names ++ [name]) =
        push false (normalNames false names) name := fun names => List.foldl_append
    rw [hroot, habsolute, hbehind, ← hlast]
    have happend := @take_append os lower ⟨(splitRoot os dir).device, (splitRoot os dir).absolute,
      segments os (splitRoot os dir).tail⟩ (p.cwd (splitRoot os dir).device) name
    dsimp only at happend
    rw [happend]
    exact ⟨rfl, rfl⟩
  · right
    rw [segments_take _ habsolute]
    exact (length_normalNames_le _).trans hshort

end Normalize

/-! ## Below a folder -/

section Below

variable {os : Platform} {lower : Name → Name}

/-- A path below a folder. -/
def Below (os : Platform) (folder path : Name) : Prop :=
  ∃ names, names ≠ [] ∧ (∀ name ∈ names, IsName os name) ∧
    path = folder ++ sep os :: joinNames os names

theorem names_located (p : Process os lower) (paths : List Name) :
    ∀ name ∈ normalNames false (p.located paths).segments, IsName os name :=
  isName_normalNames (located_spec p paths).1.segments

theorem names_of_startsWith {p : Process os lower} {paths paths' : List Name}
    (h : p.resolve paths ++ [sep os] <+: p.resolve paths') :
    (p.located paths').device = (p.located paths).device ∧
      normalNames false (p.located paths).segments ≠ [] ∧
        ∃ rest, rest ≠ [] ∧ normalNames false (p.located paths').segments =
          normalNames false (p.located paths).segments ++ rest :=
  names_behind (located_spec p paths).2.2 (located_spec p paths').2.2 (names_located p paths)
    (names_located p paths') h

theorem below_of_startsWith {p : Process os lower} {paths paths' : List Name}
    (h : p.resolve paths ++ [sep os] <+: p.resolve paths') :
    Below os (p.resolve paths) (p.resolve paths') := by
  obtain ⟨hdevice, hne, rest, hrest, hnames⟩ := names_of_startsWith h
  refine ⟨rest, hrest, ?_, ?_⟩
  · intro name hname
    apply names_located p paths'
    rw [hnames]
    exact List.mem_append_right _ hname
  · unfold Process.resolve
    dsimp only
    rw [hdevice, hnames, joinNames_append hne hrest, List.append_assoc]
    rfl

end Below

end Cine.Lib.NodePath
