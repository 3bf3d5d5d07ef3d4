import Cine.Lib.NodePath

/-!
# The roots of paths

`splitRoot` finds no device, a drive, or a host with a share, and
`splitRoot_render` says that it finds the same again where another tail stands
behind it.  `names_behind` says that one path with a device is a prefix of
another, with a separator behind it, only if the other lies below it.
-/

namespace Cine.Lib.NodePath

/-! ## The device -/

/-- The share begins with what is no separator. -/
theorem takeWhile_dropWhile_ne_nil {os : Platform} {path : Name}
    (h : path.dropWhile (isSep os) ≠ []) :
    (path.dropWhile (isSep os)).takeWhile (fun c => !isSep os c) ≠ [] := by
  have hhead := List.head_dropWhile_not (isSep os) h
  cases hrest : path.dropWhile (isSep os) with
  | nil => exact absurd hrest h
  | cons c rest =>
    simp only [hrest, List.head_cons] at hhead
    rw [List.takeWhile_cons_of_pos (by rw [hhead]; rfl)]
    exact List.cons_ne_nil _ _

theorem splitUnc_spec (path rest : Name) : (splitUnc path rest).absolute = true ∧
    ((splitUnc path rest).device = [] ∨ IsDevice .win32 (splitUnc path rest).device) := by
  unfold splitUnc
  dsimp only
  split_ifs with hempty
  · exact ⟨rfl, Or.inl rfl⟩
  · rw [not_or] at hempty
    refine ⟨rfl, Or.inr (Or.inr ⟨_, _, hempty.1, ?_, ?_, ?_, rfl⟩)⟩
    · exact takeWhile_dropWhile_ne_nil hempty.2
    · intro c hc
      simpa using List.mem_takeWhile_imp hc
    · intro c hc
      simpa using List.mem_takeWhile_imp hc

theorem splitDrive_device (letter : Char) (rest : Name) :
    (splitDrive letter rest).device = [letter, ':'] := by
  unfold splitDrive
  split
  · rfl
  · split_ifs <;> rfl

theorem splitPosix_device (path : Name) : (splitPosix path).device = [] := by
  unfold splitPosix
  split
  · rfl
  · split_ifs <;> rfl

theorem splitWin32_cases (path : Name) : (splitWin32 path).device = [] ∨
    (∃ letter : Char, letter.isAlpha = true ∧ (splitWin32 path).device = [letter, ':']) ∨
      IsDevice .win32 (splitWin32 path).device ∧ (splitWin32 path).absolute = true := by
  unfold splitWin32
  split
  · exact Or.inl rfl
  · left
    split_ifs <;> rfl
  · rename_i c d rest
    split_ifs with hc hd hdrive
    · obtain ⟨habsolute, hdevice⟩ := splitUnc_spec (c :: d :: rest) rest
      rcases hdevice with hnone | hdevice
      · exact Or.inl hnone
      · exact Or.inr (Or.inr ⟨hdevice, habsolute⟩)
    · exact Or.inl rfl
    · exact Or.inr (Or.inl ⟨c, hdrive.1, splitDrive_device c rest⟩)
    · exact Or.inl rfl

/-! ## One path as a prefix of another -/

section Prefix

variable {os : Platform}

theorem sep_notMem {name : Name} (h : ∀ c ∈ name, isSep os c = false) : sep os ∉ name := by
  intro hmem
  have hno := h _ hmem
  rw [isSep_sep] at hno
  cases hno

theorem splitOn_joinNames {names : List Name} (h : ∀ name ∈ names, IsName os name) :
    (joinNames os names).splitOn (sep os) = if names = [] then [[]] else names := by
  by_cases hnil : names = []
  · rw [if_pos hnil, hnil]
    exact List.splitOn_nil _
  · rw [if_neg hnil]
    exact List.splitOn_intercalate _ (fun name hname => sep_notMem (h name hname).plain) hnil

theorem splitOn_device {device : Name} (h : IsDevice os device) :
    (device.splitOn (sep os) = [device] ∧ (os = .win32 → device ≠ [])) ∨
      os = .win32 ∧ ∃ host share, device.splitOn (sep os) = [[], [], host, share] := by
  cases os with
  | posix =>
    left
    rw [show device = [] from h]
    exact ⟨rfl, nofun⟩
  | win32 =>
    rcases h with ⟨letter, hletter, rfl⟩ | ⟨host, share, -, -, hhost, hshare, rfl⟩
    · left
      refine ⟨List.splitOn_eq_singleton ?_, fun _ => List.cons_ne_nil _ _⟩
      rw [List.mem_cons, List.mem_singleton, not_or]
      exact ⟨fun heq => by rw [← heq] at hletter; revert hletter; decide, by decide⟩
    · right
      refine ⟨rfl, host, share, ?_⟩
      show ([] ++ '\\' :: ([] ++ '\\' :: (host ++ '\\' :: share))).splitOn '\\' = _
      have hone : ∀ part : Name, (∀ c ∈ part, isSep .win32 c = false) →
          part.splitOn '\\' = [part] := fun part hpart =>
        List.splitOn_eq_singleton (sep_notMem hpart)
      rw [List.splitOn_append_cons_self, List.splitOn_append_cons_self,
        List.splitOn_append_cons_self, List.splitOn_nil, hone host hhost, hone share hshare]
      rfl

theorem names_behind {device device' : Name} {names names' : List Name}
    (hdevice : IsDevice os device) (hdevice' : IsDevice os device')
    (hnames : ∀ name ∈ names, IsName os name) (hnames' : ∀ name ∈ names', IsName os name)
    (h : (device ++ sep os :: joinNames os names) ++ [sep os] <+:
      device' ++ sep os :: joinNames os names') :
    device' = device ∧ names ≠ [] ∧ ∃ rest, rest ≠ [] ∧ names' = names ++ rest := by
  obtain ⟨behind, hbehind⟩ := h
  have hparts := congrArg (List.splitOn (sep os)) hbehind
  rw [List.append_assoc, List.singleton_append, List.splitOn_append_cons_self,
    List.splitOn_append_cons_self, List.splitOn_append_cons_self, splitOn_joinNames hnames,
    splitOn_joinNames hnames', List.append_assoc] at hparts
  have hrest := List.splitOn_ne_nil (sep os) behind
  generalize behind.splitOn (sep os) = rest at hparts hrest
  have hsame : device' = device ∧ (if names' = [] then [[]] else names') =
      (if names = [] then [[]] else names) ++ rest := by
    rcases splitOn_device hdevice with ⟨hone, hne⟩ | ⟨hos, host, share, hfour⟩
    · rcases splitOn_device hdevice' with ⟨hone', hne'⟩ | ⟨hos, host', share', hfour'⟩
      · rw [hone, hone'] at hparts
        obtain ⟨heq, hrest⟩ := List.cons.inj hparts
        exact ⟨heq.symm, hrest.symm⟩
      · rw [hone, hfour'] at hparts
        exact absurd (List.cons.inj hparts).1 (hne hos)
    · rcases splitOn_device hdevice' with ⟨hone', hne'⟩ | ⟨hos, host', share', hfour'⟩
      · rw [hfour, hone'] at hparts
        exact absurd (List.cons.inj hparts).1.symm (hne' hos)
      · have hdevices : device.splitOn (sep os) = device'.splitOn (sep os) := by
          rw [hfour, hfour'] at hparts ⊢
          simp only [List.cons_append, List.nil_append, List.cons.injEq, true_and] at hparts
          rw [hparts.1, hparts.2.1]
        rw [hdevices] at hparts
        refine ⟨?_, (List.append_cancel_left hparts).symm⟩
        calc device' = [sep os].intercalate (device'.splitOn (sep os)) :=
              (List.intercalate_splitOn _).symm
          _ = [sep os].intercalate (device.splitOn (sep os)) := by rw [hdevices]
          _ = device := List.intercalate_splitOn _
  obtain ⟨heq, hbelow⟩ := hsame
  have hname : ∀ name ∈ names', name ≠ [] := fun name hmem => (hnames' name hmem).nonempty
  by_cases hnil' : names' = []
  · -- one empty part is not two lists of parts
    rw [if_pos hnil'] at hbelow
    have hlength := congrArg List.length hbelow
    have hpos := List.length_pos_iff.2 hrest
    rw [List.length_append, List.length_singleton] at hlength
    split_ifs at hlength with hnil
    · rw [List.length_singleton] at hlength
      omega
    · have hpos' := List.length_pos_iff.2 hnil
      omega
  · rw [if_neg hnil'] at hbelow
    by_cases hnil : names = []
    · rw [if_pos hnil] at hbelow
      refine absurd rfl (hname [] ?_)
      rw [hbelow]
      exact List.mem_cons_self
    · rw [if_neg hnil] at hbelow
      exact ⟨heq, hnil, rest, hrest, hbelow⟩

end Prefix

/-! ## The same root before another tail -/

section Render

variable {os : Platform}

variable {c : Char} {part tail : Name}

/-- The first separator ends the first part, whatever stands behind it. -/
theorem takeWhile_append_sep (hc : isSep os c = true) (part rest : Name) :
    (part ++ c :: rest).takeWhile (fun a => !isSep os a) =
      part.takeWhile fun a => !isSep os a := by
  induction part with
  | nil => rw [List.nil_append, List.takeWhile_cons_of_neg (by rw [hc]; exact Bool.false_ne_true),
      List.takeWhile_nil]
  | cons a part ih =>
    rw [List.cons_append, List.takeWhile_cons, List.takeWhile_cons, ih]

theorem dropWhile_append_sep (hc : isSep os c = true) (part rest : Name) :
    (part ++ c :: rest).dropWhile (fun a => !isSep os a) =
      part.dropWhile (fun a => !isSep os a) ++ c :: rest := by
  induction part with
  | nil => rw [List.nil_append, List.dropWhile_cons_of_neg (by rw [hc]; exact Bool.false_ne_true),
      List.dropWhile_nil, List.nil_append]
  | cons a part ih =>
    rw [List.cons_append, List.dropWhile_cons, List.dropWhile_cons, ih]
    split_ifs <;> rfl

theorem takeWhile_plain (hplain : ∀ a ∈ part, isSep os a = false) :
    part.takeWhile (fun a => !isSep os a) = part := by
  rw [List.takeWhile_eq_self_iff]
  intro a ha
  rw [hplain a ha]
  rfl

theorem dropWhile_plain (hplain : ∀ a ∈ part, isSep os a = false) :
    part.dropWhile (fun a => !isSep os a) = [] := by
  rw [List.dropWhile_eq_nil_iff]
  intro a ha
  rw [hplain a ha]
  rfl

theorem dropWhile_sep_plain (hne : part ≠ []) (hplain : ∀ a ∈ part, isSep os a = false)
    (rest : Name) : (part ++ rest).dropWhile (isSep os) = part ++ rest := by
  obtain ⟨first, part, rfl⟩ := List.exists_cons_of_ne_nil hne
  rw [List.cons_append, List.dropWhile_cons_of_neg]
  rw [hplain first List.mem_cons_self]
  exact Bool.false_ne_true

theorem splitUnc_share {host share : Name} (path tail : Name) (hhost : host ≠ [])
    (hshare : share ≠ []) (hplain : ∀ a ∈ host, isSep .win32 a = false)
    (hplain' : ∀ a ∈ share, isSep .win32 a = false) (hc : isSep .win32 c = true) :
    splitUnc path (host ++ '\\' :: (share ++ c :: tail)) =
      ⟨'\\' :: '\\' :: host ++ '\\' :: share, true, c :: tail⟩ := by
  have hdrop : ('\\' :: (share ++ c :: tail)).dropWhile (isSep .win32) = share ++ c :: tail := by
    rw [List.dropWhile_cons_of_pos isSep_back, dropWhile_sep_plain hshare hplain']
  unfold splitUnc
  dsimp only
  rw [takeWhile_append_sep isSep_back, dropWhile_append_sep isSep_back, takeWhile_plain hplain,
    dropWhile_plain hplain, List.nil_append, hdrop, takeWhile_append_sep hc,
    dropWhile_append_sep hc, takeWhile_plain hplain', dropWhile_plain hplain', List.nil_append,
    if_neg]
  rw [not_or]
  exact ⟨hhost, List.append_ne_nil_of_left_ne_nil hshare _⟩

theorem splitPosix_tail (hhead : ∀ c, tail.head? = some c → isSep .posix c = false) :
    splitPosix tail = ⟨[], false, tail⟩ := by
  cases tail with
  | nil => rfl
  | cons c rest =>
    have hc : isSep .posix c = false := hhead c rfl
    rw [splitPosix, if_neg fun heq => by rw [heq] at hc; cases hc]

theorem splitDrive_tail (letter : Char) (hhead : ∀ c, tail.head? = some c → isSep .win32 c = false) :
    splitDrive letter tail = ⟨[letter, ':'], false, tail⟩ := by
  cases tail with
  | nil => rfl
  | cons c rest =>
    rw [splitDrive, if_neg (Bool.eq_false_iff.1 (hhead c rfl))]

/-- A path that neither a separator nor a drive begins is relative. -/
theorem splitWin32_tail (hhead : ∀ c, tail.head? = some c → isSep .win32 c = false)
    (hdrive : driveLength .win32 tail = 0) : splitWin32 tail = ⟨[], false, tail⟩ := by
  unfold splitWin32
  split
  · rfl
  · rename_i c
    rw [if_neg (Bool.eq_false_iff.1 (hhead c rfl))]
  · rename_i c d rest
    rw [if_neg (Bool.eq_false_iff.1 (hhead c rfl)), if_neg]
    rintro ⟨hletter, rfl⟩
    rw [driveLength, if_pos hletter] at hdrive
    cases hdrive

theorem splitWin32_sep_cons (hhead : ∀ c, tail.head? = some c → isSep .win32 c = false) :
    splitWin32 ('\\' :: tail) = ⟨[], true, tail⟩ := by
  cases tail with
  | nil => rfl
  | cons c rest =>
    rw [splitWin32, if_pos isSep_back, if_neg (Bool.eq_false_iff.1 (hhead c rfl))]

theorem isSep_of_isAlpha {os : Platform} (h : c.isAlpha = true) : isSep os c = false := by
  rw [Bool.eq_false_iff]
  intro hsep
  have hcases : c = '/' ∨ c = '\\' := by
    cases os with
    | posix => exact Or.inl (of_decide_eq_true hsep)
    | win32 => simpa [isSep] using hsep
  rcases hcases with rfl | rfl <;> revert h <;> decide

theorem splitWin32_drive {letter : Char} (h : letter.isAlpha = true) (tail : Name) :
    splitWin32 (letter :: ':' :: tail) = splitDrive letter tail := by
  rw [splitWin32, if_neg (Bool.eq_false_iff.1 (isSep_of_isAlpha h)), if_pos ⟨h, rfl⟩]

theorem splitRoot_render {path : Name} (hhead : ∀ c, tail.head? = some c → isSep os c = false)
    (hdrive : (splitRoot os path).device = [] → (splitRoot os path).absolute = false →
      driveLength os tail = 0) :
    ∃ tail', splitRoot os ((splitRoot os path).device ++
        (if (splitRoot os path).absolute then [sep os] else []) ++ tail) =
        ⟨(splitRoot os path).device, (splitRoot os path).absolute, tail'⟩ ∧
      segments os tail' = segments os tail := by
  cases os with
  | posix =>
    have hnone : (splitRoot .posix path).device = [] := splitPosix_device path
    refine ⟨tail, ?_, rfl⟩
    cases habsolute : (splitRoot .posix path).absolute with
    | true =>
      rw [hnone, if_pos rfl]
      rfl
    | false =>
      rw [hnone, if_neg Bool.false_ne_true]
      exact splitPosix_tail hhead
  | win32 =>
    rcases splitWin32_cases path with hnone | ⟨letter, hletter, hdevice⟩ | ⟨hdevice, habsolute⟩
    · change (splitRoot .win32 path).device = [] at hnone
      refine ⟨tail, ?_, rfl⟩
      cases habsolute : (splitRoot .win32 path).absolute with
      | true =>
        rw [hnone, if_pos rfl]
        exact splitWin32_sep_cons hhead
      | false =>
        rw [hnone, if_neg Bool.false_ne_true]
        exact splitWin32_tail hhead (hdrive hnone habsolute)
    · change (splitRoot .win32 path).device = [letter, ':'] at hdevice
      refine ⟨tail, ?_, rfl⟩
      cases habsolute : (splitRoot .win32 path).absolute with
      | true =>
        rw [hdevice, if_pos rfl]
        show splitWin32 (letter :: ':' :: '\\' :: tail) = _
        rw [splitWin32_drive hletter]
        rfl
      | false =>
        rw [hdevice, if_neg Bool.false_ne_true]
        show splitWin32 (letter :: ':' :: tail) = _
        rw [splitWin32_drive hletter, splitDrive_tail letter hhead]
    · change (splitRoot .win32 path).absolute = true at habsolute
      change IsDevice .win32 (splitRoot .win32 path).device at hdevice
      rcases hdevice with ⟨letter, hletter, hdevice⟩ |
        ⟨host, share, hhost, hshare, hplain, hplain', hdevice⟩
      · refine ⟨tail, ?_, rfl⟩
        rw [hdevice, habsolute, if_pos rfl]
        show splitWin32 (letter :: ':' :: '\\' :: tail) = _
        rw [splitWin32_drive hletter]
        rfl
      · refine ⟨'\\' :: tail, ?_, segments_sep_cons rfl tail⟩
        rw [hdevice, habsolute, if_pos rfl]
        have hpath : '\\' :: '\\' :: host ++ '\\' :: share ++ [sep .win32] ++ tail =
            '\\' :: '\\' :: (host ++ '\\' :: (share ++ '\\' :: tail)) := by
          simp [sep]
        rw [hpath, splitRoot, splitWin32, if_pos isSep_back, if_pos isSep_back]
        exact splitUnc_share _ tail hhost hshare hplain hplain' rfl

end Render

end Cine.Lib.NodePath
