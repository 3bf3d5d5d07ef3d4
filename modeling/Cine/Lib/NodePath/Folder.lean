import Cine.Lib.NodePath.Resolve

/-!
# A folder that has been resolved

What `resolve` gives is a path again, and a name in it stays in it.

* `located_written`: a path of a device and names is resolved to them.
* `located_join_resolve`: a name behind a folder is pushed behind its names.
* `located_append`: relative names behind other paths come last.
-/

namespace Cine.Lib.NodePath

variable {os : Platform} {lower : Name → Name}

/-! ## A device and names -/

variable {device name : Name} {names : List Name}

theorem splitRoot_device (h : IsDevice os device) (tail : Name) :
    ∃ tail', splitRoot os (device ++ sep os :: tail) = ⟨device, true, tail'⟩ ∧
      segments os tail' = segments os tail := by
  cases os with
  | posix =>
    have hnone : device = [] := h
    rw [hnone]
    exact ⟨tail, rfl, rfl⟩
  | win32 =>
    rcases h with ⟨letter, hletter, rfl⟩ | ⟨host, share, hhost, hshare, hplain, hplain', rfl⟩
    · refine ⟨tail, ?_, rfl⟩
      show splitWin32 (letter :: ':' :: '\\' :: tail) = _
      rw [splitWin32_drive hletter]
      rfl
    · refine ⟨'\\' :: tail, ?_, segments_sep_cons isSep_back tail⟩
      have happend : '\\' :: '\\' :: host ++ '\\' :: share ++ sep .win32 :: tail =
          '\\' :: '\\' :: (host ++ '\\' :: (share ++ '\\' :: tail)) := by
        simp [sep]
      rw [happend]
      show splitWin32 ('\\' :: '\\' :: (host ++ '\\' :: (share ++ '\\' :: tail))) = _
      rw [splitWin32, if_pos isSep_back, if_pos isSep_back,
        splitUnc_share _ _ hhost hshare hplain hplain' isSep_back]

theorem take_of_device (h : IsDevice os device) (names : List Name) (path : Name) :
    (⟨device, true, names⟩ : Resolving).take os lower path = ⟨device, true, names⟩ := by
  unfold Resolving.take
  dsimp only
  rw [if_pos rfl]
  split_ifs with hother hdevice
  · rfl
  · have hnone : (splitRoot os path).device = [] := by
      cases os with
      | posix => exact splitPosix_device path
      | win32 =>
        rcases h with ⟨letter, -, rfl⟩ | ⟨host, share, -, -, -, -, rfl⟩ <;> cases hdevice
    rw [hnone, hdevice]
  · rfl

theorem located_written (p : Process os lower) (h : IsDevice os device) (hnames : Parts os names) :
    p.located [device ++ sep os :: joinNames os names] = ⟨device, true, names⟩ := by
  obtain ⟨tail, hroot, hsegments⟩ := splitRoot_device h (joinNames os names)
  rw [located_singleton, hroot]
  dsimp only
  rw [hsegments, segments_joinNames hnames]
  exact take_of_device h names _

/-! ## A name in a folder -/

theorem join_written (h : IsDevice os device) (hnames : names ≠ []) (hname : name ≠ []) :
    join os [device ++ sep os :: joinNames os names, name] =
      normalize os (device ++ sep os :: joinNames os (names ++ [name])) := by
  have hjoined : joinNames os [device ++ sep os :: joinNames os names, name] =
      device ++ sep os :: joinNames os (names ++ [name]) := by
    rw [joinNames_cons (List.cons_ne_nil _ _), joinNames_singleton,
      joinNames_append hnames (List.cons_ne_nil _ _), joinNames_singleton, List.append_assoc]
    rfl
  unfold join
  rw [List.filter_cons_of_pos (by simp), List.filter_cons_of_pos (by simpa using hname),
    List.filter_nil]
  dsimp only
  rw [hjoined]
  split_ifs with hshare
  · obtain ⟨rfl, hshare⟩ := hshare
    rcases h with ⟨letter, hletter, rfl⟩ | ⟨host, share, hhost, -, hplain, -, rfl⟩
    · rw [List.cons_append, collapse_of_head (isSep_of_isAlpha hletter)]
    · -- a share is not collapsed
      obtain ⟨c, rest, rfl⟩ := List.exists_cons_of_ne_nil hhost
      have hc := hplain c List.mem_cons_self
      simp only [List.cons_append, namesShare, isSep_back, hc] at hshare
      cases hshare
  · rfl

theorem located_join_resolve (p : Process os lower) {paths : List Name}
    (hnames : normalNames false (p.located paths).segments ≠ []) (hname : name ≠ [])
    (hplain : ∀ c ∈ name, isSep os c = false) :
    (p.located [join os [p.resolve paths, name]]).device = (p.located paths).device ∧
      normalNames false (p.located [join os [p.resolve paths, name]]).segments =
        push false (normalNames false (p.located paths).segments) name := by
  have hdevice := (located_spec p paths).2.2
  have hall := names_located p paths
  unfold Process.resolve
  dsimp only
  generalize normalNames false (p.located paths).segments = names at hnames hall ⊢
  have hparts : Parts os (names ++ [name]) := by
    intro part hpart
    rcases List.mem_append.1 hpart with hpart | hpart
    · exact ⟨(hall part hpart).nonempty, (hall part hpart).plain⟩
    · rw [List.mem_singleton.1 hpart]
      exact ⟨hname, hplain⟩
  obtain ⟨hsame, hsegments⟩ := located_normalize p
    ((p.located paths).device ++ sep os :: joinNames os (names ++ [name]))
  rw [join_written hdevice hnames hname, hsame, hsegments, located_written p hdevice hparts]
  refine ⟨rfl, ?_⟩
  unfold normalNames
  rw [List.foldl_append, foldl_push_of_notMem (fun hmem => (hall _ hmem).dot rfl)
    (fun hmem => (hall _ hmem).dots rfl)]
  rfl

/-! ## Relative names -/

/-- A name without a root. -/
structure Relative (os : Platform) (name : Name) : Prop where
  nonempty : name ≠ []
  plain : ∀ c ∈ name, isSep os c = false
  colon : ':' ∉ name

theorem Relative.splitRoot (h : Relative os name) : splitRoot os name = ⟨[], false, name⟩ := by
  have hhead : ∀ c, name.head? = some c → isSep os c = false := fun c hc =>
    h.plain c (List.mem_of_mem_head? hc)
  cases os with
  | posix => exact splitPosix_tail hhead
  | win32 => exact splitWin32_tail hhead (driveLength_eq_zero h.colon)

theorem take_segments (path : Name) (r : Resolving) :
    ∃ front, (r.take os lower path).segments = front ++ r.segments := by
  unfold Resolving.take
  dsimp only
  split_ifs
  · exact ⟨[], rfl⟩
  · exact ⟨[], rfl⟩
  · exact ⟨[], rfl⟩
  · exact ⟨_, rfl⟩
  · exact ⟨_, rfl⟩

theorem foldr_take_relative (h : ∀ name ∈ names, Relative os name) :
    names.foldr (Resolving.take os lower) ⟨[], false, []⟩ = ⟨[], false, names⟩ := by
  induction names with
  | nil => rfl
  | cons name names ih =>
    have hname := h name List.mem_cons_self
    rw [List.foldr_cons, ih fun n hn => h n (List.mem_cons_of_mem _ hn)]
    unfold Resolving.take
    dsimp only
    rw [if_neg fun hno => hno.2.1 rfl, if_pos rfl, if_neg Bool.false_ne_true, hname.splitRoot,
      segments_plain hname.nonempty hname.plain]
    rfl

theorem foldr_take_segments (paths : List Name) (r : Resolving) :
    ∃ front, (paths.foldr (Resolving.take os lower) r).segments = front ++ r.segments := by
  induction paths with
  | nil => exact ⟨[], rfl⟩
  | cons path paths ih =>
    obtain ⟨front, hfront⟩ := ih
    obtain ⟨front', hfront'⟩ := @take_segments os lower path
      (paths.foldr (Resolving.take os lower) r)
    refine ⟨front' ++ front, ?_⟩
    rw [List.foldr_cons, hfront', hfront, List.append_assoc]

theorem located_append (p : Process os lower) (paths : List Name)
    (h : ∀ name ∈ names, Relative os name) :
    ∃ front, (p.located (paths ++ names)).segments = front ++ names := by
  have hfilter : names.filter (· ≠ []) = names := by
    apply List.filter_eq_self.2
    intro name hname
    simpa using (h name hname).nonempty
  unfold Process.located
  dsimp only
  rw [List.filter_append, hfilter, List.foldr_append, foldr_take_relative h]
  obtain ⟨front, hfront⟩ := @foldr_take_segments os lower (paths.filter (· ≠ [])) ⟨[], false, names⟩
  generalize (paths.filter (· ≠ [])).foldr (Resolving.take os lower) ⟨[], false, names⟩ = r
    at hfront ⊢
  obtain ⟨front', hfront'⟩ := @take_segments os lower (p.cwd r.device) r
  refine ⟨front' ++ front, ?_⟩
  rw [hfront', hfront, List.append_assoc]

end Cine.Lib.NodePath
