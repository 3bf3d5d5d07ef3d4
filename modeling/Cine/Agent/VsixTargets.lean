import Cine.Lib.JoinedKey
import Cine.Lib.NodePath
import Cine.Lib.OrderedMap
import Cine.Lib.Utf16

/-!
# The packages of blocked extensions

`lab-mgmt/violation-vsix.ts`: the blocked extensions of all machines are
collected by id and version, each pair gets a file name, and a file that is
there already is not downloaded again.

* `Collects` says what the list of targets should be: each blocked pair once,
  with the labels of its machines.  `Collected` is the invariant of the loop.
* `FilesApart` adds that different pairs have different names and that a
  package that is reported as present is the one of its pair, over any
  sequence of downloads into one folder.
* `files_apart_iff` says when all this holds.  Both the key of the map and
  the name of the file are two texts joined by a separator that either of
  them may contain, and the name loses which forbidden character it had.

`localeCompare`, `encodeURIComponent` and the replies of the marketplace are
parameters.  The folder tells all file names apart.
-/

namespace Cine.Agent.VsixTargets

open Cine.Lib
open Cine.Lib.NodePath

/-! ## Collecting the targets -/

inductive ExtensionVerdict
  | allowed
  | blocked
deriving DecidableEq, Repr

structure ComparedExtension where
  extensionId : String
  version : String
  displayName : Option String
  verdict : ExtensionVerdict
deriving DecidableEq, Repr

structure MachineComparison where
  studentMssv : String
  hostname : String
  rows : List ComparedExtension
deriving DecidableEq, Repr

structure ViolationVsixTarget where
  extensionId : String
  version : String
  displayName : Option String
  machines : List String
deriving DecidableEq, Repr

def ComparedExtension.pair (row : ComparedExtension) : String × String :=
  (row.extensionId, row.version)

def ViolationVsixTarget.pair (target : ViolationVsixTarget) : String × String :=
  (target.extensionId, target.version)

def machineLabel (row : MachineComparison) : String :=
  if trim row.studentMssv = "" then row.hostname else trim row.studentMssv

def separator : Char := '\x00'

/-- `${extensionId}\0${version}`. -/
def targetKey (p : String × String) : String :=
  p.1 ++ String.singleton separator ++ p.2

/-- Whether a name is missing or empty. -/
def noName (displayName : Option String) : Bool :=
  displayName.getD "" = ""

abbrev ByKey := OrderedMap String ViolationVsixTarget

/-- One blocked row of a machine. -/
def addRow (label : String) (byKey : ByKey) (row : ComparedExtension) : ByKey :=
  let key := targetKey row.pair
  match byKey.get? key with
  | some existing =>
    byKey.set key
      { existing with
        machines := insertLast existing.machines label
        displayName :=
          if noName existing.displayName && !noName row.displayName then row.displayName
          else existing.displayName }
  | none => byKey.set key ⟨row.extensionId, row.version, row.displayName, [label]⟩

def collectMachine (byKey : ByKey) (machine : MachineComparison) : ByKey :=
  machine.rows.foldl (fun byKey row =>
    if row.verdict ≠ .blocked then byKey else addRow (machineLabel machine) byKey row) byKey

/-- The order of the targets: by id, then by version. -/
def compareTargets (localeCompare : String → String → Int) (a b : ViolationVsixTarget) : Int :=
  let byId := localeCompare a.extensionId b.extensionId
  if byId ≠ 0 then byId else localeCompare a.version b.version

def collectViolationVsixTargets (localeCompare : String → String → Int)
    (comparisons : List MachineComparison) : List ViolationVsixTarget :=
  let byKey := comparisons.foldl collectMachine OrderedMap.empty
  (byKey.values.map fun target =>
    { target with
      machines := target.machines.mergeSort fun a b => localeCompare a b ≤ 0 }).mergeSort
    fun a b => compareTargets localeCompare a b ≤ 0

/-- The extension is blocked on a machine with that label. -/
def InstalledOn (comparisons : List MachineComparison) (p : String × String) (label : String) :
    Prop :=
  ∃ machine ∈ comparisons, machineLabel machine = label ∧
    ∃ row ∈ machine.rows, row.verdict = .blocked ∧ row.pair = p

def Blocked (comparisons : List MachineComparison) (p : String × String) : Prop :=
  ∃ label, InstalledOn comparisons p label

structure Collects (comparisons : List MachineComparison) (targets : List ViolationVsixTarget) :
    Prop where
  once : (targets.map ViolationVsixTarget.pair).Nodup
  pairs : ∀ p, p ∈ targets.map ViolationVsixTarget.pair ↔ Blocked comparisons p
  machines : ∀ target ∈ targets, target.machines.Nodup ∧
    ∀ label, label ∈ target.machines ↔ InstalledOn comparisons target.pair label

/-! ## The loop -/

/-- The blocked rows in the order of the loop, with the labels. -/
def blockedRows (comparisons : List MachineComparison) : List (String × ComparedExtension) :=
  comparisons.flatMap fun machine =>
    (machine.rows.filter fun row => row.verdict = .blocked).map fun row =>
      (machineLabel machine, row)

theorem mem_blockedRows {comparisons : List MachineComparison} {p : String × String}
    {label : String} : (∃ hit ∈ blockedRows comparisons, hit.1 = label ∧ hit.2.pair = p) ↔
      InstalledOn comparisons p label := by
  unfold blockedRows InstalledOn
  constructor
  · rintro ⟨hit, hhit, rfl, rfl⟩
    obtain ⟨machine, hmachine, hhit⟩ := List.mem_flatMap.1 hhit
    obtain ⟨row, hrow, rfl⟩ := List.mem_map.1 hhit
    obtain ⟨hrow, hblocked⟩ := List.mem_filter.1 hrow
    exact ⟨machine, hmachine, rfl, row, hrow, of_decide_eq_true hblocked, rfl⟩
  · rintro ⟨machine, hmachine, rfl, row, hrow, hblocked, rfl⟩
    refine ⟨(machineLabel machine, row), List.mem_flatMap.2 ⟨machine, hmachine, ?_⟩, rfl, rfl⟩
    exact List.mem_map.2 ⟨row, List.mem_filter.2 ⟨hrow, decide_eq_true hblocked⟩, rfl⟩

theorem collectMachine_eq (byKey : ByKey) (machine : MachineComparison) :
    collectMachine byKey machine =
      ((machine.rows.filter fun row => row.verdict = .blocked).map fun row =>
        (machineLabel machine, row)).foldl (fun m hit => addRow hit.1 m hit.2) byKey := by
  unfold collectMachine
  rw [List.foldl_map, List.foldl_filter]
  apply List.foldl_ext
  intro m row _
  by_cases hblocked : row.verdict = .blocked
  · rw [if_neg (not_not.2 hblocked), if_pos (decide_eq_true hblocked)]
  · rw [if_pos hblocked, if_neg (fun h => hblocked (of_decide_eq_true h))]

theorem foldl_collectMachine (comparisons : List MachineComparison) (byKey : ByKey) :
    comparisons.foldl collectMachine byKey =
      (blockedRows comparisons).foldl (fun m hit => addRow hit.1 m hit.2) byKey := by
  induction comparisons generalizing byKey with
  | nil => rfl
  | cons machine comparisons ih =>
    rw [List.foldl_cons, ih, collectMachine_eq]
    show _ = List.foldl _ byKey (_ ++ blockedRows comparisons)
    rw [List.foldl_append]

/-- What the map holds behind the rows `hits`. -/
structure Collected (hits : List (String × ComparedExtension)) (byKey : ByKey) : Prop where
  complete : ∀ hit ∈ hits, ∃ target, byKey.get? (targetKey hit.2.pair) = some target
  keyed : ∀ key target, byKey.get? key = some target → targetKey target.pair = key
  origin : ∀ key target, byKey.get? key = some target → ∃ hit ∈ hits, hit.2.pair = target.pair
  nodup : ∀ key target, byKey.get? key = some target → target.machines.Nodup
  machines : ∀ key target, byKey.get? key = some target → ∀ label,
    label ∈ target.machines ↔ ∃ hit ∈ hits, hit.1 = label ∧ targetKey hit.2.pair = key

theorem Collected.empty : Collected [] OrderedMap.empty := by
  constructor
  · intro hit hhit
    cases hhit
  all_goals
    intro key target htarget
    cases htarget

theorem get?_addRow_self (label : String) (byKey : ByKey) (row : ComparedExtension) :
    ∃ target, (addRow label byKey row).get? (targetKey row.pair) = some target ∧
      (byKey.get? (targetKey row.pair) = none ∧ target.pair = row.pair ∧
          target.machines = [label] ∨
        ∃ existing, byKey.get? (targetKey row.pair) = some existing ∧
          target.pair = existing.pair ∧ target.machines = insertLast existing.machines label) := by
  unfold addRow
  dsimp only
  cases hget : byKey.get? (targetKey row.pair) with
  | none => exact ⟨_, OrderedMap.get?_set_self _ _ _, Or.inl ⟨rfl, rfl, rfl⟩⟩
  | some existing =>
    exact ⟨_, OrderedMap.get?_set_self _ _ _, Or.inr ⟨existing, rfl, rfl, rfl⟩⟩

theorem get?_addRow_ne (label : String) (byKey : ByKey) {row : ComparedExtension} {key : String}
    (h : key ≠ targetKey row.pair) : (addRow label byKey row).get? key = byKey.get? key := by
  unfold addRow
  dsimp only
  split
  · exact OrderedMap.get?_set_ne h
  · exact OrderedMap.get?_set_ne h

theorem Collected.addRow {hits : List (String × ComparedExtension)} {byKey : ByKey}
    (h : Collected hits byKey) (label : String) (row : ComparedExtension) :
    Collected (hits ++ [(label, row)]) (addRow label byKey row) := by
  obtain ⟨added, hadded, hcases⟩ := get?_addRow_self label byKey row
  have hold : ∀ hit ∈ hits, hit ∈ hits ++ [(label, row)] :=
    fun hit => List.mem_append_left [(label, row)]
  have hnew : (label, row) ∈ hits ++ [(label, row)] :=
    List.mem_append_right hits List.mem_cons_self
  -- Another key keeps its target, and the row is no row of that key.
  have hother : ∀ key target, key ≠ targetKey row.pair →
      (VsixTargets.addRow label byKey row).get? key = some target →
      byKey.get? key = some target := by
    intro key target hkey hget
    rwa [get?_addRow_ne label byKey hkey] at hget
  constructor
  · intro hit hhit
    by_cases hkey : targetKey hit.2.pair = targetKey row.pair
    · exact ⟨added, hkey ▸ hadded⟩
    · rw [get?_addRow_ne label byKey hkey]
      rcases List.mem_append.1 hhit with hhit | hhit
      · exact h.complete hit hhit
      · rw [List.mem_singleton.1 hhit] at hkey
        exact absurd rfl hkey
  · intro key target hget
    by_cases hkey : key = targetKey row.pair
    · rw [hkey, hadded] at hget
      cases hget
      rcases hcases with ⟨-, hpair, -⟩ | ⟨existing, hexisting, hpair, -⟩
      · rw [hpair, hkey]
      · rw [hpair, hkey]
        exact h.keyed _ _ hexisting
    · exact h.keyed key target (hother key target hkey hget)
  · intro key target hget
    by_cases hkey : key = targetKey row.pair
    · rw [hkey, hadded] at hget
      cases hget
      rcases hcases with ⟨-, hpair, -⟩ | ⟨existing, hexisting, hpair, -⟩
      · exact ⟨(label, row), hnew, hpair.symm⟩
      · obtain ⟨hit, hhit, horigin⟩ := h.origin _ _ hexisting
        exact ⟨hit, hold hit hhit, horigin.trans hpair.symm⟩
    · obtain ⟨hit, hhit, horigin⟩ := h.origin key target (hother key target hkey hget)
      exact ⟨hit, hold hit hhit, horigin⟩
  · intro key target hget
    by_cases hkey : key = targetKey row.pair
    · rw [hkey, hadded] at hget
      cases hget
      rcases hcases with ⟨-, -, hmachines⟩ | ⟨existing, hexisting, -, hmachines⟩
      · rw [hmachines]
        exact List.nodup_singleton label
      · rw [hmachines]
        exact nodup_insertLast (h.nodup _ _ hexisting) label
    · exact h.nodup key target (hother key target hkey hget)
  · intro key target hget x
    by_cases hkey : key = targetKey row.pair
    · subst hkey
      rw [hadded] at hget
      cases hget
      have hlast : (∃ hit ∈ hits ++ [(label, row)], hit.1 = x ∧
          targetKey hit.2.pair = targetKey row.pair) ↔
          (∃ hit ∈ hits, hit.1 = x ∧ targetKey hit.2.pair = targetKey row.pair) ∨ x = label := by
        constructor
        · rintro ⟨hit, hhit, hlabel, hpair⟩
          rcases List.mem_append.1 hhit with hhit | hhit
          · exact Or.inl ⟨hit, hhit, hlabel, hpair⟩
          · rw [List.mem_singleton.1 hhit] at hlabel
            exact Or.inr hlabel.symm
        · rintro (⟨hit, hhit, hlabel, hpair⟩ | rfl)
          · exact ⟨hit, hold hit hhit, hlabel, hpair⟩
          · exact ⟨(x, row), hnew, rfl, rfl⟩
      rw [hlast]
      rcases hcases with ⟨hnone, -, hmachines⟩ | ⟨existing, hexisting, -, hmachines⟩
      · rw [hmachines, List.mem_singleton]
        refine ⟨Or.inr, fun hx => hx.resolve_left ?_⟩
        rintro ⟨hit, hhit, -, hpair⟩
        obtain ⟨target, htarget⟩ := h.complete hit hhit
        rw [hpair, hnone] at htarget
        cases htarget
      · rw [hmachines, mem_insertLast, h.machines _ _ hexisting x]
    · rw [h.machines key target (hother key target hkey hget) x]
      constructor
      · rintro ⟨hit, hhit, hlabel, hpair⟩
        exact ⟨hit, hold hit hhit, hlabel, hpair⟩
      · rintro ⟨hit, hhit, hlabel, hpair⟩
        rcases List.mem_append.1 hhit with hhit | hhit
        · exact ⟨hit, hhit, hlabel, hpair⟩
        · rw [List.mem_singleton.1 hhit] at hpair
          exact absurd hpair.symm hkey

theorem collected (comparisons : List MachineComparison) :
    Collected (blockedRows comparisons) (comparisons.foldl collectMachine OrderedMap.empty) := by
  rw [foldl_collectMachine]
  induction blockedRows comparisons using List.reverseRecOn with
  | nil => exact Collected.empty
  | append_singleton hits hit ih =>
    rw [List.foldl_append]
    exact ih.addRow hit.1 hit.2

/-! ## The targets -/

section Targets

variable {localeCompare : String → String → Int} {comparisons : List MachineComparison}

theorem mem_targets {target : ViolationVsixTarget} :
    target ∈ collectViolationVsixTargets localeCompare comparisons ↔
      ∃ kept, (comparisons.foldl collectMachine OrderedMap.empty).get? (targetKey kept.pair) =
          some kept ∧
        { kept with
          machines := kept.machines.mergeSort fun a b => localeCompare a b ≤ 0 } = target := by
  unfold collectViolationVsixTargets
  dsimp only
  rw [List.mem_mergeSort, List.mem_map]
  constructor
  · rintro ⟨kept, hkept, heq⟩
    obtain ⟨⟨key, _⟩, hentry, rfl⟩ := List.mem_map.1 hkept
    have hget := OrderedMap.get?_of_mem_entries hentry
    rw [← (collected comparisons).keyed key _ hget] at hget
    exact ⟨_, hget, heq⟩
  · rintro ⟨kept, hget, heq⟩
    exact ⟨kept, List.mem_map.2 ⟨_, OrderedMap.get?_eq_some_iff.1 hget, rfl⟩, heq⟩

theorem eq_of_targetKey_eq {a b : ViolationVsixTarget}
    (ha : a ∈ collectViolationVsixTargets localeCompare comparisons)
    (hb : b ∈ collectViolationVsixTargets localeCompare comparisons)
    (h : targetKey a.pair = targetKey b.pair) : a = b := by
  obtain ⟨kept, hget, rfl⟩ := mem_targets.1 ha
  obtain ⟨kept', hget', rfl⟩ := mem_targets.1 hb
  have hkey : targetKey kept.pair = targetKey kept'.pair := h
  rw [hkey, hget'] at hget
  cases hget
  rfl

theorem nodup_pairs :
    ((collectViolationVsixTargets localeCompare comparisons).map
      ViolationVsixTarget.pair).Nodup := by
  have hperm : ((collectViolationVsixTargets localeCompare comparisons).map
      ViolationVsixTarget.pair).Perm
      ((comparisons.foldl collectMachine OrderedMap.empty).values.map
        ViolationVsixTarget.pair) := by
    unfold collectViolationVsixTargets
    dsimp only
    refine ((List.mergeSort_perm _ _).map _).trans (List.Perm.of_eq ?_)
    rw [List.map_map]
    rfl
  have hkeys : ((comparisons.foldl collectMachine OrderedMap.empty).values.map
      ViolationVsixTarget.pair).map targetKey =
      (comparisons.foldl collectMachine OrderedMap.empty).entries.map Prod.fst := by
    unfold OrderedMap.values
    rw [List.map_map, List.map_map]
    apply List.map_congr_left
    intro entry hentry
    exact (collected comparisons).keyed _ _ (OrderedMap.get?_of_mem_entries hentry)
  rw [hperm.nodup_iff]
  apply List.Nodup.of_map targetKey
  rw [hkeys]
  exact OrderedMap.nodup _

theorem blocked_of_mem_targets {target : ViolationVsixTarget}
    (h : target ∈ collectViolationVsixTargets localeCompare comparisons) :
    Blocked comparisons target.pair := by
  obtain ⟨kept, hget, rfl⟩ := mem_targets.1 h
  obtain ⟨hit, hhit, hpair⟩ := (collected comparisons).origin _ _ hget
  exact ⟨hit.1, mem_blockedRows.1 ⟨hit, hhit, rfl, hpair⟩⟩

theorem collects_of_keys
    (h : ∀ p q, Blocked comparisons p → Blocked comparisons q → targetKey p = targetKey q → p = q) :
    Collects comparisons (collectViolationVsixTargets localeCompare comparisons) := by
  have hblocked : ∀ hit ∈ blockedRows comparisons, Blocked comparisons hit.2.pair :=
    fun hit hhit => ⟨hit.1, mem_blockedRows.1 ⟨hit, hhit, rfl, rfl⟩⟩
  have hcollected := collected comparisons
  refine ⟨nodup_pairs, ?_, ?_⟩
  · intro p
    constructor
    · intro hp
      obtain ⟨target, htarget, rfl⟩ := List.mem_map.1 hp
      exact blocked_of_mem_targets htarget
    · rintro ⟨label, hinstalled⟩
      obtain ⟨hit, hhit, -, rfl⟩ := mem_blockedRows.2 hinstalled
      obtain ⟨kept, hget⟩ := hcollected.complete hit hhit
      have hkey := hcollected.keyed _ _ hget
      obtain ⟨hit', hhit', hpair⟩ := hcollected.origin _ _ hget
      have heq : kept.pair = hit.2.pair :=
        h _ _ (hpair ▸ hblocked hit' hhit') (hblocked hit hhit) hkey
      rw [← hkey] at hget
      exact List.mem_map.2 ⟨_, mem_targets.2 ⟨kept, hget, rfl⟩, heq⟩
  · intro target htarget
    have hpair := blocked_of_mem_targets htarget
    obtain ⟨kept, hget, rfl⟩ := mem_targets.1 htarget
    refine ⟨(List.mergeSort_perm _ _).nodup_iff.2 (hcollected.nodup _ _ hget), ?_⟩
    intro label
    rw [← mem_blockedRows]
    show label ∈ List.mergeSort kept.machines _ ↔ _
    rw [List.mem_mergeSort, hcollected.machines _ _ hget]
    constructor
    · rintro ⟨hit, hhit, hlabel, hkey⟩
      exact ⟨hit, hhit, hlabel, h _ _ (hblocked hit hhit) hpair hkey⟩
    · rintro ⟨hit, hhit, hlabel, heq⟩
      exact ⟨hit, hhit, hlabel, congrArg targetKey heq⟩

theorem keys_of_collects
    (h : Collects comparisons (collectViolationVsixTargets localeCompare comparisons))
    {p q : String × String} (hp : Blocked comparisons p) (hq : Blocked comparisons q)
    (hkey : targetKey p = targetKey q) : p = q := by
  obtain ⟨a, ha, rfl⟩ := List.mem_map.1 ((h.pairs p).2 hp)
  obtain ⟨b, hb, rfl⟩ := List.mem_map.1 ((h.pairs q).2 hq)
  exact congrArg ViolationVsixTarget.pair (eq_of_targetKey_eq ha hb hkey)

end Targets

/-! ## The names of the files -/

/-- `/[<>:"/\\|?*\u0000-\u001f]/`. -/
def isForbidden (c : Char) : Bool :=
  c ∈ ['<', '>', ':', '"', '/', '\\', '|', '?', '*'] || c.toNat ≤ 0x1f

def clean (c : Char) : Char :=
  if isForbidden c then '_' else c

def vsixFileName (os : Platform) (extensionId version : String) : String :=
  let raw := (extensionId ++ "-" ++ version ++ ".vsix").toList.map clean
  if basename os raw = raw then String.ofList raw else "extension.vsix"

def chars (p : String × String) : List Char × List Char :=
  (p.1.toList, p.2.toList)

/-- The pair, written without the characters that no file name has. -/
def cleanChars (p : String × String) : List Char × List Char :=
  (p.1.toList.map clean, p.2.toList.map clean)

theorem chars_injective : Function.Injective chars := by
  rintro ⟨a, b⟩ ⟨a', b'⟩ h
  rw [chars, chars, Prod.mk.injEq] at h
  exact Prod.ext (String.toList_inj.1 h.1) (String.toList_inj.1 h.2)

theorem targetKey_eq_iff {p q : String × String} : targetKey p = targetKey q ↔
    p = q ∨ Continues separator (chars p) (chars q) ∨ Continues separator (chars q) (chars p) := by
  have hlist : ∀ r : String × String, (targetKey r).toList = joined separator (chars r) := by
    intro r
    unfold targetKey joined
    rw [String.toList_append, String.toList_append, String.toList_singleton, List.append_assoc]
    rfl
  rw [← String.toList_inj, hlist, hlist, joined_eq_iff, chars_injective.eq_iff]

theorem isForbidden_clean (c : Char) : isForbidden (clean c) = false := by
  unfold clean
  split_ifs with h
  · decide
  · exact Bool.not_eq_true _ ▸ h

theorem toList_vsixFileName (os : Platform) (p : String × String) :
    (vsixFileName os p.1 p.2).toList = joined '-' (cleanChars p) ++ ".vsix".toList := by
  have hraw : (p.1 ++ "-" ++ p.2 ++ ".vsix").toList.map clean =
      joined '-' (cleanChars p) ++ ".vsix".toList := by
    simp only [String.toList_append, List.map_append, joined, cleanChars]
    rw [List.append_assoc _ (List.map clean "-".toList)]
    rfl
  have hclean : ∀ c ∈ (p.1 ++ "-" ++ p.2 ++ ".vsix").toList.map clean, isForbidden c = false := by
    intro c hc
    obtain ⟨d, -, rfl⟩ := List.mem_map.1 hc
    exact isForbidden_clean d
  have hname : basename os ((p.1 ++ "-" ++ p.2 ++ ".vsix").toList.map clean) =
      (p.1 ++ "-" ++ p.2 ++ ".vsix").toList.map clean := by
    apply basename_eq_self
    · intro c hc
      by_contra hsep
      have hslash : c = '/' ∨ c = '\\' := by
        cases os <;> simp [isSep] at hsep
        · exact Or.inl hsep
        · exact or_iff_not_imp_left.2 hsep
      have hforbidden := hclean c hc
      rcases hslash with rfl | rfl <;> revert hforbidden <;> decide
    · intro hcolon
      have hforbidden := hclean ':' hcolon
      revert hforbidden
      decide
  unfold vsixFileName
  dsimp only
  rw [if_pos hname, String.toList_ofList, hraw]

theorem vsixFileName_eq_iff {os : Platform} {p q : String × String} :
    vsixFileName os p.1 p.2 = vsixFileName os q.1 q.2 ↔
      cleanChars p = cleanChars q ∨ Continues '-' (cleanChars p) (cleanChars q) ∨
        Continues '-' (cleanChars q) (cleanChars p) := by
  rw [← String.toList_inj, toList_vsixFileName, toList_vsixFileName, List.append_cancel_right_eq,
    joined_eq_iff]

/-! ## Downloads -/

def packageUrl : String :=
  "https://marketplace.visualstudio.com/_apis/public/gallery/publishers"

def vsixPackageUrl (encodeURIComponent : String → String) (extensionId version : String) :
    Option String :=
  let chars := extensionId.toList
  match chars.idxOf? '.' with
  | none => none
  | some dot =>
    if dot = 0 ∨ dot = chars.length - 1 then none
    else if trim version = "" then none
    else
      let publisher := encodeURIComponent (String.ofList (chars.take dot))
      let name := encodeURIComponent (String.ofList (chars.drop (dot + 1)))
      let ver := encodeURIComponent (trim version)
      some (packageUrl ++ "/" ++ publisher ++ "/vsextensions/" ++ name ++ "/" ++ ver ++
        "/vspackage")

inductive VsixDownloadStatus
  | downloaded
  | already
  | failed
deriving DecidableEq, Repr

structure VsixDownloadEntry where
  extensionId : String
  version : String
  displayName : Option String
  machines : List String
  fileName : String
  status : VsixDownloadStatus
  error : Option String
deriving DecidableEq, Repr

/-- What comes of a request and of writing its body to the disk. -/
inductive Reply
  | answered (status : Nat) (body : Option Nat)
  | threw (message : String)
deriving DecidableEq, Repr

/-- The files of the folder that are ready, each with the pair it has been
downloaded for. -/
abbrev Folder := String → Option (String × String)

abbrev FetchImpl := ViolationVsixTarget → String → Reply

section Downloads

variable (os : Platform) (encodeURIComponent : String → String) (fetchImpl : FetchImpl)

def downloadOne (folder : Folder) (target : ViolationVsixTarget) : Folder × VsixDownloadEntry :=
  let fileName := vsixFileName os target.extensionId target.version
  let entry (status : VsixDownloadStatus) (error : Option String) : VsixDownloadEntry :=
    ⟨target.extensionId, target.version, target.displayName, target.machines, fileName, status,
      error⟩
  if (folder fileName).isSome then (folder, entry .already none)
  else
    match vsixPackageUrl encodeURIComponent target.extensionId target.version with
    | none => (folder, entry .failed (some "Không có publisher.name hoặc phiên bản để tải."))
    | some url =>
      match fetchImpl target url with
      | .threw message => (folder, entry .failed (some message))
      | .answered status body =>
        match body with
        | none =>
          (folder, entry .failed (some ("Marketplace trả HTTP " ++ toString status ++ ".")))
        | some size =>
          if status < 200 ∨ 299 < status then
            (folder, entry .failed (some ("Marketplace trả HTTP " ++ toString status ++ ".")))
          else if size = 0 then (folder, entry .failed (some "File tải về rỗng."))
          else (Function.update folder fileName (some target.pair), entry .downloaded none)

/-- The loop over the targets. -/
def downloadAll (folder : Folder) (targets : List ViolationVsixTarget) :
    Folder × List VsixDownloadEntry :=
  targets.foldl (fun s target =>
    let step := downloadOne os encodeURIComponent fetchImpl s.1 target
    (step.1, s.2 ++ [step.2])) (folder, [])

end Downloads

/-- One press of the button. -/
structure VsixRun where
  comparisons : List MachineComparison
  fetchImpl : FetchImpl

section Runs

variable (os : Platform) (localeCompare : String → String → Int)
  (encodeURIComponent : String → String)

def downloadViolationVsixFiles (folder : Folder) (run : VsixRun) :
    Folder × List VsixDownloadEntry :=
  downloadAll os encodeURIComponent run.fetchImpl folder
    (collectViolationVsixTargets localeCompare run.comparisons)

/-- The folder behind a sequence of runs that has found it empty. -/
def folderAfter (runs : List VsixRun) : Folder :=
  runs.foldl (fun folder run =>
    (downloadViolationVsixFiles os localeCompare encodeURIComponent folder run).1) fun _ => none

/-- Different packages get different files, in every sequence of runs. -/
structure FilesApart (runs : List VsixRun) : Prop where
  collects : ∀ run ∈ runs,
    Collects run.comparisons (collectViolationVsixTargets localeCompare run.comparisons)
  names : ∀ run ∈ runs, ∀ run' ∈ runs,
    ∀ target ∈ collectViolationVsixTargets localeCompare run.comparisons,
    ∀ target' ∈ collectViolationVsixTargets localeCompare run'.comparisons,
      target.pair ≠ target'.pair →
        vsixFileName os target.extensionId target.version ≠
          vsixFileName os target'.extensionId target'.version
  already : ∀ before run after, runs = before ++ run :: after →
    ∀ entry ∈ (downloadViolationVsixFiles os localeCompare encodeURIComponent
        (folderAfter os localeCompare encodeURIComponent before) run).2,
      entry.status = .already →
        (downloadViolationVsixFiles os localeCompare encodeURIComponent
          (folderAfter os localeCompare encodeURIComponent before) run).1 entry.fileName =
            some (entry.extensionId, entry.version)

end Runs

/-- No two blocked pairs run together: not with the separator of the map in
one run, and not with the hyphen of the file name in any two runs. -/
structure RunsApart (runs : List VsixRun) : Prop where
  keys : ∀ run ∈ runs, ∀ p q, Blocked run.comparisons p → Blocked run.comparisons q →
    ¬ Continues separator (chars p) (chars q)
  names : ∀ run ∈ runs, ∀ run' ∈ runs, ∀ p q, Blocked run.comparisons p →
    Blocked run'.comparisons q → p ≠ q →
      cleanChars p ≠ cleanChars q ∧ ¬ Continues '-' (cleanChars p) (cleanChars q)

section Folder

variable (os : Platform) (encodeURIComponent : String → String) (fetchImpl : FetchImpl)

/-- Every file of the folder has the name of the pair it was downloaded for,
and that pair has been blocked in one of the runs. -/
def Owned (seen : String × String → Prop) (folder : Folder) : Prop :=
  ∀ name p, folder name = some p → vsixFileName os p.1 p.2 = name ∧ seen p

theorem downloadOne_cases (folder : Folder) (target : ViolationVsixTarget) :
    ∃ folder' entry, downloadOne os encodeURIComponent fetchImpl folder target = (folder', entry) ∧
      (entry.extensionId, entry.version) = target.pair ∧
      entry.fileName = vsixFileName os target.extensionId target.version ∧
      ((folder' = folder ∧ (entry.status = .already → (folder entry.fileName).isSome)) ∨
        (folder entry.fileName = none ∧
          folder' = Function.update folder entry.fileName (some target.pair) ∧
          entry.status = .downloaded)) := by
  unfold downloadOne
  dsimp only
  by_cases hready : (folder (vsixFileName os target.extensionId target.version)).isSome
  · rw [if_pos hready]
    exact ⟨_, _, rfl, rfl, rfl, Or.inl ⟨rfl, fun _ => hready⟩⟩
  · rw [if_neg hready]
    have hnone := Option.not_isSome_iff_eq_none.1 hready
    split
    · exact ⟨_, _, rfl, rfl, rfl, Or.inl ⟨rfl, nofun⟩⟩
    · split
      · exact ⟨_, _, rfl, rfl, rfl, Or.inl ⟨rfl, nofun⟩⟩
      · split
        · exact ⟨_, _, rfl, rfl, rfl, Or.inl ⟨rfl, nofun⟩⟩
        · split_ifs
          · exact ⟨_, _, rfl, rfl, rfl, Or.inl ⟨rfl, nofun⟩⟩
          · exact ⟨_, _, rfl, rfl, rfl, Or.inl ⟨rfl, nofun⟩⟩
          · exact ⟨_, _, rfl, rfl, rfl, Or.inr ⟨hnone, rfl, rfl⟩⟩

/-- What the loop has done: the entries are about the targets, and what is
reported as present is a file of the folder. -/
structure Downloaded (seen : String × String → Prop) (targets : List ViolationVsixTarget)
    (s : Folder × List VsixDownloadEntry) : Prop where
  owned : Owned os seen s.1
  entries : ∀ entry ∈ s.2, ∃ target ∈ targets, (entry.extensionId, entry.version) = target.pair ∧
    entry.fileName = vsixFileName os target.extensionId target.version
  already : ∀ entry ∈ s.2, entry.status = .already → (s.1 entry.fileName).isSome

theorem downloaded_downloadAll {seen : String × String → Prop} {folder : Folder}
    (hfolder : Owned os seen folder) {targets : List ViolationVsixTarget}
    (hseen : ∀ target ∈ targets, seen target.pair) :
    Downloaded os seen targets (downloadAll os encodeURIComponent fetchImpl folder targets) := by
  unfold downloadAll
  induction targets using List.reverseRecOn with
  | nil => exact ⟨hfolder, nofun, nofun⟩
  | append_singleton targets target ih =>
    have ih := ih fun t ht => hseen t (List.mem_append_left [target] ht)
    have hself := hseen target (List.mem_append_right targets List.mem_cons_self)
    rw [List.foldl_append]
    generalize List.foldl _ (folder, []) targets = s at ih
    obtain ⟨folder', entry, hstep, hpair, hname, hcases⟩ :=
      downloadOne_cases os encodeURIComponent fetchImpl s.1 target
    simp only [List.foldl_cons, List.foldl_nil, hstep]
    constructor
    · rcases hcases with ⟨rfl, -⟩ | ⟨-, rfl, -⟩
      · exact ih.owned
      · intro name p hp
        dsimp only at hp
        by_cases h : name = entry.fileName
        · rw [h, Function.update_self] at hp
          cases hp
          exact ⟨(h.trans hname).symm, hself⟩
        · rw [Function.update_of_ne h] at hp
          exact ih.owned name p hp
    · intro e he
      rcases List.mem_append.1 he with he | he
      · obtain ⟨t, ht, h⟩ := ih.entries e he
        exact ⟨t, List.mem_append_left [target] ht, h⟩
      · rw [List.mem_singleton.1 he]
        exact ⟨target, List.mem_append_right targets List.mem_cons_self, hpair, hname⟩
    · intro e he halready
      rcases List.mem_append.1 he with he | he
      · have hready := ih.already e he halready
        rcases hcases with ⟨rfl, -⟩ | ⟨hnone, rfl, -⟩
        · exact hready
        · -- The file that is written was not there before.
          dsimp only
          rw [Function.update_of_ne]
          · exact hready
          · intro h
            rw [h, hnone] at hready
            cases hready
      · rw [List.mem_singleton.1 he] at halready ⊢
        rcases hcases with ⟨rfl, hready⟩ | ⟨-, -, hdownloaded⟩
        · exact hready halready
        · rw [hdownloaded] at halready
          cases halready

theorem Downloaded.own {seen : String × String → Prop} {targets : List ViolationVsixTarget}
    {s : Folder × List VsixDownloadEntry} (h : Downloaded os seen targets s)
    (hseen : ∀ target ∈ targets, seen target.pair)
    (hnames : ∀ p q, seen p → seen q → vsixFileName os p.1 p.2 = vsixFileName os q.1 q.2 → p = q)
    {entry : VsixDownloadEntry} (hentry : entry ∈ s.2) (halready : entry.status = .already) :
    s.1 entry.fileName = some (entry.extensionId, entry.version) := by
  obtain ⟨target, htarget, hpair, hname⟩ := h.entries entry hentry
  obtain ⟨p, hp⟩ := Option.isSome_iff_exists.1 (h.already entry hentry halready)
  obtain ⟨hpname, hpseen⟩ := h.owned _ p hp
  have heq : p = target.pair :=
    hnames p target.pair hpseen (hseen target htarget) (hpname.trans hname)
  rw [hp, hpair, heq]

variable (localeCompare : String → String → Int)

theorem owned_folderAfter {seen : String × String → Prop} {runs : List VsixRun}
    (hseen : ∀ run ∈ runs, ∀ p, Blocked run.comparisons p → seen p) :
    Owned os seen (folderAfter os localeCompare encodeURIComponent runs) := by
  unfold folderAfter
  induction runs using List.reverseRecOn with
  | nil => exact nofun
  | append_singleton runs run ih =>
    rw [List.foldl_append]
    refine (downloaded_downloadAll os encodeURIComponent run.fetchImpl
      (ih fun r hr => hseen r (List.mem_append_left [run] hr)) ?_).owned
    intro target htarget
    exact hseen run (List.mem_append_right runs List.mem_cons_self) _
      (blocked_of_mem_targets htarget)

end Folder

/-- A pair that is blocked in one of the runs. -/
def Seen (runs : List VsixRun) (p : String × String) : Prop :=
  ∃ run ∈ runs, Blocked run.comparisons p

theorem RunsApart.names_injective {os : Platform} {runs : List VsixRun} (h : RunsApart runs)
    (p q : String × String) (hp : Seen runs p) (hq : Seen runs q)
    (hname : vsixFileName os p.1 p.2 = vsixFileName os q.1 q.2) : p = q := by
  obtain ⟨run, hrun, hp⟩ := hp
  obtain ⟨run', hrun', hq⟩ := hq
  by_contra hne
  rcases vsixFileName_eq_iff.1 hname with heq | hcontinues | hcontinues
  · exact (h.names run hrun run' hrun' p q hp hq hne).1 heq
  · exact (h.names run hrun run' hrun' p q hp hq hne).2 hcontinues
  · exact (h.names run' hrun' run hrun q p hq hp (Ne.symm hne)).2 hcontinues

/-- Different packages get different files exactly where no two blocked pairs
run together. -/
theorem files_apart_iff (os : Platform) (localeCompare : String → String → Int)
    (encodeURIComponent : String → String) (runs : List VsixRun) :
    FilesApart os localeCompare encodeURIComponent runs ↔ RunsApart runs := by
  constructor
  · intro h
    constructor
    · intro run hrun p q hp hq hcontinues
      have hkey : targetKey p = targetKey q := targetKey_eq_iff.2 (Or.inr (Or.inl hcontinues))
      have heq := keys_of_collects (h.collects run hrun) hp hq hkey
      exact hcontinues.ne (congrArg chars heq)
    · intro run hrun run' hrun' p q hp hq hne
      obtain ⟨target, htarget, rfl⟩ := List.mem_map.1 (((h.collects run hrun).pairs p).2 hp)
      obtain ⟨target', htarget', rfl⟩ := List.mem_map.1 (((h.collects run' hrun').pairs q).2 hq)
      have hname := h.names run hrun run' hrun' target htarget target' htarget' hne
      have hiff := @vsixFileName_eq_iff os target.pair target'.pair
      exact ⟨fun heq => hname (hiff.2 (Or.inl heq)),
        fun hcontinues => hname (hiff.2 (Or.inr (Or.inl hcontinues)))⟩
  · intro h
    constructor
    · intro run hrun
      apply collects_of_keys
      intro p q hp hq hkey
      rcases targetKey_eq_iff.1 hkey with heq | hcontinues | hcontinues
      · exact heq
      · exact absurd hcontinues (h.keys run hrun p q hp hq)
      · exact absurd hcontinues (h.keys run hrun q p hq hp)
    · intro run hrun run' hrun' target htarget target' htarget' hne hname
      exact hne (h.names_injective _ _ ⟨run, hrun, blocked_of_mem_targets htarget⟩
        ⟨run', hrun', blocked_of_mem_targets htarget'⟩ hname)
    · rintro before run after rfl entry hentry halready
      have hrun : run ∈ before ++ run :: after :=
        List.mem_append_right before List.mem_cons_self
      have hfolder : Owned os (Seen (before ++ run :: after))
          (folderAfter os localeCompare encodeURIComponent before) :=
        owned_folderAfter os encodeURIComponent localeCompare fun earlier hearlier p hp =>
          ⟨earlier, List.mem_append_left (run :: after) hearlier, hp⟩
      have hseen : ∀ target ∈ collectViolationVsixTargets localeCompare run.comparisons,
          Seen (before ++ run :: after) target.pair :=
        fun target htarget => ⟨run, hrun, blocked_of_mem_targets htarget⟩
      have hdownloaded :=
        downloaded_downloadAll os encodeURIComponent run.fetchImpl hfolder hseen
      exact hdownloaded.own os hseen h.names_injective hentry halready

def hyphenatedId : ComparedExtension := ⟨"evil.tool-1", "2.0.0", none, .blocked⟩

def hyphenatedVersion : ComparedExtension := ⟨"evil.tool", "1-2.0.0", none, .blocked⟩

/-- Two packages whose files have one name. -/
def hyphenatedRun : VsixRun where
  comparisons := [⟨"SV1", "PC-01", [hyphenatedId, hyphenatedVersion]⟩]
  fetchImpl := fun _ _ => .answered 200 (some 4)

theorem vsixFileName_hyphenated :
    vsixFileName .win32 hyphenatedId.extensionId hyphenatedId.version =
      vsixFileName .win32 hyphenatedVersion.extensionId hyphenatedVersion.version :=
  (@vsixFileName_eq_iff .win32 hyphenatedId.pair hyphenatedVersion.pair).2
    (Or.inr (Or.inr ⟨['1'], by decide, by decide⟩))

def orderOf (a b : String) : Int :=
  if a < b then -1 else if a = b then 0 else 1

/-- The second package would be reported as present with the file of the
first. -/
theorem hyphenated_packages_share : ¬ FilesApart .win32 orderOf id [hyphenatedRun] := by
  intro h
  have hrun : hyphenatedRun ∈ [hyphenatedRun] := List.mem_cons_self
  have hblocked : ∀ row ∈ [hyphenatedId, hyphenatedVersion], row.verdict = .blocked →
      ∃ target ∈ collectViolationVsixTargets orderOf hyphenatedRun.comparisons,
        target.pair = row.pair := by
    intro row hrow hverdict
    exact List.mem_map.1 (((h.collects hyphenatedRun hrun).pairs row.pair).2
      ⟨_, _, List.mem_cons_self, rfl, row, hrow, hverdict, rfl⟩)
  obtain ⟨target, htarget, hpair⟩ := hblocked hyphenatedId List.mem_cons_self rfl
  obtain ⟨target', htarget', hpair'⟩ :=
    hblocked hyphenatedVersion (List.mem_cons_of_mem _ List.mem_cons_self) rfl
  have hne : target.pair ≠ target'.pair := by
    rw [hpair, hpair']
    decide
  have hname := h.names hyphenatedRun hrun hyphenatedRun hrun target htarget target' htarget' hne
  have hfirst := Prod.mk.inj hpair
  have hsecond := Prod.mk.inj hpair'
  rw [hfirst.1, hfirst.2, hsecond.1, hsecond.2] at hname
  exact hname vsixFileName_hyphenated

end Cine.Agent.VsixTargets
