import Cine.Agent.Containment
import Cine.Lib.NodePath.Folder

/-!
# The folder of a student

The folder that `join` of `session-controller.ts` takes as the workspace, and
which names `validateFilename` accepts in it.

* `names_workspaceDir`: the workspace is never a root.
* `validateFilename_isSome`: of the names with letters, digits, `_`, `-` and `.`
  and without `..`, it refuses `.` and those of a device of Windows.
-/

namespace Cine.Agent.JoinWorkspace

open Cine.Lib.NodePath
open Cine.Agent.Containment
open Cine.Agent.Workspace (safeFilenameChar windowsReservedDeviceNames)

variable {os : Platform} {lower : Name → Name}

def IsSafeForPathSegment (value : Name) : Prop :=
  (value ≠ [] ∧ value.all safeFilenameChar = true) ∧ ¬ "..".toList <:+: value

instance (value : Name) : Decidable (IsSafeForPathSegment value) :=
  inferInstanceAs (Decidable (_ ∧ _))

def workspaceDirname : Name := "exam-workspace".toList

/-- The workspace of a student who joins. -/
def workspaceDir (p : Process os lower) (workspaceRoot studentId : Name) : Name :=
  p.resolve [workspaceRoot, workspaceDirname, studentId]

/-- The part of a name before its first dot. -/
def stem (filename : Name) : Name := (filename.splitOn '.').headD []

theorem relative_of_safe (os : Platform) {name : Name} (hne : name ≠ [])
    (hall : name.all safeFilenameChar = true) : Relative os name := by
  have hchar : ∀ c ∈ name, c ≠ '/' ∧ c ≠ '\\' ∧ c ≠ ':' := fun c hc =>
    safeFilenameChar_plain (List.all_eq_true.1 hall c hc)
  refine ⟨hne, ?_, fun hmem => (hchar _ hmem).2.2 rfl⟩
  intro c hc
  obtain ⟨hfront, hback, -⟩ := hchar c hc
  cases os <;> simp [isSep, hfront, hback]

theorem names_workspaceDir (p : Process os lower) (workspaceRoot : Name) {studentId : Name}
    (h : IsSafeForPathSegment studentId) :
    normalNames false (p.located [workspaceRoot, workspaceDirname, studentId]).segments ≠ [] := by
  have hrelative : ∀ name ∈ [workspaceDirname, studentId], Relative os name := by
    intro name hname
    rcases List.mem_pair.1 hname with rfl | rfl
    · exact relative_of_safe os (List.cons_ne_nil _ _) (by decide)
    · exact relative_of_safe os h.1.1 h.1.2
  obtain ⟨front, hfront⟩ := located_append p [workspaceRoot] hrelative
  have hdots : studentId ≠ ['.', '.'] := by
    rintro rfl
    exact h.2 (List.infix_refl _)
  rw [List.singleton_append] at hfront
  rw [hfront, normalNames, List.foldl_append]
  generalize front.foldl (push false) [] = names
  have hdirname : push false names workspaceDirname = names ++ [workspaceDirname] :=
    push_name (by decide) (by decide)
  rw [List.foldl_cons, List.foldl_cons, List.foldl_nil, hdirname]
  by_cases hdot : studentId = ['.']
  · rw [hdot, push_dot]
    exact List.append_ne_nil_of_right_ne_nil _ (List.cons_ne_nil _ _)
  · rw [push_name hdot hdots]
    exact List.append_ne_nil_of_right_ne_nil _ (List.cons_ne_nil _ _)

theorem startsWith_resolve_join (p : Process os lower) {paths : List Name} {name : Name}
    (hnames : normalNames false (p.located paths).segments ≠ []) (hname : name ≠ [])
    (hplain : ∀ c ∈ name, isSep os c = false) (hdots : name ≠ ['.', '.']) :
    p.resolve [p.resolve paths] ++ [sep os] <+: p.resolve [join os [p.resolve paths, name]] ↔
      name ≠ ['.'] := by
  obtain ⟨hdevice, hpush⟩ := located_join_resolve p hnames hname hplain
  have hwritten : p.located [p.resolve paths] =
      ⟨(p.located paths).device, true, normalNames false (p.located paths).segments⟩ :=
    located_written p (located_spec p paths).2.2 fun part hpart =>
      ⟨(names_located p paths part hpart).nonempty, (names_located p paths part hpart).plain⟩
  have hnormal := normalNames_normalNames (p.located paths).segments
  constructor
  · rintro hprefix rfl
    obtain ⟨-, -, rest, hrest, hbehind⟩ := names_of_startsWith hprefix
    rw [hpush, push_dot, hwritten] at hbehind
    dsimp only at hbehind
    rw [hnormal] at hbehind
    exact hrest (List.append_right_eq_self.1 hbehind.symm)
  · intro hdot
    refine ⟨name, ?_⟩
    rw [push_name hdot hdots] at hpush
    unfold Process.resolve at hdevice hpush hwritten ⊢
    dsimp only at hdevice hpush hwritten ⊢
    rw [hwritten, hdevice, hpush, joinNames_append hnames (List.cons_ne_nil _ _),
      joinNames_singleton]
    dsimp only
    rw [hnormal]
    simp

theorem validateFilename_isSome (p : Process os lower) (workspaceRoot : Name)
    {studentId filename : Name} (hid : IsSafeForPathSegment studentId) (hname : filename ≠ [])
    (hall : filename.all safeFilenameChar = true) (hdots : ¬ "..".toList <:+: filename) :
    (validateFilename p (workspaceDir p workspaceRoot studentId) filename).isSome = true ↔
      filename ≠ ['.'] ∧ Workspace.lower (stem filename) ∉ windowsReservedDeviceNames := by
  have hchar : ∀ c ∈ filename, c ≠ '/' ∧ c ≠ '\\' ∧ c ≠ ':' := fun c hc =>
    safeFilenameChar_plain (List.all_eq_true.1 hall c hc)
  have hseps : ¬ ('/' ∈ filename ∨ '\\' ∈ filename) := by
    rintro (hmem | hmem)
    · exact (hchar _ hmem).1 rfl
    · exact (hchar _ hmem).2.1 rfl
  have hne : filename ≠ ['.', '.'] := by
    rintro rfl
    exact hdots (List.infix_refl _)
  have hstarts := startsWith_resolve_join p (names_workspaceDir p workspaceRoot hid) hname
    (relative_of_safe os hname hall).plain hne
  unfold validateFilename workspaceDir
  rw [if_neg hname, if_neg hseps, if_neg hdots, if_neg (not_not.2 hall)]
  dsimp only
  unfold stem
  split_ifs with hreserved hprefix
  · exact iff_of_false Bool.false_ne_true fun h => h.2 hreserved
  · exact iff_of_true rfl ⟨hstarts.1 hprefix, hreserved⟩
  · exact iff_of_false Bool.false_ne_true fun h => hprefix (hstarts.2 h.1)

end Cine.Agent.JoinWorkspace
