import Cine.Grading.Gradebook.WholeClass

/-!
# Absent students in the grade book

A row of `submission` is there for every student and every required file
from the moment the roster is frozen, and it has a storage key when the file
is collected.  The export takes a student for absent who has no row at all
in its scope (`absent_iff_no_row`), so it tells absence truly exactly when each
student with a row has a collected file (`absence_told_iff`).
-/

namespace Cine.Grading

open Cine.Lib

variable {K : Type}

/-! ## The fold -/

section Fold

theorem foldStudentResults_absent {roster : List RosterRow} {results : List PlanStudent}
    (hrows : ∀ r ∈ results, r.outcome ≠ .blank .absent) {p : PlanStudent}
    (hp : p ∈ foldStudentResults roster results) :
    p.outcome = .blank .absent ↔ ¬ ∃ r ∈ results, lowerCase r.mssv = lowerCase p.mssv := by
  unfold foldStudentResults at hp
  dsimp only at hp
  obtain ⟨⟨k, p'⟩, hentry, rfl⟩ := List.mem_map.1 hp
  have hfound := OrderedMap.get?_of_mem_entries hentry
  obtain rfl := fold_keyed (roster_keyed roster) results k p' hfound
  have houtcome := @get?_fold_rows (.ofList (roster.map fun r =>
    (lowerCase r.mssv, { mssv := r.mssv, name := r.name, outcome := .blank .absent })))
    (.blank .absent) results (lowerCase p'.mssv)
  rw [hfound, Option.map_some] at houtcome
  by_cases hnil : (results.filter fun r => lowerCase r.mssv = lowerCase p'.mssv) = []
  · have hnone : ¬ ∃ r ∈ results, lowerCase r.mssv = lowerCase p'.mssv := by
      rintro ⟨r, hr, hkey⟩
      exact List.not_mem_nil (hnil ▸ List.mem_filter.2 ⟨hr, decide_eq_true hkey⟩)
    rw [if_pos hnil] at houtcome
    refine ⟨fun _ => hnone, fun _ => ?_⟩
    obtain ⟨s, hs, hsame⟩ := Option.map_eq_some_iff.1 houtcome.symm
    obtain ⟨r, -, heq⟩ := List.mem_map.1 (OrderedMap.mem_of_get?_ofList hs)
    rw [← hsame, ← (Prod.mk.inj heq).2]
  · rw [if_neg hnil] at houtcome
    obtain ⟨r, rest, hcons⟩ := List.exists_cons_of_ne_nil hnil
    obtain ⟨hr, hkey⟩ := List.mem_filter.1 (hcons ▸ List.mem_cons_self)
    refine ⟨fun habsent => ?_, fun hnone => (hnone ⟨r, hr, of_decide_eq_true hkey⟩).elim⟩
    rw [hcons, habsent] at houtcome
    cases rest with
    | nil => exact (hrows r hr (Option.some.inj houtcome).symm).elim
    | cons r' rest => cases houtcome

end Fold

/-! ## The export -/

theorem outcomeOf_ne_absent (r : SubmissionResultRow) : outcomeOf r ≠ .blank .absent := by
  unfold outcomeOf
  have hreason : ∀ status cls, blankReasonOf status cls ≠ some .absent := by
    intro status cls
    cases status with
    | none => nofun
    | some status => cases status <;> cases cls <;> nofun
  split
  · rename_i reason heq
    intro h
    cases h
    exact hreason _ _ heq
  · split <;> nofun

namespace Db

variable (db : Db K) (t : GradebookTables) (sessionId : String) (deliverableId : Option String)

/-- The student has a row in the scope of the export. -/
def HasRow (mssv : String) : Prop :=
  ∃ s ∈ db.submissionsIn t sessionId deliverableId, lowerCase s.studentMssv = lowerCase mssv

/-- The student has a collected file in the scope of the export. -/
def HasFile (mssv : String) : Prop :=
  ∃ s ∈ db.submissionsIn t sessionId deliverableId,
    lowerCase s.studentMssv = lowerCase mssv ∧ s.storageKey.isSome = true

/-- Absence is told of the students without a collected file and of no
others. -/
def TellsAbsence : Prop :=
  ∀ p ∈ (db.loadStudents t sessionId deliverableId).1,
    (¬ db.HasFile t sessionId deliverableId p.mssv → p.outcome = .blank .absent) ∧
      (db.HasFile t sessionId deliverableId p.mssv → p.outcome ≠ .blank .absent)

/-- The student is in the export: on the roster, where the totals are
exported. -/
def IsExported (mssv : String) : Prop :=
  db.ExportsTotals sessionId deliverableId →
    ∃ r ∈ t.rosterIn sessionId, lowerCase r.mssv = lowerCase mssv

variable {db t sessionId deliverableId}

theorem isSome_loadStudentTotals (hproblems : db.orderedProblems sessionId ≠ [])
    {r : RosterRow} (hr : r ∈ t.rosterIn sessionId) :
    ((db.loadStudentTotals t.roster sessionId).get? (lowerCase r.mssv)).isSome = true := by
  unfold loadStudentTotals
  rw [OrderedMap.get?_ofList_isSome, List.map_map]
  unfold loadStudentBoard
  dsimp only
  rw [if_neg fun h => hproblems (List.map_eq_nil_iff.1 h), List.map_map]
  refine List.mem_map.2 ⟨r, ?_, rfl⟩
  obtain ⟨hmem, hsession⟩ := List.mem_filter.1 hr
  exact mem_rosterOf.2 ⟨hmem, of_decide_eq_true hsession⟩

theorem absent_iff_no_row {p : PlanStudent} (hp : p ∈ (db.loadStudents t sessionId deliverableId).1) :
    p.outcome = .blank .absent ↔ ¬ db.HasRow t sessionId deliverableId p.mssv := by
  have hrows := db.mem_submissionResultRows t sessionId deliverableId (lowerCase p.mssv)
  unfold HasRow
  rw [← hrows]
  unfold loadStudents at hp
  dsimp only at hp
  by_cases htotals : db.ExportsTotals sessionId deliverableId
  · have htotals' := htotals
    unfold ExportsTotals at htotals'
    rw [if_pos htotals'] at hp
    obtain ⟨r, hr, rfl⟩ := List.mem_map.1 hp
    have hproblems : db.orderedProblems sessionId ≠ [] := by
      intro hnil
      have hperm : (db.orderedProblems sessionId).Perm
          (db.problems.filter fun p => p.sessionId = sessionId) := perm_sortByKey _
      have hmany := htotals.2
      rw [← hperm.length_eq, hnil] at hmany
      cases hmany
    obtain ⟨total, htotal⟩ := Option.isSome_iff_exists.1 (isSome_loadStudentTotals hproblems hr)
    dsimp only
    rw [htotal, ← List.mem_map]
    unfold totalOutcome
    split_ifs with hrow
    · exact iff_of_true rfl (by simpa using hrow)
    · refine iff_of_false ?_ (by simpa using hrow)
      cases total <;> nofun
  · unfold ExportsTotals at htotals
    rw [if_neg htotals] at hp
    rw [foldStudentResults_absent ?_ hp]
    · refine not_congr ⟨?_, ?_⟩
      · rintro ⟨r, hr, hkey⟩
        obtain ⟨row, hrow, rfl⟩ := List.mem_map.1 hr
        exact ⟨row, hrow, hkey⟩
      · rintro ⟨row, hrow, hkey⟩
        exact ⟨_, List.mem_map_of_mem hrow, hkey⟩
    · intro r hr
      obtain ⟨row, -, rfl⟩ := List.mem_map.1 hr
      exact outcomeOf_ne_absent row

theorem exists_student {s : SubmissionRow}
    (hs : s ∈ db.submissionsIn t sessionId deliverableId)
    (h : db.IsExported t sessionId deliverableId s.studentMssv) :
    ∃ p ∈ (db.loadStudents t sessionId deliverableId).1,
      lowerCase p.mssv = lowerCase s.studentMssv := by
  have hlisted : lowerCase s.studentMssv ∈
      (db.loadStudents t sessionId deliverableId).1.map fun p => lowerCase p.mssv := by
    by_cases htotals : db.ExportsTotals sessionId deliverableId
    · rw [db.loadStudents_of_totals t sessionId htotals]
      exact List.mem_map.2 (h htotals)
    · exact ((db.loadStudents_of_fold t sessionId htotals).covers _).2 (Or.inr ⟨s, hs, rfl⟩)
  exact List.mem_map.1 hlisted

theorem isExported_of_mem {p : PlanStudent}
    (hp : p ∈ (db.loadStudents t sessionId deliverableId).1) :
    db.IsExported t sessionId deliverableId p.mssv := by
  intro htotals
  have hkey : lowerCase p.mssv ∈ (db.loadStudents t sessionId deliverableId).1.map
      fun p => lowerCase p.mssv := List.mem_map_of_mem hp
  rw [db.loadStudents_of_totals t sessionId htotals] at hkey
  exact List.mem_map.1 hkey

end Db

/-- The export tells absence truly exactly when every student of the export
with a row in its scope has a collected file there. -/
theorem absence_told_iff (db : Db K) (t : GradebookTables) (sessionId : String)
    (deliverableId : Option String) :
    db.TellsAbsence t sessionId deliverableId ↔
      ∀ s ∈ db.submissionsIn t sessionId deliverableId,
        db.IsExported t sessionId deliverableId s.studentMssv →
          db.HasFile t sessionId deliverableId s.studentMssv := by
  constructor
  · intro h s hs hexported
    by_contra hnone
    obtain ⟨p, hp, hkey⟩ := Db.exists_student hs hexported
    unfold Db.HasFile at hnone
    rw [← hkey] at hnone
    exact (Db.absent_iff_no_row hp).1 ((h p hp).1 hnone) ⟨s, hs, hkey.symm⟩
  · intro h p hp
    refine ⟨fun hnone => (Db.absent_iff_no_row hp).2 ?_, fun hfile habsent => ?_⟩
    · rintro ⟨s, hs, hkey⟩
      have hexported := Db.isExported_of_mem hp
      unfold Db.IsExported at hexported
      rw [← hkey] at hexported
      have hfile := h s hs hexported
      unfold Db.HasFile at hfile
      rw [hkey] at hfile
      exact hnone hfile
    · obtain ⟨s, hs, hkey, -⟩ := hfile
      exact (Db.absent_iff_no_row hp).1 habsent ⟨s, hs, hkey⟩

/-- One student with a row for each of the files, and no file. -/
theorem seeded_student_not_absent :
    ((onePublished [seededRow]).loadStudents smallClass "s1" (some "d2")).1.map
        PlanStudent.outcome = [.blank .notFinished] ∧
      ((onePublished [seededRow, { seededRow with id := "sub3" }]).loadStudents smallClass "s1"
        none).1.map PlanStudent.outcome = [.conflict conflictReason] ∧
      ¬ (onePublished [seededRow]).TellsAbsence smallClass "s1" (some "d2") := by
  refine ⟨by decide, by decide, fun h => ?_⟩
  have hstudent := (h ⟨"sv01", "An", .blank .notFinished⟩ (by decide)).1 ?_
  · cases hstudent
  · rintro ⟨s, hs, -, hfile⟩
    revert s
    decide

end Cine.Grading
