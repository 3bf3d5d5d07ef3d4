import Cine.Grading.Gradebook.Agreement

/-!
# Who is in the grade book

The students of an export are the roster of the session together with the
students who handed something in, a student once.  The fold of the
submission rows keeps to this (`fold_covers`).  The totals of a session
with several questions are listed along the roster alone, so they keep to
it only where the roster has everyone who handed something in
(`covers_iff`).
-/

namespace Cine.Grading

open Cine.Lib

variable {K : Type}

/-- `students` has every student of the roster and every student of a
submission, once up to letter case, and nobody else. -/
structure CoversClass (roster : List RosterRow) (submissions : List SubmissionRow)
    (students : List PlanStudent) : Prop where
  once : (students.map fun s => lowerCase s.mssv).Nodup
  covers : ∀ key, key ∈ students.map (fun s => lowerCase s.mssv) ↔
    (∃ r ∈ roster, lowerCase r.mssv = key) ∨ ∃ s ∈ submissions, lowerCase s.studentMssv = key

def GradebookTables.rosterIn (t : GradebookTables) (sessionId : String) : List RosterRow :=
  t.roster.filter fun r => r.sessionId = sessionId

/-- The submissions that the export of `deliverableId` is about: of one
file, or of the whole session. -/
def Db.submissionsIn (db : Db K) (t : GradebookTables) (sessionId : String)
    (deliverableId : Option String) : List SubmissionRow :=
  db.submissions.filter fun s =>
    s.sessionId = sessionId ∧ (deliverableId = none ∨ some (t.deliverableOf s.id) = deliverableId)

/-! ## The fold -/

section Fold

variable {start : OrderedMap String PlanStudent}

theorem map_values_keyed {m : OrderedMap String PlanStudent} (h : KeyedByMssv m) :
    m.values.map (fun s => lowerCase s.mssv) = m.entries.map Prod.fst := by
  rw [OrderedMap.values, List.map_map]
  refine List.map_congr_left fun e he => ?_
  exact h e.1 e.2 (OrderedMap.get?_of_mem_entries he)

theorem mem_keys_fold (results : List PlanStudent) (k : String) :
    k ∈ (results.foldl foldStep (start, [])).1.entries.map Prod.fst ↔
      k ∈ start.entries.map Prod.fst ∨ k ∈ results.map fun r => lowerCase r.mssv := by
  induction results using List.reverseRecOn with
  | nil => simp
  | append_singleton results r ih =>
    rw [List.foldl_append, List.map_append]
    show k ∈ (OrderedMap.setEntries _ (lowerCase r.mssv) _).map Prod.fst ↔ _
    rw [OrderedMap.mem_keys_setEntries, ih, List.mem_append, List.map_singleton,
      List.mem_singleton, or_assoc]

theorem roster_keyed (roster : List RosterRow) :
    KeyedByMssv (.ofList <| roster.map fun r =>
      (lowerCase r.mssv, { mssv := r.mssv, name := r.name, outcome := .blank .absent })) := by
  intro k s hs
  obtain ⟨r, _, hr⟩ := List.mem_map.1 (OrderedMap.mem_of_get?_ofList hs)
  cases hr
  rfl

theorem fold_covers (roster : List RosterRow) (results : List PlanStudent) :
    ((foldStudentResults roster results).map fun s => lowerCase s.mssv).Nodup ∧
      ∀ key, key ∈ (foldStudentResults roster results).map (fun s => lowerCase s.mssv) ↔
        (∃ r ∈ roster, lowerCase r.mssv = key) ∨ ∃ r ∈ results, lowerCase r.mssv = key := by
  unfold foldStudentResults
  dsimp only
  rw [map_values_keyed (fold_keyed (roster_keyed roster) results)]
  refine ⟨OrderedMap.nodup _, fun key => ?_⟩
  rw [mem_keys_fold, OrderedMap.mem_keys_ofList, List.map_map, List.mem_map, List.mem_map]
  rfl

end Fold

/-! ## The export -/

namespace Db

variable (db : Db K) (t : GradebookTables) (sessionId : String)

theorem mem_submissionResultRows (deliverableId : Option String) (key : String) :
    (∃ r ∈ db.submissionResultRows t sessionId deliverableId, lowerCase r.mssv = key) ↔
      ∃ s ∈ db.submissionsIn t sessionId deliverableId, lowerCase s.studentMssv = key := by
  unfold submissionResultRows
  constructor
  · rintro ⟨r, hr, hkey⟩
    obtain ⟨s, hs, hr⟩ := List.mem_flatMap.1 hr
    obtain ⟨g, _, rfl⟩ := List.mem_map.1 hr
    exact ⟨s, hs, hkey⟩
  · rintro ⟨s, hs, hkey⟩
    -- A submission without a result has a row of its own in the left join.
    obtain ⟨g, hg⟩ := List.exists_mem_of_ne_nil _
      (leftJoin_ne_nil (db.results.filter fun g => g.submissionId = s.id))
    exact ⟨_, List.mem_flatMap.2 ⟨s, hs, List.mem_map_of_mem hg⟩, hkey⟩

/-- The export takes the totals of the board. -/
def ExportsTotals (deliverableId : Option String) : Prop :=
  deliverableId = none ∧ 1 < (db.problems.filter fun p => p.sessionId = sessionId).length

theorem loadStudents_of_totals {deliverableId : Option String}
    (h : db.ExportsTotals sessionId deliverableId) :
    (db.loadStudents t sessionId deliverableId).1.map (fun s => lowerCase s.mssv) =
      (t.rosterIn sessionId).map fun r => lowerCase r.mssv := by
  unfold ExportsTotals at h
  unfold loadStudents
  dsimp only
  rw [if_pos h, List.map_map]
  rfl

theorem loadStudents_of_fold {deliverableId : Option String}
    (h : ¬ db.ExportsTotals sessionId deliverableId) :
    CoversClass (t.rosterIn sessionId) (db.submissionsIn t sessionId deliverableId)
      (db.loadStudents t sessionId deliverableId).1 := by
  unfold ExportsTotals at h
  unfold loadStudents
  dsimp only
  rw [if_neg h]
  obtain ⟨honce, hcovers⟩ := fold_covers (t.rosterIn sessionId)
    ((db.submissionResultRows t sessionId deliverableId).map fun r =>
      { mssv := r.mssv, name := r.name, outcome := outcomeOf r })
  refine ⟨honce, fun key => (hcovers key).trans (or_congr_right ?_)⟩
  rw [← mem_submissionResultRows]
  constructor
  · rintro ⟨r, hr, hkey⟩
    obtain ⟨row, hrow, rfl⟩ := List.mem_map.1 hr
    exact ⟨row, hrow, hkey⟩
  · rintro ⟨row, hrow, hkey⟩
    exact ⟨_, List.mem_map_of_mem hrow, hkey⟩

end Db

/-- The export has the whole class, each student once, exactly when it
folds the submissions, or the roster has each student once and every
student who handed something in. -/
theorem covers_iff (db : Db K) (t : GradebookTables) (sessionId : String)
    (deliverableId : Option String) :
    CoversClass (t.rosterIn sessionId) (db.submissionsIn t sessionId deliverableId)
        (db.loadStudents t sessionId deliverableId).1 ↔
      (db.ExportsTotals sessionId deliverableId →
        ((t.rosterIn sessionId).map fun r => lowerCase r.mssv).Nodup ∧
          ∀ s ∈ db.submissionsIn t sessionId deliverableId,
            ∃ r ∈ t.rosterIn sessionId, lowerCase r.mssv = lowerCase s.studentMssv) := by
  by_cases htotals : db.ExportsTotals sessionId deliverableId
  · have hkeys := db.loadStudents_of_totals t sessionId htotals
    constructor
    · rintro ⟨honce, hcovers⟩ _
      rw [hkeys] at honce hcovers
      refine ⟨honce, fun s hs => ?_⟩
      have hlisted := (hcovers (lowerCase s.studentMssv)).2 (Or.inr ⟨s, hs, rfl⟩)
      exact List.mem_map.1 hlisted
    · intro h
      obtain ⟨honce, hroster⟩ := h htotals
      refine ⟨hkeys ▸ honce, fun key => ?_⟩
      rw [hkeys, List.mem_map]
      refine ⟨Or.inl, ?_⟩
      rintro (hr | ⟨s, hs, rfl⟩)
      · exact hr
      · exact hroster s hs
  · exact ⟨fun _ h => absurd h htotals, fun _ => db.loadStudents_of_fold t sessionId htotals⟩

/-! ## Two questions and a student off the roster -/

def offRoster : SubmissionRow := ⟨"sub3", "s1", "SV09", some "key", "bai.docx", none⟩

/-- A session with two questions. -/
def wholeExport (submissions : List SubmissionRow) : Db ℚ :=
  { onePublished submissions with
    problems :=
      [⟨"q1", "s1", 1, some "Tính tổng", 600, some "rb", none⟩,
        ⟨"q2", "s1", 2, some "Sắp xếp", 400, some "rb", none⟩] }

/-- The student SV09 handed in a file and is not in the grade book. -/
theorem offRoster_is_left_out :
    ((wholeExport [report, offRoster]).loadStudents smallClass "s1" none).1.map
        PlanStudent.mssv = ["sv01"] ∧
      ¬ ∀ (db : Db ℚ) (t : GradebookTables) (sessionId : String) (deliverableId : Option String),
        ((t.rosterIn sessionId).map fun r => lowerCase r.mssv).Nodup →
          CoversClass (t.rosterIn sessionId) (db.submissionsIn t sessionId deliverableId)
            (db.loadStudents t sessionId deliverableId).1 := by
  refine ⟨by decide, fun h => ?_⟩
  have hcovers := (h (wholeExport [report, offRoster]) smallClass "s1" none
    (by decide)).covers "sv09"
  have hlisted := hcovers.2 (Or.inr ⟨offRoster, by decide, by decide⟩)
  revert hlisted
  decide

end Cine.Grading
