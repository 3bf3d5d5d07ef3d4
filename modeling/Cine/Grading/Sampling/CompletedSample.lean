import Cine.Grading.Lifecycle.StatusHistory
import Cine.Grading.Sampling.SessionMinimum

/-!
# A completed sample

`topUp_completes_sample`: in every state of a run a top-up brings the students
of a session with a paper in the sample up to the minimum, as far as there are
students with an approved paper, and not above it.  A second top-up changes
nothing.

The step is `codes_toppedUp`: the students sampled after a top-up are those
that `ensureSessionMinimum` returns.
-/

namespace Cine.Grading

open Cine.Lib

variable {K : Type} {env : GradingEnv K} {db : Db K} {sessionId : String}

/-- How many students a list names. -/
def studentCount (env : GradingEnv K) (students : List String) : Nat :=
  (students.map env.lower).eraseDups.length

/-- The students of the session with an approved paper. -/
def Db.approvedStudents (db : Db K) (sessionId : String) : List String :=
  (db.sampleRows sessionId).map Prod.snd

theorem studentCount_eq (l : List String) :
    studentCount env l = (byCode env l).entries.length := by
  unfold studentCount
  rw [← (codes_perm_eraseDups env l).length_eq, List.length_map]

/-! ## The students after a top-up -/

theorem mem_approvedStudents {mssv : String} :
    mssv ∈ db.approvedStudents sessionId ↔ ∃ r ∈ db.results,
      db.studentIn sessionId r = some mssv ∧ r.status ∈ sampleStatuses := by
  unfold Db.approvedStudents Db.sampleRows
  simp [mem_resultsOfSession, sampleStatuses, and_assoc]

theorem mem_sampledStudents {mssv : String} :
    mssv ∈ db.sampledStudents sessionId ↔ ∃ r ∈ db.results,
      db.studentIn sessionId r = some mssv ∧ r.status ∈ sampleStatuses ∧
        r.auditSampled = true := by
  unfold Db.sampledStudents Db.sampleRows
  simp [mem_resultsOfSession, sampleStatuses, and_assoc, and_left_comm, and_comm]

theorem sampledFrom (db : Db K) (sessionId : String) :
    SampledFrom env (db.sampledStudents sessionId) (db.approvedStudents sessionId) := by
  intro mssv h
  obtain ⟨r, hr, hstudent, hstatus, _⟩ := mem_sampledStudents.1 h
  exact List.mem_map_of_mem (mem_approvedStudents.2 ⟨r, hr, hstudent, hstatus⟩)

/-- The paper after a top-up. -/
def Db.topped (db : Db K) (env : GradingEnv K) (sessionId : String) (r : ResultRow) : ResultRow :=
  if db.isDue env sessionId r then r.drawn else r

theorem topped_row (r : ResultRow) :
    db.studentIn sessionId (db.topped env sessionId r) = db.studentIn sessionId r ∧
      ((db.topped env sessionId r).status ∈ sampleStatuses ↔ r.status ∈ sampleStatuses) ∧
      ((db.topped env sessionId r).auditSampled = true ↔
        r.auditSampled = true ∨ (db.isDue env sessionId r = true ∧ r.status = .autoApproved)) := by
  unfold Db.topped
  split_ifs with hdue
  · by_cases hauto : r.status = .autoApproved
    · simp [drawn_of_auto hauto, hdue, hauto, sampleStatuses, Db.studentIn]
    · simp [drawn_of_ne hauto, hauto]
  · simp [hdue]

theorem mem_approvedStudents_toppedUp {mssv : String} :
    mssv ∈ (db.toppedUp env sessionId).approvedStudents sessionId ↔
      mssv ∈ db.approvedStudents sessionId := by
  rw [mem_approvedStudents, mem_approvedStudents]
  show (∃ r ∈ db.results.map (db.topped env sessionId), db.studentIn _ r = _ ∧ _) ↔ _
  simp [topped_row]

theorem mem_sampledStudents_toppedUp {mssv : String} :
    mssv ∈ (db.toppedUp env sessionId).sampledStudents sessionId ↔ ∃ r ∈ db.results,
      db.studentIn sessionId r = some mssv ∧ r.status ∈ sampleStatuses ∧
        (r.auditSampled = true ∨ (db.isDue env sessionId r = true ∧ r.status = .autoApproved)) := by
  rw [mem_sampledStudents]
  show (∃ r ∈ db.results.map (db.topped env sessionId), db.studentIn _ r = _ ∧ _) ↔ _
  simp [topped_row]

theorem codes_toppedUp (htopped : db.isToppedUp env sessionId = true)
    (haudited : ∀ r ∈ db.results, r.stage.Audited) :
    SameCodes env ((db.toppedUp env sessionId).sampledStudents sessionId)
      (db.minimumStudents env sessionId) := by
  have hsampled : ∀ code ∈ (db.sampledStudents sessionId).map env.lower,
      code ∈ (db.minimumStudents env sessionId).map env.lower := by
    intro code hcode
    rw [Db.minimumStudents, codes_result]
    exact List.mem_append_left _ ((mem_codes env).2 hcode)
  have hdue : ∀ {r mssv}, db.studentIn sessionId r = some mssv →
      (db.isDue env sessionId r = true ↔ db.isDueStudent env sessionId mssv = true) := by
    intro r mssv hstudent
    rw [Db.isDue, htopped, hstudent]
    rfl
  intro code
  constructor
  · intro hcode
    obtain ⟨mssv, hmssv, rfl⟩ := List.mem_map.1 hcode
    obtain ⟨r, hr, hstudent, hstatus, hdrawn⟩ := mem_sampledStudents_toppedUp.1 hmssv
    rcases hdrawn with hold | ⟨hnow, _⟩
    · apply hsampled
      exact List.mem_map_of_mem (mem_sampledStudents.2 ⟨r, hr, hstudent, hstatus, hold⟩)
    · exact (of_decide_eq_true ((hdue hstudent).1 hnow)).2
  · intro hcode
    by_cases hold : code ∈ (db.sampledStudents sessionId).map env.lower
    · obtain ⟨mssv, hmssv, rfl⟩ := List.mem_map.1 hold
      obtain ⟨r, hr, hstudent, hstatus, hdrawn⟩ := mem_sampledStudents.1 hmssv
      apply List.mem_map_of_mem
      exact mem_sampledStudents_toppedUp.2 ⟨r, hr, hstudent, hstatus, Or.inl hdrawn⟩
    · obtain ⟨mssv, hmssv, rfl⟩ := List.mem_map.1 hcode
      rcases mem_sampled_or_students hmssv with hmem | hmem
      · exact absurd (List.mem_map_of_mem hmem) hold
      · -- No paper of the student is sampled, so the approved one does not wait for the audit.
        obtain ⟨r, hr, hstudent, hstatus⟩ := mem_approvedStudents.1 hmem
        have hauto : r.status = .autoApproved := by
          rcases List.mem_pair.1 hstatus with hauto | hpending
          · exact hauto
          · have hdrawn := (haudited r hr).pending hpending
            exact absurd (List.mem_map_of_mem
              (mem_sampledStudents.2 ⟨r, hr, hstudent, hstatus, hdrawn⟩)) hold
        apply List.mem_map_of_mem
        refine mem_sampledStudents_toppedUp.2 ⟨r, hr, hstudent, hstatus, Or.inr ⟨?_, hauto⟩⟩
        exact (hdue hstudent).2 (decide_eq_true ⟨hold, hcode⟩)

/-! ## The size of the sample -/

theorem studentCount_toppedUp (htopped : db.isToppedUp env sessionId = true)
    (haudited : ∀ r ∈ db.results, r.stage.Audited) :
    studentCount env ((db.toppedUp env sessionId).sampledStudents sessionId) =
      max (studentCount env (db.sampledStudents sessionId))
        (Nat.min env.auditMinPerSession (studentCount env (db.approvedStudents sessionId))) := by
  have hnodup : ((db.minimumStudents env sessionId).map env.lower).Nodup := nodup_codes_result
  have hcodes : ((byCode env (db.minimumStudents env sessionId)).entries.map Prod.fst).Perm
      ((db.minimumStudents env sessionId).map env.lower) := by
    rw [List.perm_ext_iff_of_nodup (OrderedMap.nodup _) hnodup]
    exact fun code => mem_codes env
  have hlength := hcodes.length_eq
  rw [List.length_map, List.length_map] at hlength
  simp only [studentCount_eq]
  rw [(codes_toppedUp htopped haudited).length_eq, hlength]
  exact length_result (sampledFrom db sessionId)

theorem toppedUp_of_enough (h : Nat.min env.auditMinPerSession
      (studentCount env (db.approvedStudents sessionId)) ≤
        studentCount env (db.sampledStudents sessionId)) :
    db.toppedUp env sessionId = db := by
  have hnone : sampleTarget env (db.approvedStudents sessionId) env.auditMinPerSession -
      (byCode env (db.sampledStudents sessionId)).entries.length = 0 := by
    rw [studentCount_eq, studentCount_eq] at h
    exact Nat.sub_eq_zero_of_le h
  have hcodes : ∀ code ∈ (db.minimumStudents env sessionId).map env.lower,
      code ∈ (db.sampledStudents sessionId).map env.lower := by
    intro code hcode
    unfold Db.minimumStudents at hcode
    unfold Db.approvedStudents at hnone
    rw [codes_result, hnone, List.take_zero, List.append_nil, mem_codes] at hcode
    exact hcode
  apply toppedUp_of_not
  intro r
  have hstudent : ∀ mssv, db.isDueStudent env sessionId mssv = false :=
    fun mssv => decide_eq_false fun h => h.1 (hcodes _ h.2)
  cases h : db.studentIn sessionId r <;> simp [Db.isDue, h, hstudent]

theorem toppedUp_toppedUp (haudited : ∀ r ∈ db.results, r.stage.Audited) :
    (db.toppedUp env sessionId).toppedUp env sessionId = db.toppedUp env sessionId := by
  cases htopped : db.isToppedUp env sessionId with
  | false =>
    have hsame : db.toppedUp env sessionId = db :=
      toppedUp_of_not fun r => by rw [Db.isDue, htopped, Bool.false_and]
    rw [hsame, hsame]
  | true =>
    have happroved : SameCodes env ((db.toppedUp env sessionId).approvedStudents sessionId)
        (db.approvedStudents sessionId) := by
      intro code
      simp only [List.mem_map, mem_approvedStudents_toppedUp]
    apply toppedUp_of_enough
    rw [studentCount_toppedUp htopped haudited, studentCount_eq, happroved.length_eq,
      ← studentCount_eq]
    exact Nat.le_max_right _ _

/-! ## Runs -/

variable [Number K] {trips : Nat → Nat → Bool}

/-- In every state of a run, the top-up of a session that is not being graded leaves its minimum
of students in the sample, or all of them where they are fewer, and no more than that unless more
were there.  A second top-up changes nothing. -/
theorem topUp_completes_sample {start s : AuditDb K} (hstart : start.db.Enlisted)
    (hrun : MovesTo env trips start s) (sessionId : String) :
    let s' := (Move.topUp sessionId).run env trips s
    (s.db.isToppedUp env sessionId = true →
      studentCount env (s'.db.sampledStudents sessionId) =
        max (studentCount env (s.db.sampledStudents sessionId))
          (Nat.min env.auditMinPerSession
            (studentCount env (s.db.approvedStudents sessionId)))) ∧
      (Move.topUp sessionId).run env trips s' = s' := by
  intro s'
  have hlinked := (Reach.advances hstart.linked hrun).1
  have haudited : ∀ r ∈ s.view.results, r.stage.Audited := Reach.audited hstart hrun
  have hs' : s' = { s with db := s.view.toppedUp env sessionId } := run_topUp hlinked sessionId
  constructor
  · intro htopped
    have hcount : studentCount env ((s.view.toppedUp env sessionId).sampledStudents sessionId) =
        _ := studentCount_toppedUp htopped haudited
    rw [hs']
    exact hcount
  · have hlinked' : Linked s'.db := by
      rw [hs']
      exact hlinked.view.toppedUp env sessionId
    have hview : s'.view = s.view.toppedUp env sessionId := by
      rw [hs']
      rfl
    rw [run_topUp hlinked', hview, toppedUp_toppedUp haudited, hs']

/-- Two approved papers of one student, of which the minimum asks for one. -/
theorem bothPapers_sample_completed :
    let s := historyAfter (FirstRun.bothPapers.take 4)
    studentCount sampledEnv (s.db.sampledStudents "s1") = 0 ∧
      studentCount sampledEnv (((Move.topUp "s1").run sampledEnv
        (fun _ _ => false) s).db.sampledStudents "s1") = 1 := by
  intro s
  have hrun : MovesTo sampledEnv (fun _ _ => false) (noAudits oneStudent) s :=
    reach_foldl (by simp [AllAllowed, FirstRun.bothPapers])
  refine ⟨by decide +kernel, ?_⟩
  rw [(topUp_completes_sample oneStudent_enlisted hrun "s1").1 (by decide +kernel)]
  decide +kernel

end Cine.Grading
