import Cine.Grading.Lifecycle.OperationWrites

/-!
# The sample of a session

What `topUpSessionAudit` does to the papers of a session, as one function of
the rows: `topUpSessionAudit_ok`.  A paper is due when the sample is on,
nothing of the session is being graded, and its student is one that the
minimum asks for and has no sampled paper yet.
-/

namespace Cine.Grading

open Cine.Lib

variable {K : Type} {env : GradingEnv K} {db : Db K} {sessionId : String}

/-! ## The papers that are due -/

namespace Db

variable (db : Db K)

/-- A paper of the session is being graded. -/
def isBusy (sessionId : String) : Bool :=
  (db.resultsOfSession sessionId).any fun p => p.1.status = .aiGrading ∨ p.1.status = .aiGraded

/-- The papers that the sample is taken from and the ones in it. -/
def sampleRows (sessionId : String) : List (ResultRow × String) :=
  (db.resultsOfSession sessionId).filter fun p =>
    p.1.status = .autoApproved ∨ p.1.status = .auditPending

def sampledStudents (sessionId : String) : List String :=
  ((db.sampleRows sessionId).filter fun p => p.1.auditSampled).map Prod.snd

/-- The students that the minimum of the session asks for. -/
def minimumStudents (env : GradingEnv K) (sessionId : String) : List String :=
  ensureSessionMinimum env (db.sampledStudents sessionId)
    ((db.sampleRows sessionId).map Prod.snd) env.auditMinPerSession

/-- The minimum asks for the student, who has no sampled paper. -/
def isDueStudent (env : GradingEnv K) (sessionId mssv : String) : Bool :=
  env.lower mssv ∉ (db.sampledStudents sessionId).map env.lower ∧
    env.lower mssv ∈ (db.minimumStudents env sessionId).map env.lower

/-- The sample of the session is completed now. -/
def isToppedUp (env : GradingEnv K) (sessionId : String) : Bool :=
  env.samplingEnabled && env.auditMinPerSession ≠ 0 && !db.isBusy sessionId

/-- The student of a paper, where the paper belongs to the session. -/
def studentIn (sessionId : String) (r : ResultRow) : Option String :=
  (db.submission r.submissionId).bind fun s =>
    if s.sessionId = sessionId then some s.studentMssv else none

/-- The paper enters the sample with the next top-up, where it is
auto-approved. -/
def isDue (env : GradingEnv K) (sessionId : String) (r : ResultRow) : Bool :=
  db.isToppedUp env sessionId && (db.studentIn sessionId r).any (db.isDueStudent env sessionId)

end Db

theorem mem_resultsOfSession {p : ResultRow × String} :
    p ∈ db.resultsOfSession sessionId ↔
      p.1 ∈ db.results ∧ db.studentIn sessionId p.1 = some p.2 := by
  rw [Db.resultsOfSession, List.mem_filterMap]
  constructor
  · rintro ⟨r, hr, hp⟩
    obtain ⟨s, hs, hp⟩ := Option.bind_eq_some_iff.1 hp
    split_ifs at hp with hsession
    cases hp
    refine ⟨hr, ?_⟩
    rw [Db.studentIn, hs, Option.bind_some, if_pos hsession]
  · rintro ⟨hr, hstudent⟩
    refine ⟨p.1, hr, ?_⟩
    obtain ⟨s, hs, hmssv⟩ := Option.bind_eq_some_iff.1 hstudent
    split_ifs at hmssv with hsession
    rw [hs, Option.bind_some, if_pos hsession, Option.some.inj hmssv]

/-! ## The loop of the top-up -/

theorem drawn_of_ne {r : ResultRow} (h : r.status ≠ .autoApproved) : r.drawn = r :=
  ResultRow.advance_of_not_mem fun hmem => h (List.mem_singleton.1 hmem)

theorem drawn_of_auto {r : ResultRow} (h : r.status = .autoApproved) :
    r.drawn = { r with status := .auditPending, auditSampled := true } :=
  ResultRow.advance_of_mem (List.mem_singleton.2 h)

theorem drawn_drawn (r : ResultRow) : r.drawn.drawn = r.drawn := by
  by_cases h : r.status = .autoApproved
  · rw [drawn_of_auto h]
    exact drawn_of_ne fun heq => nomatch heq
  · rw [drawn_of_ne h, drawn_of_ne h]

theorem forM_drawIntoAudit (papers : List (ResultRow × String))
    (hids : (db.results.map ResultRow.id).Nodup) :
    Ensures (papers.forM fun p => drawIntoAudit p.1.id) db fun _ db' =>
      db' = { db with
        results := db.results.map fun r =>
          if r.id ∈ papers.map (fun p => p.1.id) then r.drawn else r } := by
  induction papers generalizing db with
  | nil =>
    refine ensures_pure ?_
    simp
  | cons p papers ih =>
    show Ensures (drawIntoAudit p.1.id >>= fun _ => papers.forM fun p => drawIntoAudit p.1.id) db _
    refine (drawIntoAudit_row hids).bind fun _ db₁ h₁ => ?_
    have hids₁ : (db₁.results.map ResultRow.id).Nodup := by
      rw [h₁, updateResult_ids fun r => (ResultRow.drawn_sameHead r).id]
      exact hids
    refine (ih hids₁).mono fun _ db' h' => ?_
    rw [h', h₁]
    show { db with results := (updateRow _ _ _ _).map _ } = _
    rw [updateRow, List.map_map]
    congr 1
    refine List.map_congr_left fun r _ => ?_
    rw [Function.comp_apply, List.map_cons]
    by_cases hid : r.id = p.1.id
    · rw [if_pos hid, (ResultRow.drawn_sameHead r).id, drawn_drawn, ite_self,
        if_pos (List.mem_cons.2 (Or.inl hid))]
    · rw [if_neg hid]
      simp only [List.mem_cons, hid, false_or]

/-- The papers that a top-up draws. -/
def Db.duePapers (db : Db K) (env : GradingEnv K) (sessionId : String) :
    List (ResultRow × String) :=
  (db.sampleRows sessionId).filter fun p =>
    p.1.status = .autoApproved ∧ db.isDueStudent env sessionId p.2

theorem mem_duePapers (hids : (db.results.map ResultRow.id).Nodup)
    (htopped : db.isToppedUp env sessionId = true) {r : ResultRow} (hr : r ∈ db.results)
    (hauto : r.status = .autoApproved) :
    r.id ∈ (db.duePapers env sessionId).map (fun p => p.1.id) ↔
      db.isDue env sessionId r = true := by
  rw [Db.isDue, htopped, Bool.true_and, Option.any_eq_true, List.mem_map]
  constructor
  · rintro ⟨p, hp, hid⟩
    obtain ⟨hrow, hdue⟩ := List.mem_filter.1 hp
    obtain ⟨hmem, hstudent⟩ := mem_resultsOfSession.1 (List.mem_filter.1 hrow).1
    have hsame : p.1 = r := List.inj_on_of_nodup_map hids hmem hr hid
    exact ⟨p.2, hsame ▸ hstudent, (of_decide_eq_true hdue).2⟩
  · rintro ⟨mssv, hstudent, hdue⟩
    refine ⟨(r, mssv), ?_, rfl⟩
    refine List.mem_filter.2 ⟨List.mem_filter.2 ⟨?_, ?_⟩, decide_eq_true ⟨hauto, hdue⟩⟩
    · exact mem_resultsOfSession.2 ⟨hr, hstudent⟩
    · exact decide_eq_true (Or.inl hauto)

/-- The tables after the sample of a session is completed. -/
def Db.toppedUp (db : Db K) (env : GradingEnv K) (sessionId : String) : Db K :=
  { db with results := db.results.map fun r => if db.isDue env sessionId r then r.drawn else r }

theorem toppedUp_of_not (h : ∀ r, db.isDue env sessionId r = false) :
    db.toppedUp env sessionId = db := by
  have hrows : (db.results.map fun r => if db.isDue env sessionId r then r.drawn else r) =
      db.results := by
    conv_rhs => rw [← List.map_id db.results]
    refine List.map_congr_left fun r _ => ?_
    rw [h r]
    rfl
  rw [Db.toppedUp, hrows]

theorem topUpSessionAudit_rows (hids : (db.results.map ResultRow.id).Nodup) :
    Ensures (topUpSessionAudit env sessionId) db fun _ db' => db' = db.toppedUp env sessionId := by
  have hnot : db.isToppedUp env sessionId = false → ∀ r, db.isDue env sessionId r = false := by
    intro h r
    rw [Db.isDue, h, Bool.false_and]
  rw [topUpSessionAudit]
  refine ensures_ite (fun hoff => ensures_pure ?_) fun hon => ?_
  · refine (toppedUp_of_not (hnot ?_)).symm
    rw [Db.isToppedUp]
    cases henabled : env.samplingEnabled with
    | false => rfl
    | true =>
      have hmin : env.auditMinPerSession = 0 := by
        rw [henabled] at hoff
        simpa using hoff
      rw [hmin]
      rfl
  · refine ensures_bind (ensures_get ?_)
    refine ensures_ite (fun hbusy => ensures_pure ?_) fun hidle => ?_
    · refine (toppedUp_of_not (hnot ?_)).symm
      rw [Db.isToppedUp, Db.isBusy, hbusy, Bool.not_true, Bool.and_false]
    · have htopped : db.isToppedUp env sessionId = true := by
        rw [Db.isToppedUp, Db.isBusy, Bool.eq_false_iff.2 hidle]
        simpa using hon
      have hpapers : db.duePapers env sessionId = (db.sampleRows sessionId).filter fun p =>
          p.1.status = .autoApproved ∧
            env.lower p.2 ∉ (db.sampledStudents sessionId).map env.lower ∧
              env.lower p.2 ∈ (db.minimumStudents env sessionId).map env.lower := by
        refine List.filter_congr fun p _ => ?_
        simp only [Db.isDueStudent, decide_eq_true_eq]
      have hloop := forM_drawIntoAudit (db.duePapers env sessionId) hids
      rw [hpapers] at hloop
      refine Ensures.mono hloop fun _ db' h' => ?_
      rw [← hpapers] at h'
      rw [h', Db.toppedUp]
      congr 1
      refine List.map_congr_left fun r hr => ?_
      by_cases hauto : r.status = .autoApproved
      · simp only [mem_duePapers hids htopped hr hauto]
      · rw [drawn_of_ne hauto, ite_self, ite_self]

theorem Linked.toppedUp [Number K] (hl : Linked db) (env : GradingEnv K) (sessionId : String) :
    Linked (db.toppedUp env sessionId) := by
  refine hl.mapResults fun r => ?_
  split_ifs
  · exact ResultRow.drawn_sameHead r
  · exact .refl r

theorem drawIntoAudit_ends (resultId : String) (db : Db K) : Ends (drawIntoAudit resultId) db := by
  rw [drawIntoAudit, advanceStatus]
  refine Ends.bind (ends_get.bind fun _ _ => ?_) fun _ _ => ends_pure
  exact ends_ite (ends_set.bind fun _ _ => ends_pure) ends_pure

theorem topUpSessionAudit_ends (db : Db K) : Ends (topUpSessionAudit env sessionId) db := by
  rw [topUpSessionAudit]
  refine ends_ite ends_pure (ends_get.bind fun _ db => ?_)
  refine ends_ite ends_pure ?_
  apply ends_forM
  intro p db
  exact drawIntoAudit_ends p.1.id db

theorem topUpSessionAudit_ok (hids : (db.results.map ResultRow.id).Nodup) :
    topUpSessionAudit env sessionId db = .ok ((), db.toppedUp env sessionId) := by
  have hends : Ends (topUpSessionAudit env sessionId) db := topUpSessionAudit_ends db
  obtain ⟨_, db', hrun⟩ := hends
  rw [hrun, topUpSessionAudit_rows hids () db' hrun]

end Cine.Grading
