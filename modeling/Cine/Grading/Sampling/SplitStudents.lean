import Cine.Grading.Sampling.PromotedPapers

/-!
# The papers of one student in the sample

The sample is meant to take all approved papers of a student or none.  The
draw at the first decision and the top-up of a session both keep to that.
A paper that gets its first decision after the top-up does not:
`late_paper_is_left_out` is a run in which one paper of a student is in the
sample and the other one is not.  In a run in which every paper that is
approved without a draw finds no paper of its student in the sample, no
student is ever split.
-/

namespace Cine.Grading

open Cine.Lib

/-! ## Students -/

section Students

variable {K : Type} {env : GradingEnv K} {db db' : Db K} {r r' q q' : ResultRow}

/-- Two papers of one student in one session. -/
def Db.sameStudent (db : Db K) (env : GradingEnv K) (r q : ResultRow) : Bool :=
  (db.submission r.submissionId).any fun s => (db.submission q.submissionId).any fun t =>
    s.sessionId = t.sessionId ∧ env.lower s.studentMssv = env.lower t.studentMssv

/-- The student of a paper is drawn at its first decision. -/
def Db.isDrawn (db : Db K) (env : GradingEnv K) (r : ResultRow) : Bool :=
  env.samplingEnabled && (db.submission r.submissionId).any fun s =>
    (db.session s.sessionId).any fun es => drawnForStudentAudit env es.gradingSeed s.studentMssv

theorem drawnForAudit_of_result {id : String} (h : db.result id = some r) :
    db.drawnForAudit env id = db.isDrawn env r := by
  rw [Db.drawnForAudit, h]
  rfl

theorem sameStudent_symm (h : db.sameStudent env r q = true) : db.sameStudent env q r = true := by
  obtain ⟨s, hs, h⟩ := (Option.any_eq_true _ _).1 h
  obtain ⟨t, ht, h⟩ := (Option.any_eq_true _ _).1 h
  obtain ⟨hsession, hmssv⟩ := of_decide_eq_true h
  rw [Db.sameStudent, ht, Option.any_some, hs, Option.any_some]
  exact decide_eq_true ⟨hsession.symm, hmssv.symm⟩

theorem isDrawn_of_sameStudent (h : db.sameStudent env r q = true) :
    db.isDrawn env r = db.isDrawn env q := by
  obtain ⟨s, hs, h⟩ := (Option.any_eq_true _ _).1 h
  obtain ⟨t, ht, h⟩ := (Option.any_eq_true _ _).1 h
  obtain ⟨hsession, hmssv⟩ := of_decide_eq_true h
  have hdraw : ∀ seed, drawnForStudentAudit env seed s.studentMssv =
      drawnForStudentAudit env seed t.studentMssv := by
    intro seed
    rw [drawnForStudentAudit, drawnForStudentAudit, auditBucketByStudent, auditBucketByStudent,
      hmssv]
  simp only [Db.isDrawn, hs, ht, Option.any_some, hsession, hdraw]

theorem isDue_of_sameStudent (h : db.sameStudent env r q = true) (sessionId : String) :
    db.isDue env sessionId r = db.isDue env sessionId q := by
  obtain ⟨s, hs, h⟩ := (Option.any_eq_true _ _).1 h
  obtain ⟨t, ht, h⟩ := (Option.any_eq_true _ _).1 h
  obtain ⟨hsession, hmssv⟩ := of_decide_eq_true h
  rw [Db.isDue, Db.isDue, Db.studentIn, Db.studentIn, hs, ht, Option.bind_some, Option.bind_some,
    hsession]
  split_ifs
  · simp only [Option.any_some, Db.isDueStudent, hmssv]
  · rfl

/-- What says who the students are stays as it is. -/
structure SameStudents (db db' : Db K) : Prop where
  submissions : db'.submissions = db.submissions
  seeds : ∀ id, (db'.session id).map SessionRow.gradingSeed =
    (db.session id).map SessionRow.gradingSeed

namespace SameStudents

theorem refl (db : Db K) : SameStudents db db := ⟨rfl, fun _ => rfl⟩

theorem trans {db'' : Db K} (h : SameStudents db db') (h' : SameStudents db' db'') :
    SameStudents db db'' :=
  ⟨h'.submissions.trans h.submissions, fun id => (h'.seeds id).trans (h.seeds id)⟩

theorem sameStudent (h : SameStudents db db') (hr : SameKeys r r') (hq : SameKeys q q') :
    db'.sameStudent env r' q' = db.sameStudent env r q := by
  simp only [Db.sameStudent, Db.submission, h.submissions, hr.submissionId, hq.submissionId]

theorem isDrawn (h : SameStudents db db') (hr : SameKeys r r') :
    db'.isDrawn env r' = db.isDrawn env r := by
  have hseed : ∀ s : SubmissionRow,
      (db'.session s.sessionId).any (fun es => drawnForStudentAudit env es.gradingSeed s.studentMssv) =
        (db.session s.sessionId).any fun es =>
          drawnForStudentAudit env es.gradingSeed s.studentMssv := by
    intro s
    have hmap := congrArg (Option.any fun seed => drawnForStudentAudit env seed s.studentMssv)
      (h.seeds s.sessionId)
    rw [Option.any_map, Option.any_map] at hmap
    exact hmap
  simp only [Db.isDrawn, Db.submission, h.submissions, hr.submissionId, hseed]

end SameStudents

theorem Change.students [Number K] (h : Change env db db') : SameStudents db db' := by
  cases h with
  | write h =>
    cases h with
    | edit h => exact ⟨h.submissions, h.seeds⟩
    | enlist => exact ⟨rfl, fun _ => rfl⟩
    | rejudge => exact ⟨rfl, fun _ => rfl⟩
    | recheck => exact ⟨rfl, fun _ => rfl⟩
    | manual => exact ⟨rfl, fun _ => rfl⟩
    | accept => exact ⟨rfl, fun _ => rfl⟩
    | publish => exact ⟨rfl, fun _ => rfl⟩
    | openAttempt => exact ⟨rfl, fun _ => rfl⟩
    | firstScore => exact ⟨rfl, fun _ => rfl⟩
    | fail => exact ⟨rfl, fun _ => rfl⟩
    | exhaust => exact ⟨rfl, fun _ => rfl⟩
    | exhaustIdle => exact ⟨rfl, fun _ => rfl⟩
    | requeue => exact ⟨rfl, fun _ => rfl⟩
  | oneShotScore => exact ⟨rfl, fun _ => rfl⟩
  | oneShotFlag => exact ⟨rfl, fun _ => rfl⟩
  | reviewed => exact ⟨rfl, fun _ => rfl⟩
  | audited => exact ⟨rfl, fun _ => rfl⟩
  | breakers => exact ⟨rfl, fun _ => rfl⟩

end Students

/-! ## Decided papers -/

/-- The paper has had its first decision. -/
structure Stage.Settled (s : Stage) : Prop where
  reason : s.ungradable = none
  decided : s.status ∉ [ResultStatus.aiGrading, .aiGraded]
  sampled : s.status = .auditPending → s.auditSampled = true

variable {drawn : Bool} {s s' : Stage}

theorem StageMove.settled (h : StageMove drawn s s') (hs : s.Settled) :
    s'.Settled ∧ (s'.auditSampled = true → s.auditSampled = true) := by
  obtain ⟨hreason, hdecided, hsampled⟩ := hs
  cases h with
  | stay => exact ⟨⟨hreason, hdecided, hsampled⟩, fun h => h⟩
  | decided auto status => simp [status] at hdecided
  | failed u status => simp [status] at hdecided
  | oneShotScored status => simp [status] at hdecided
  | oneShotFlagged status => simp [status] at hdecided
  | promoted status reason => exact ⟨⟨hreason, by simp, by simp⟩, fun h => h⟩
  | demoted status => exact ⟨⟨hreason, by simp, by simp⟩, fun h => h⟩
  | dropped status => exact ⟨⟨hreason, by simp, by simp⟩, fun h => absurd h Bool.false_ne_true⟩
  | reviewed status => exact ⟨⟨hreason, by simp, by simp⟩, fun h => h⟩
  | published status => exact ⟨⟨hreason, by simp, by simp⟩, fun h => h⟩
  | requeued status reason => simp [hreason] at reason

/-- What becomes of a paper that has had its first decision. -/
structure Settles (r r' : ResultRow) : Prop where
  paper : SameKeys r r'
  settled : r.stage.Settled → r'.stage.Settled
  sampled : r.stage.Settled → r'.auditSampled = true → r.auditSampled = true

theorem Settles.refl (r : ResultRow) : Settles r r := ⟨.refl r, fun h => h, fun _ h => h⟩

theorem Settles.trans {r r' r'' : ResultRow} (h : Settles r r') (h' : Settles r' r'') :
    Settles r r'' :=
  ⟨h.paper.trans h'.paper, fun hs => h'.settled (h.settled hs),
    fun hs hsampled => h.sampled hs (h'.sampled (h.settled hs) hsampled)⟩

theorem PaperMove.settles {r r' : ResultRow} (h : PaperMove drawn r r') : Settles r r' :=
  ⟨h.paper, fun hs => (h.stage.settled hs).1, fun hs => (h.stage.settled hs).2⟩

/-- A sequence of changes: linked tables of the same students, and every
paper is still there. -/
structure Keeps {K : Type} (db db' : Db K) : Prop where
  students : SameStudents db db'
  linked : Linked db'
  sound : (∀ r ∈ db.results, r.stage.Sound) → ∀ r ∈ db'.results, r.stage.Sound
  result : ∀ id r, db.result id = some r → ∃ r', db'.result id = some r' ∧ Settles r r'

theorem Changes.keeps {K : Type} [Number K] {env : GradingEnv K} {db db' : Db K} (hl : Linked db)
    (h : Changes env db db') : Keeps db db' := by
  induction h with
  | refl => exact ⟨.refl db, hl, fun h => h, fun id r hr => ⟨r, hr, .refl r⟩⟩
  | tail _ hc ih =>
    have hl' := hc.linked ih.linked
    have hrestaged := hc.restaged ih.linked
    refine ⟨ih.students.trans hc.students, hl', fun h => hrestaged.sound (ih.sound h),
      fun id r hr => ?_⟩
    obtain ⟨r', hr', hsettles⟩ := ih.result id r hr
    obtain ⟨r'', hr'', hmove⟩ := hrestaged.result hl' hr'
    exact ⟨r'', hr'', hsettles.trans hmove.settles⟩

/-! ## Runs with their first decisions -/

/-- The tables, and the papers that were approved at their first decision
and have been neither demoted nor reviewed since. -/
structure FirstRun (K : Type) where
  tables : AuditDb K
  first : List String

section FirstRun

variable {K : Type}

/-- The paper that a move gives its first decision, where it is approved. -/
def firstApproved (db db' : Db K) : Move K → List String
  | .concludeAttempt resultId _ _ =>
    if (db.result resultId).any (fun r => r.status = .aiGrading) ∧
        (db'.result resultId).any (fun r => r.status ∈ sampleStatuses) then [resultId] else []
  | _ => []

/-- The paper is approved still.  One that has lost its place in the sample
was demoted. -/
def staysApproved (db db' : Db K) (id : String) : Bool :=
  (db'.result id).any fun r' => r'.status ∈ sampleStatuses ∧
    ((db.result id).any ResultRow.auditSampled → r'.auditSampled)

theorem drawn_sameKeys (r : ResultRow) : SameKeys r r.drawn :=
  ⟨(ResultRow.drawn_sameHead r).id, (ResultRow.drawn_sameHead r).submissionId,
    ResultRow.advance_keeps (fun _ => rfl) r⟩

theorem settled_drawn {r : ResultRow} (hs : r.stage.Settled) (h : r.status ∈ sampleStatuses) :
    r.drawn.stage.Settled ∧ r.drawn.status ∈ sampleStatuses ∧ r.drawn.auditSampled = true := by
  by_cases hauto : r.status = .autoApproved
  · rw [drawn_of_auto hauto]
    exact ⟨⟨hs.reason, by simp [ResultRow.stage], fun _ => rfl⟩, by simp [sampleStatuses], rfl⟩
  · rw [drawn_of_ne hauto]
    refine ⟨hs, h, hs.sampled ?_⟩
    exact List.mem_singleton.1 ((List.mem_cons.1 h).resolve_left hauto)

theorem toppedUp_result {env : GradingEnv K} {db : Db K} {sessionId id : String} {r : ResultRow}
    (hl : Linked (db.toppedUp env sessionId)) (hr : db.result id = some r) :
    (db.toppedUp env sessionId).result id =
      some (if db.isDue env sessionId r then r.drawn else r) := by
  have hid : (if db.isDue env sessionId r then r.drawn else r).id = id := by
    split_ifs
    · exact (ResultRow.drawn_sameHead r).id.trans (rowOf_key hr)
    · exact rowOf_key hr
  rw [← hid]
  exact result_of_mem hl.ids (List.mem_map_of_mem (mem_of_rowOf hr))

/-- What every run keeps. -/
structure Together (env : GradingEnv K) (first : List String) (db : Db K) : Prop where
  linked : Linked db
  sound : ∀ r ∈ db.results, r.stage.Sound
  approved : ∀ id ∈ first, ∃ r, db.result id = some r ∧ r.stage.Settled ∧
    r.status ∈ sampleStatuses ∧ (db.isDrawn env r = true → r.auditSampled = true)
  together : ∀ id ∈ first, ∀ id' ∈ first, ∀ r q, db.result id = some r → db.result id' = some q →
    db.sameStudent env r q = true → r.auditSampled = q.auditSampled

namespace Together

variable {env : GradingEnv K} {first : List String} {db db' : Db K} {sessionId : String}

theorem stays (h : Together env first db) (hk : Keeps db db') {id : String} (hid : id ∈ first)
    (hstays : staysApproved db db' id = true) :
    ∃ r r', db.result id = some r ∧ db'.result id = some r' ∧ SameKeys r r' ∧
      r'.stage.Settled ∧ r'.status ∈ sampleStatuses ∧ r'.auditSampled = r.auditSampled ∧
        (db.isDrawn env r = true → r.auditSampled = true) := by
  obtain ⟨r, hr, hsettled, _, hdrawn⟩ := h.approved id hid
  obtain ⟨r', hr', hsettles⟩ := hk.result id r hr
  rw [staysApproved, hr', Option.any_some, hr, Option.any_some] at hstays
  obtain ⟨hstatus, hsampled⟩ := of_decide_eq_true hstays
  exact ⟨r, r', hr, hr', hsettles.paper, hsettles.settled hsettled, hstatus,
    Bool.eq_iff_iff.2 ⟨hsettles.sampled hsettled, hsampled⟩, hdrawn⟩

theorem changes (h : Together env first db) (hk : Keeps db db') :
    Together env (first.filter (staysApproved db db')) db' := by
  refine ⟨hk.linked, hk.sound h.sound, fun id hid => ?_, fun id hid id' hid' r' q' hr' hq' hsame => ?_⟩
  · obtain ⟨hid, hstays⟩ := List.mem_filter.1 hid
    obtain ⟨r, r', hr, hr', hpaper, hsettled, hstatus, hsampled, hdrawn⟩ := h.stays hk hid hstays
    refine ⟨r', hr', hsettled, hstatus, fun hdrawn' => ?_⟩
    rw [hk.students.isDrawn hpaper] at hdrawn'
    exact hsampled.trans (hdrawn hdrawn')
  · obtain ⟨hid, hstays⟩ := List.mem_filter.1 hid
    obtain ⟨hid', hstays'⟩ := List.mem_filter.1 hid'
    obtain ⟨r, r₁, hr, hr₁, hpaper, _, _, hsampled, _⟩ := h.stays hk hid hstays
    obtain ⟨q, q₁, hq, hq₁, hpaper', _, _, hsampled', _⟩ := h.stays hk hid' hstays'
    cases hr'.symm.trans hr₁
    cases hq'.symm.trans hq₁
    rw [hk.students.sameStudent hpaper hpaper'] at hsame
    rw [hsampled, hsampled']
    exact h.together id hid id' hid' r q hr hq hsame

theorem topUp_row (h : Together env first db) (hl : Linked (db.toppedUp env sessionId))
    {id : String} (hid : id ∈ first) :
    ∃ r r', db.result id = some r ∧ (db.toppedUp env sessionId).result id = some r' ∧
      SameKeys r r' ∧ r'.stage.Settled ∧ r'.status ∈ sampleStatuses ∧
        r'.auditSampled = (db.isDue env sessionId r || r.auditSampled) ∧
          (db.isDrawn env r = true → r.auditSampled = true) := by
  obtain ⟨r, hr, hsettled, hstatus, hdrawn⟩ := h.approved id hid
  refine ⟨r, if db.isDue env sessionId r then r.drawn else r, hr, toppedUp_result hl hr, ?_⟩
  by_cases hdue : db.isDue env sessionId r = true
  · obtain ⟨hsettled', hstatus', hsampled'⟩ := settled_drawn hsettled hstatus
    rw [if_pos hdue, hdue, Bool.true_or]
    exact ⟨drawn_sameKeys r, hsettled', hstatus', hsampled', hdrawn⟩
  · rw [if_neg hdue, Bool.eq_false_iff.2 hdue, Bool.false_or]
    exact ⟨.refl r, hsettled, hstatus, rfl, hdrawn⟩

theorem topUp (h : Together env first db) (hl : Linked (db.toppedUp env sessionId)) :
    Together env (first.filter (staysApproved db (db.toppedUp env sessionId)))
      (db.toppedUp env sessionId) := by
  have hstudents : SameStudents db (db.toppedUp env sessionId) := ⟨rfl, fun _ => rfl⟩
  refine ⟨hl, fun r hr => ?_, fun id hid => ?_, fun id hid id' hid' r' q' hr' hq' hsame => ?_⟩
  · obtain ⟨r₀, hr₀, rfl⟩ := List.mem_map.1 hr
    split_ifs
    · exact sound_drawn (h.sound r₀ hr₀)
    · exact h.sound r₀ hr₀
  · obtain ⟨r, r', hr, hr', hpaper, hsettled, hstatus, hsampled, hdrawn⟩ :=
      h.topUp_row hl (List.mem_filter.1 hid).1
    refine ⟨r', hr', hsettled, hstatus, fun hdrawn' => ?_⟩
    rw [hstudents.isDrawn hpaper] at hdrawn'
    rw [hsampled, hdrawn hdrawn', Bool.or_true]
  · obtain ⟨hid, _⟩ := List.mem_filter.1 hid
    obtain ⟨hid', _⟩ := List.mem_filter.1 hid'
    obtain ⟨r, r₁, hr, hr₁, hpaper, _, _, hsampled, _⟩ := h.topUp_row hl hid
    obtain ⟨q, q₁, hq, hq₁, hpaper', _, _, hsampled', _⟩ := h.topUp_row hl hid'
    cases hr'.symm.trans hr₁
    cases hq'.symm.trans hq₁
    rw [hstudents.sameStudent hpaper hpaper'] at hsame
    rw [hsampled, hsampled', isDue_of_sameStudent hsame,
      h.together id hid id' hid' r q hr hq hsame]

theorem join (h : Together env first db) {id : String} {r : ResultRow} (hr : db.result id = some r)
    (hsettled : r.stage.Settled) (hstatus : r.status ∈ sampleStatuses)
    (hdrawn : db.isDrawn env r = true → r.auditSampled = true)
    (hagree : ∀ id' ∈ first, ∀ q, db.result id' = some q → db.sameStudent env r q = true →
      q.auditSampled = r.auditSampled) : Together env (first ++ [id]) db := by
  refine ⟨h.linked, h.sound, fun id' hid => ?_, fun id₁ hid₁ id₂ hid₂ r₁ r₂ hr₁ hr₂ hsame => ?_⟩
  · rcases List.mem_append.1 hid with hid | hid
    · exact h.approved id' hid
    · rw [List.mem_singleton.1 hid]
      exact ⟨r, hr, hsettled, hstatus, hdrawn⟩
  · rcases List.mem_append.1 hid₁ with hid₁ | hid₁ <;> rcases List.mem_append.1 hid₂ with hid₂ | hid₂
    · exact h.together id₁ hid₁ id₂ hid₂ r₁ r₂ hr₁ hr₂ hsame
    · cases (List.mem_singleton.1 hid₂ ▸ hr₂).symm.trans hr
      exact hagree id₁ hid₁ r₁ hr₁ (sameStudent_symm hsame)
    · cases (List.mem_singleton.1 hid₁ ▸ hr₁).symm.trans hr
      exact (hagree id₂ hid₂ r₂ hr₂ hsame).symm
    · cases (List.mem_singleton.1 hid₁ ▸ hr₁).symm.trans hr
      cases (List.mem_singleton.1 hid₂ ▸ hr₂).symm.trans hr
      rfl

end Together

/-- The stage of a paper after a first decision that approves it. -/
def Stage.approvedFirst (drawn : Bool) : Stage where
  status := if drawn then .auditPending else .autoApproved
  auditSampled := drawn
  ungradable := none

section Conclude

variable [Number K] {env : GradingEnv K} {db : Db K}

/-- What is known of a paper that the end of an attempt has approved. -/
structure ApprovedFirst (env : GradingEnv K) (db : Db K) (resultId attemptId : String)
    (stored : StoredInvestigation K) (r r' : ResultRow) : Prop where
  result : db.result resultId = some r
  paper : SameKeys r r'
  stage : r.auditSampled = false → r'.stage = .approvedFirst (db.isDrawn env r)
  auto : db.decidesAuto env resultId attemptId stored = true

theorem concludeAttempt_approved (env : GradingEnv K) (h : Linked db) (resultId attemptId : String)
    (stored : StoredInvestigation K) :
    Ensures (concludeAttempt env resultId attemptId stored) db fun _ db' =>
      ∀ r', db'.result resultId = some r' → r'.status ∈ sampleStatuses →
        ∃ r, ApprovedFirst env db resultId attemptId stored r r' := by
  refine (concludeAttempt_row h resultId attemptId stored).mono fun _ db' h' => ?_
  obtain ⟨db₁, r, a, hjudged, hend⟩ := h'
  have hid : r.id = resultId := hjudged.result
  have hrow : rowOf ResultRow.id db₁.results r.id = some r := hjudged.running.result
  have hresult : db.result resultId = some r := by
    rw [← hid, Db.result, ← hjudged.edit.results]
    exact hrow
  intro r' hr' hstatus
  rw [← hid] at hr'
  rcases hend with ⟨u, rfl⟩ | ⟨out, score, _, _, hdecided, hauto⟩
  · have hfailed : rowOf ResultRow.id (updateRow ResultRow.id db₁.results r.id
        (ResultRow.failed u)) r.id = some (r.failed u) :=
      rowOf_updateRow_self (f := ResultRow.failed u) (fun _ => rfl) hrow
    cases hr'.symm.trans hfailed
    simp [sampleStatuses, ResultRow.failed] at hstatus
  · obtain ⟨c, n, confidence, modelUsed, _, rfl⟩ := hdecided
    have hdrawn : db₁.drawnForAudit env r.id = db.isDrawn env r := by
      have hstudents : SameStudents db db₁ :=
        ⟨hjudged.edit.submissions, hjudged.edit.seeds⟩
      rw [drawnForAudit_of_result hjudged.running.result, hstudents.isDrawn (.refl r)]
    have hrow' := rowOf_updateRow_self (f := ResultRow.decided (out.outcome = .auto)
      (db₁.drawnForAudit env r.id) score confidence modelUsed) (fun _ => rfl) hrow
    cases hr'.symm.trans hrow'
    by_cases hout : out.outcome = .auto
    · refine ⟨r, hresult, ⟨rfl, rfl, rfl⟩, fun hunsampled => ?_, hauto hout⟩
      rw [hdrawn]
      simp only [ResultRow.stage, ResultRow.decided, Stage.approvedFirst, hunsampled,
        decide_eq_true hout, Bool.true_and, if_true]
      cases db.isDrawn env r <;> rfl
    · simp [sampleStatuses, ResultRow.decided, hout] at hstatus

end Conclude

end FirstRun

namespace FirstRun

variable {K : Type} [Number K] {env : GradingEnv K} {trips : Nat → Nat → Bool} {w : FirstRun K}

def step (env : GradingEnv K) (trips : Nat → Nat → Bool) (w : FirstRun K) (m : Move K) :
    FirstRun K :=
  let tables := m.run env trips w.tables
  { tables := tables
    first := w.first.filter (staysApproved w.tables.db tables.db) ++
      firstApproved w.tables.db tables.db m }

/-- The condition on a move: a paper that is approved and not drawn finds no
approved paper of its student in the sample.  The end of an attempt is its
two halves. -/
def Joins (env : GradingEnv K) (w : FirstRun K) : Move K → Prop
  | .concludeAttempt resultId attemptId stored =>
    w.tables.view.decidesAuto env resultId attemptId stored = true →
      ∀ r ∈ w.tables.db.results, r.id = resultId → w.tables.db.isDrawn env r = false →
        ∀ q ∈ w.tables.db.results, q.id ∈ w.first → w.tables.db.sameStudent env r q = true →
          q.auditSampled = false
  | .operation op => op.isFinish = false
  | _ => True

/-- Papers are enlisted and nothing of them is graded. -/
structure Starts (w : FirstRun K) : Prop where
  linked : Linked w.tables.db
  new : ∀ r ∈ w.tables.db.results, r.IsNew
  first : w.first = []

omit [Number K] in
theorem Starts.together (h : w.Starts) : Together env w.first w.tables.db := by
  rw [h.first]
  exact ⟨h.linked, fun r hr => sound_of_new (h.new r hr), fun _ h => absurd h List.not_mem_nil,
    fun _ h => absurd h List.not_mem_nil⟩

theorem run_approved {s : AuditDb K} (hl : Linked s.db) {resultId attemptId : String}
    {stored : StoredInvestigation K} {r r' : ResultRow} (hr : s.db.result resultId = some r)
    (hgrading : r.status = .aiGrading)
    (hr' : ((Move.concludeAttempt resultId attemptId stored).run env trips s).db.result resultId =
      some r') (happroved : r'.status ∈ sampleStatuses) :
    ApprovedFirst env s.view resultId attemptId stored r r' := by
  rcases commit_eq_or (onDb (concludeAttempt env resultId attemptId stored)) s with
    hsame | ⟨a, s', hrun, hcommit⟩
  · have hrow : s.db.result resultId = some r' := by
      rw [← hr']
      exact congrArg (fun s : AuditDb K => s.db.result resultId) hsame.symm
    cases hr.symm.trans hrow
    rw [hgrading] at happroved
    exact absurd happroved (by decide)
  · have hend := ensures_onDb (s := s)
      (Q := fun _ (s' : AuditDb K) => ∀ r', s'.db.result resultId = some r' →
        r'.status ∈ sampleStatuses → ∃ r, ApprovedFirst env s.view resultId attemptId stored r r')
      (concludeAttempt_approved env hl.view resultId attemptId stored) a s' hrun
    have hrow : s'.db.result resultId = some r' := by
      rw [← hr']
      exact congrArg (fun s : AuditDb K => s.db.result resultId) hcommit.symm
    obtain ⟨r₁, h₁⟩ := hend r' hrow happroved
    cases hr.symm.trans h₁.result
    exact h₁

theorem concluded (h : Together env w.first w.tables.db) {resultId attemptId : String}
    {stored : StoredInvestigation K}
    (hjoins : w.Joins env (.concludeAttempt resultId attemptId stored)) :
    Together env (w.step env trips (.concludeAttempt resultId attemptId stored)).first
      (w.step env trips (.concludeAttempt resultId attemptId stored)).tables.db := by
  set m : Move K := .concludeAttempt resultId attemptId stored with hm
  set db' := (m.run env trips w.tables).db with hdb'
  have hk : Keeps w.tables.db db' := Changes.keeps h.linked (Move.changes h.linked rfl)
  have hstays := h.changes hk
  show Together env (w.first.filter (staysApproved w.tables.db db') ++
    firstApproved w.tables.db db' m) db'
  rw [hm, firstApproved]
  split_ifs with hfirst
  swap
  · rw [List.append_nil]
    exact hstays
  obtain ⟨hgrading, happroved⟩ := hfirst
  obtain ⟨r₀, hr₀, hgrading⟩ := (Option.any_eq_true _ _).1 hgrading
  obtain ⟨r', hr', happroved⟩ := (Option.any_eq_true _ _).1 happroved
  have hgrading : r₀.status = .aiGrading := of_decide_eq_true hgrading
  have happroved : r'.status ∈ sampleStatuses := of_decide_eq_true happroved
  obtain ⟨_, hpaper, hstage, hauto⟩ := run_approved h.linked hr₀ hgrading hr' happroved
  have hmem : r₀ ∈ w.tables.db.results := mem_of_rowOf hr₀
  have hunsampled : r₀.stage.auditSampled = false :=
    (h.sound r₀ hmem).unsampled (by simp [ResultRow.stage, hgrading])
  have hstage : r'.stage = .approvedFirst (w.tables.db.isDrawn env r₀) := hstage hunsampled
  have hsampled : r'.auditSampled = w.tables.db.isDrawn env r₀ := congrArg Stage.auditSampled hstage
  refine hstays.join hr' ?_ happroved (fun hdrawn => ?_) fun id hid q' hq' hsame => ?_
  · rw [hstage]
    refine ⟨rfl, ?_, fun hpending => ?_⟩
    · cases w.tables.db.isDrawn env r₀ <;> decide
    · cases hdrawn : w.tables.db.isDrawn env r₀
      · rw [hdrawn] at hpending
        cases hpending
      · rfl
  · rw [hk.students.isDrawn hpaper] at hdrawn
    rw [hsampled, hdrawn]
  · obtain ⟨hid, hstay⟩ := List.mem_filter.1 hid
    obtain ⟨q, q₁, hq, hq₁, hpaper', _, _, hsampled', hdrawn'⟩ := h.stays hk hid hstay
    cases hq'.symm.trans hq₁
    rw [hk.students.sameStudent hpaper hpaper'] at hsame
    rw [hsampled, hsampled']
    cases hdrawn : w.tables.db.isDrawn env r₀ with
    | true => exact hdrawn' ((isDrawn_of_sameStudent hsame).symm.trans hdrawn)
    | false =>
      exact hjoins hauto r₀ hmem (rowOf_key hr₀) hdrawn q (mem_of_rowOf hq)
        ((rowOf_key hq).symm ▸ hid) hsame

theorem together_step (h : Together env w.first w.tables.db) {m : Move K}
    (hjoins : w.Joins env m) :
    Together env (w.step env trips m).first (w.step env trips m).tables.db := by
  have hchanges (hm : m.samples = false) (hfirst : ∀ db db' : Db K, firstApproved db db' m = []) :
      Together env (w.step env trips m).first (w.step env trips m).tables.db := by
    have hchanges : Changes env w.tables.db (m.run env trips w.tables).db :=
      Move.changes h.linked hm
    have hkeeps : Keeps w.tables.db (m.run env trips w.tables).db := hchanges.keeps h.linked
    rw [step, hfirst, List.append_nil]
    exact h.changes hkeeps
  cases m with
  | concludeAttempt resultId attemptId stored => exact concluded h hjoins
  | topUp sessionId =>
    have hview : Together env w.first w.tables.view :=
      ⟨h.linked.view, h.sound, h.approved, h.together⟩
    have hfirst : ∀ db db' : Db K, firstApproved db db' (.topUp sessionId) = [] := fun _ _ => rfl
    rw [step, hfirst, List.append_nil, run_topUp h.linked]
    exact hview.topUp (hview.linked.toppedUp env sessionId)
  | operation op => exact hchanges hjoins fun _ _ => rfl
  | startGrading => exact hchanges rfl fun _ _ => rfl
  | writeOneShotScore => exact hchanges rfl fun _ _ => rfl
  | writeOneShotFlag => exact hchanges rfl fun _ _ => rfl
  | review => exact hchanges rfl fun _ _ => rfl
  | recordAudit => exact hchanges rfl fun _ _ => rfl
  | reset => exact hchanges rfl fun _ _ => rfl

variable {start : FirstRun K}

/-- In a run in which every paper that joins the approved ones of a student
without a draw finds none of them in the sample, they are all in the sample
or all outside. -/
theorem student_not_split (hstart : start.Starts)
    (hrun : Reach (step env trips) (Joins env) start w) :
    ∀ r ∈ w.tables.db.results, ∀ q ∈ w.tables.db.results, r.id ∈ w.first → q.id ∈ w.first →
      w.tables.db.sameStudent env r q = true → r.auditSampled = q.auditSampled := by
  have htogether : Together env w.first w.tables.db :=
    hrun.invariant (I := fun w => Together env w.first w.tables.db) hstart.together
      fun _ _ h hjoins => together_step h hjoins
  intro r hr q hq hid hid' hsame
  exact htogether.together r.id hid q.id hid' r q (result_of_mem htogether.linked.ids hr)
    (result_of_mem htogether.linked.ids hq) hsame

end FirstRun

/-! ## A paper that is graded late -/

/-- The papers of one student for two questions, before grading. -/
def oneStudent : Db ℚ :=
  { unpricedRule with
    submissions :=
      [⟨"sub1", "s1", "SV01", some "key1", "main.cpp", some "cpp"⟩,
        ⟨"sub2", "s1", "SV01", some "key2", "main.cpp", some "cpp"⟩]
    cases := ["b1", "b2"].flatMap fun bundleId =>
      [⟨bundleId, "sum-1", "basic", "1 2", "3", none⟩,
        ⟨bundleId, "sum-2", "edge", "0 0", "0", none⟩]
    priceVersions := [⟨"prices", 1, [⟨"row", some 20⟩]⟩]
    results :=
      [{ secondPaper with
          id := "r1", submissionId := "sub1", problemId := some "q1", currentAttemptId := none },
        { secondPaper with submissionId := "sub2", currentAttemptId := none }] }

theorem oneStudent_new : ∀ r ∈ oneStudent.results, r.IsNew := by
  intro r hr
  rcases List.mem_pair.1 hr with rfl | rfl
  · exact ⟨rfl, rfl, rfl, rfl, rfl⟩
  · exact ⟨rfl, rfl, rfl, rfl, rfl⟩

theorem oneStudent_linked : Linked oneStudent :=
  linked_of_new (by decide) (by decide) (by decide) oneStudent_new rfl rfl rfl

namespace FirstRun

theorem oneStudent_starts : Starts ⟨noAudits oneStudent, []⟩ :=
  ⟨oneStudent_linked, oneStudent_new, rfl⟩

/-- Both papers are approved, and the session is topped up. -/
def bothPapers : List (Move ℚ) :=
  [.operation (.startAttempt "r1"), .operation (.startAttempt "r2"),
    .concludeAttempt "r1" "id-" edgeInvestigation, .concludeAttempt "r2" "id-x" edgeInvestigation,
    .topUp "s1"]

/-- The second paper cannot be graded at first.  The first one enters the
sample, and then the second one is graded again. -/
def latePaper : List (Move ℚ) :=
  [.operation (.startAttempt "r2"), .operation (.finishUngradable "r2" "id-" ⟨.system, "timeout"⟩),
    .operation (.startAttempt "r1"), .concludeAttempt "r1" "id-x" edgeInvestigation, .topUp "s1",
    .operation (.requeue "r2"), .operation (.startAttempt "r2"),
    .concludeAttempt "r2" "id-xxx" edgeInvestigation, .topUp "s1"]

/-- The state after a list of moves. -/
def after (moves : List (Move ℚ)) : FirstRun ℚ :=
  moves.foldl (step sampledEnv fun _ _ => false) ⟨noAudits oneStudent, []⟩

instance {K : Type} [Number K] (env : GradingEnv K) (w : FirstRun K) (m : Move K) :
    Decidable (w.Joins env m) :=
  match m with
  | .concludeAttempt resultId attemptId stored => inferInstanceAs (Decidable
      (w.tables.view.decidesAuto env resultId attemptId stored = true →
        ∀ r ∈ w.tables.db.results, r.id = resultId → w.tables.db.isDrawn env r = false →
          ∀ q ∈ w.tables.db.results, q.id ∈ w.first → w.tables.db.sameStudent env r q = true →
            q.auditSampled = false))
  | .operation op => inferInstanceAs (Decidable (op.isFinish = false))
  | .topUp .. => .isTrue trivial
  | .startGrading .. => .isTrue trivial
  | .writeOneShotScore .. => .isTrue trivial
  | .writeOneShotFlag .. => .isTrue trivial
  | .review .. => .isTrue trivial
  | .recordAudit .. => .isTrue trivial
  | .reset .. => .isTrue trivial

/-- Two papers that are approved before the top-up enter the sample
together. -/
theorem bothPapers_not_split :
    (after bothPapers).first = ["r1", "r2"] ∧
      ∀ r ∈ (after bothPapers).tables.db.results, ∀ q ∈ (after bothPapers).tables.db.results,
        r.id ∈ (after bothPapers).first → q.id ∈ (after bothPapers).first →
          (after bothPapers).tables.db.sameStudent sampledEnv r q = true →
            r.auditSampled = q.auditSampled :=
  ⟨by decide +kernel, student_not_split oneStudent_starts (reach_foldl (by decide +kernel))⟩

/-- The late paper is approved and stays outside, and nothing is being
graded. -/
theorem late_paper_is_left_out :
    (after latePaper).first = ["r1", "r2"] ∧
      (after latePaper).tables.db.results.map (fun r => (r.id, r.status, r.auditSampled)) =
        [("r1", .auditPending, true), ("r2", .autoApproved, false)] ∧
      ¬ ∀ (env : GradingEnv ℚ) (trips : Nat → Nat → Bool) (start w : FirstRun ℚ),
        start.Starts → Reach (step env trips) (fun _ _ => True) start w →
          ∀ sessionId, w.tables.db.isBusy sessionId = false →
            ∀ r ∈ w.tables.db.results, ∀ q ∈ w.tables.db.results,
              (w.tables.db.studentIn sessionId r).isSome = true →
                r.id ∈ w.first → q.id ∈ w.first → w.tables.db.sameStudent env r q = true →
                  r.auditSampled = q.auditSampled := by
  refine ⟨by decide +kernel, by decide +kernel, fun h => ?_⟩
  set w := after latePaper with hw
  have hidle : w.tables.db.isBusy "s1" = false := by decide +kernel
  have hsplit : w.tables.db.results.any (fun r => w.tables.db.results.any fun q =>
      (w.tables.db.studentIn "s1" r).isSome && decide (r.id ∈ w.first) && decide (q.id ∈ w.first) &&
        w.tables.db.sameStudent sampledEnv r q && (r.auditSampled != q.auditSampled)) = true := by
    decide +kernel
  obtain ⟨r, hr, hsplit⟩ := List.any_eq_true.1 hsplit
  obtain ⟨q, hq, hsplit⟩ := List.any_eq_true.1 hsplit
  simp only [Bool.and_eq_true, decide_eq_true_eq, bne_iff_ne] at hsplit
  obtain ⟨⟨⟨⟨hsession, hid⟩, hid'⟩, hsame⟩, hne⟩ := hsplit
  have hall : AllAllowed (step sampledEnv fun _ _ => false) (fun _ _ => True)
      ⟨noAudits oneStudent, []⟩ latePaper := by
    simp [AllAllowed, latePaper]
  exact hne (h sampledEnv (fun _ _ => false) _ w oneStudent_starts (reach_foldl hall) "s1" hidle
    r hr q hq hsession hid hid' hsame)

end FirstRun

end Cine.Grading
