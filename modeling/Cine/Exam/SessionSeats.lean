import Cine.Exam.SessionRoster

/-!
# The seats of a session, over whole runs

Two promises about the rows of `submission`, for the operations of
`Cine.Exam.SessionRoster` in any order.

* While the session is open, everybody on its roster has one row for every
  required file, and the roster is not empty (`Complete`).
* Once the end of the session is signed, no row waits for a file, and a row
  says that a student was absent only where the end is signed (`Settled`).

`Inv` is what every operation keeps.  Each promise is kept by every
operation but one, and then exactly under a condition on the tables before
it: `Staffed` for a removal, `Seating` for an approved request.
-/

namespace Cine.Exam.SessionSeats

open Cine.Lib Cine.Exam.SessionRoster

/-- What every operation keeps. -/
structure Inv (w : ExamTables) : Prop where
  owned : Owned w
  seated : w.session.status = .active → Seated w
  signed : w.session.completedBy.isSome = true → w.session.status = .completed
  absent : ∀ row ∈ w.submissions.rows, row.status = .absent →
    w.session.completedBy.isSome = true

/-- While the session is open: somebody is on the roster, everybody on it has
one row for every required file, and a row without a file belongs to somebody
on it. -/
structure Complete (w : ExamTables) : Prop where
  nonempty : w.session.status = .active → w.roster.rows ≠ []
  seats : w.session.status = .active → ∀ student ∈ w.roster.rows,
    ∀ deliverable ∈ w.deliverables.rows,
      w.submissions.rows.countP (fun row => seatKey row = (deliverable.id, student.mssv)) = 1
  owned : w.session.status = .active → ∀ row ∈ w.submissions.rows, row.file = none →
    ∃ student ∈ w.roster.rows, student.mssv = row.studentMssv

def Signed (w : ExamTables) : Prop :=
  w.session.status = .completed ∧ w.session.completedBy.isSome = true

/-- Where the end is signed no seat is open, and only there is anybody
absent. -/
structure Settled (w : ExamTables) : Prop where
  closed : Signed w → ∀ row ∈ w.submissions.rows, row.status ≠ .notSubmitted
  absent : ∀ row ∈ w.submissions.rows, row.status = .absent →
    w.session.completedBy.isSome = true

/-- A removal from an open session leaves somebody on the roster. -/
def Staffed (w : ExamTables) : SessionOp → Prop
  | .removeManual mssv => w.session.status = .active →
    ¬ ∃ row, w.roster.rows = [row] ∧ row.mssv = mssv ∧ row.source = .manual ∧
      hasLive w mssv = false
  | _ => True

/-- An approval after the signature finds a row for every file. -/
def Seating (w : ExamTables) : SessionOp → Prop
  | .ensureManual student => Signed w →
    ∀ deliverable ∈ w.deliverables.rows,
      w.submissions.has (deliverable.id, student.mssv) = true
  | _ => True

/-! ## What every operation keeps -/

variable {w w' : ExamTables} {op : SessionOp} {mssv : String}

theorem not_active_of_session (hsession : w'.session = w.session)
    (hawaiting : isAwaitingOpen w.session.status = true) : w'.session.status ≠ .active := by
  rw [hsession]
  exact not_active_of_awaiting hawaiting

theorem Inv.keeps (h : Inv w) (hkeeps : Keeps w w')
    (hseated : w.session.status = .active → Seated w → Seated w') : Inv w' := by
  refine ⟨hkeeps.owned h.owned, ?_, ?_, ?_⟩
  · rw [hkeeps.session]
    exact fun hactive => hseated hactive (h.seated hactive)
  · rw [hkeeps.session]
    exact h.signed
  · intro row hrow habsent
    rw [hkeeps.session]
    rcases hkeeps.rows row hrow with hold | hempty
    · exact h.absent row hold habsent
    · rw [hempty] at habsent
      cases habsent

theorem Inv.opened (h : Inv w) (hawaiting : isAwaitingOpen w.session.status = true)
    (hopened : Opened w w') : Inv w' := by
  have hunsigned : w.session.completedBy.isSome = false := by
    by_contra hsigned
    rw [h.signed (Bool.of_not_eq_false hsigned)] at hawaiting
    cases hawaiting
  have hsigner : w'.session.completedBy.isSome = false := by
    rw [hopened.session]
    exact hunsigned
  refine ⟨hopened.owned h.owned, fun _ => hopened.seated, ?_, ?_⟩
  · rw [hsigner]
    exact fun hsigned => nomatch hsigned
  · intro row hrow habsent
    rcases hopened.rows row hrow with hold | hempty
    · have hsigned := h.absent row hold habsent
      rw [hunsigned] at hsigned
      cases hsigned
    · rw [hempty] at habsent
      cases habsent

theorem withoutStudent_seated (h : Seated w) (mssv : String) : Seated (withoutStudent w mssv) := by
  intro student hstudent deliverable hdeliverable
  obtain ⟨hold, hother⟩ := UniqueTable.mem_deleteWhere.1 hstudent
  obtain ⟨row, hrow, hkey⟩ := UniqueTable.has_iff.1 (h student hold deliverable hdeliverable)
  have hmssv : row.studentMssv = student.mssv := congrArg Prod.snd hkey
  refine UniqueTable.has_iff.2 ⟨row, UniqueTable.mem_deleteWhere.2 ⟨hrow, ?_⟩, hkey⟩
  rw [hmssv]
  exact hother

theorem Inv.uploaded (h : Inv w) (huploaded : Uploaded w w') : Inv w' := by
  refine ⟨?_, ?_, ?_, ?_⟩
  · intro row hrow hfile
    rw [huploaded.roster]
    rcases huploaded.rows row hrow with hold | ⟨hstored, _⟩
    · exact h.owned row hold hfile
    · rw [hfile] at hstored
      cases hstored
  · rw [huploaded.session]
    intro hactive student hstudent deliverable hdeliverable
    rw [huploaded.roster] at hstudent
    rw [huploaded.deliverables] at hdeliverable
    exact huploaded.has _ (h.seated hactive student hstudent deliverable hdeliverable)
  · rw [huploaded.session]
    exact h.signed
  · intro row hrow habsent
    rw [huploaded.session]
    rcases huploaded.rows row hrow with hold | ⟨_, hlive⟩
    · exact h.absent row hold habsent
    · rw [habsent] at hlive
      cases hlive

theorem Inv.advanced (h : Inv w) (hadvanced : Advanced w w') : Inv w' := by
  obtain ⟨session, rfl⟩ := hadvanced.tables
  refine ⟨h.owned, fun hactive => h.seated (hadvanced.active hactive), ?_, ?_⟩
  · rw [hadvanced.signer]
    exact fun hsigned => hadvanced.completed (h.signed hsigned)
  · rw [hadvanced.signer]
    exact h.absent

theorem mem_markAbsentees {row : SubmissionRow} (h : row ∈ (markAbsentees w).submissions.rows) :
    row.status ≠ .notSubmitted ∧
      ∃ before ∈ w.submissions.rows, seatKey row = seatKey before ∧ row.file = before.file := by
  have hmem : row ∈ (w.submissions.updateWhere (fun row => row.status = .notSubmitted) markAbsent
    seatKey_markAbsent).rows := h
  obtain ⟨before, hbefore, rfl⟩ := UniqueTable.mem_updateWhere.1 hmem
  split_ifs with hopen
  · exact ⟨by simp [markAbsent], before, hbefore, rfl, rfl⟩
  · exact ⟨by simpa using hopen, before, hbefore, rfl, rfl⟩

theorem Inv.signs (h : Inv w) (teacherId : String) (now : Int) :
    Inv (markAbsentees { w with session := w.session.confirm teacherId now }) := by
  refine ⟨?_, fun hactive => (nomatch hactive), fun _ => rfl, fun _ _ _ => rfl⟩
  intro row hrow hfile
  obtain ⟨_, before, hbefore, hseat, hsame⟩ := mem_markAbsentees hrow
  have hmssv : row.studentMssv = before.studentMssv := congrArg Prod.snd hseat
  rw [hmssv]
  exact h.owned before hbefore (hsame.symm.trans hfile)

theorem Inv.moves (h : Inv w) (hmoves : Moves w op w') : Inv w' := by
  cases hmoves with
  | fails => exact h
  | prepares _ hawaiting hkeeps =>
    exact h.keeps hkeeps fun hactive => absurd hactive (not_active_of_awaiting hawaiting)
  | opens hawaiting hopened => exact h.opened hawaiting hopened
  | admits student _ hadmitted => exact h.keeps hadmitted.keeps fun _ => hadmitted.seated
  | ensures student =>
    have hadmitted := ensureManual_admitted w student
    exact h.keeps hadmitted.keeps fun _ => hadmitted.seated
  | dismisses mssv _ _ =>
    exact h.keeps (withoutStudent_keeps w mssv) fun _ hseated => withoutStudent_seated hseated mssv
  | uploads _ huploaded => exact h.uploaded huploaded
  | advances _ hadvanced => exact h.advanced hadvanced
  | signs teacherId now _ => exact h.signs teacherId now

theorem Inv.step (w : ExamTables) (op : SessionOp) (h : Inv w) :
    Inv (SessionRoster.step w op) :=
  h.moves (step_moves w op)

theorem inv_createdSession (session : SessionColumns) (teacherId courseName : String)
    (enrollments : List Enrollment) :
    Inv (createdSession session teacherId courseName enrollments) :=
  ⟨fun _ hrow => (nomatch hrow), fun hactive => (nomatch hactive), fun hsigned => (nomatch hsigned),
    fun _ hrow => (nomatch hrow)⟩

/-! ## An open session -/

theorem complete_iff (h : Inv w) :
    Complete w ↔ (w.session.status = .active → w.roster.rows ≠ []) := by
  refine ⟨fun hcomplete => hcomplete.nonempty, fun hnonempty => ⟨hnonempty, ?_, ?_⟩⟩
  · intro hactive student hstudent deliverable hdeliverable
    exact UniqueTable.countP_eq_one_iff.2
      (h.seated hactive student hstudent deliverable hdeliverable)
  · intro _ row hrow hfile
    exact UniqueTable.has_iff.1 (h.owned row hrow hfile)

theorem roster_after_dismissal (hdismissable : Dismissable w mssv) :
    (withoutStudent w mssv).roster.rows = [] ↔
      ∃ row, w.roster.rows = [row] ∧ row.mssv = mssv ∧ row.source = .manual ∧
        hasLive w mssv = false := by
  obtain ⟨row, hfind, hsource, hlive⟩ := hdismissable
  have hkey : rosterKey row = mssv := UniqueTable.key_of_find? hfind
  change row.mssv = mssv at hkey
  constructor
  · intro hempty
    refine ⟨row, UniqueTable.rows_eq_singleton (UniqueTable.mem_of_find? hfind) ?_, hkey, hsource,
      hlive⟩
    intro other hother
    by_contra hdifferent
    have hstays : other ∈ (withoutStudent w mssv).roster.rows := by
      refine UniqueTable.mem_deleteWhere.2 ⟨hother, ?_⟩
      rw [decide_eq_false_iff_not, ← hkey]
      exact hdifferent
    rw [hempty] at hstays
    exact absurd hstays List.not_mem_nil
  · rintro ⟨only, hrows, hmssv, _⟩
    refine List.eq_nil_iff_forall_not_mem.2 fun other hother => ?_
    obtain ⟨hold, hdifferent⟩ := UniqueTable.mem_deleteWhere.1 hother
    rw [hrows] at hold
    rw [List.mem_singleton.1 hold] at hdifferent
    exact absurd hmssv (by simpa using hdifferent)

theorem dismissable_of_only {row : RosterRow} (hrows : w.roster.rows = [row])
    (hmssv : row.mssv = mssv) (hsource : row.source = .manual) (hlive : hasLive w mssv = false) :
    Dismissable w mssv := by
  have hmem : row ∈ w.roster.rows := by
    rw [hrows]
    exact List.mem_singleton_self row
  exact ⟨row, hmssv ▸ UniqueTable.find?_of_mem hmem, hsource, hlive⟩

theorem step_removeManual_fails (hactive : w.session.status = .active) (h : ¬ Dismissable w mssv) :
    step w (.removeManual mssv) = w := by
  unfold step
  split
  · rename_i w' hrun
    obtain ⟨_, ⟨hawaiting, _⟩ | ⟨hdismissable, _⟩⟩ := removeManual_cases hrun
    · exact absurd hactive (not_active_of_awaiting hawaiting)
    · exact absurd hdismissable h
  · rfl

theorem step_removeManual_session (w : ExamTables) (mssv : String) :
    (step w (.removeManual mssv)).session = w.session := by
  unfold step
  split
  · rename_i w' hrun
    obtain ⟨_, ⟨_, hkeeps⟩ | ⟨_, rfl⟩⟩ := removeManual_cases hrun
    · exact hkeeps.session
    · rfl
  · rfl

theorem nonempty_step_removeManual_iff (hcomplete : Complete w) :
    ((step w (.removeManual mssv)).session.status = .active →
      (step w (.removeManual mssv)).roster.rows ≠ []) ↔ Staffed w (.removeManual mssv) := by
  rw [step_removeManual_session]
  refine imp_congr_right fun hactive => ?_
  by_cases hdismissable : Dismissable w mssv
  · have hstep : step w (.removeManual mssv) = withoutStudent w mssv := by
      rw [step, runOp, removeManual_active hactive hdismissable]
    rw [hstep]
    exact not_congr (roster_after_dismissal hdismissable)
  · rw [step_removeManual_fails hactive hdismissable]
    refine iff_of_true (hcomplete.nonempty hactive) ?_
    rintro ⟨row, hrows, hmssv, hsource, hlive⟩
    exact hdismissable (dismissable_of_only hrows hmssv hsource hlive)

theorem nonempty_moves (hmoves : Moves w op w') (hcomplete : Complete w)
    (hother : ∀ mssv, op ≠ .removeManual mssv) (hactive : w'.session.status = .active) :
    w'.roster.rows ≠ [] := by
  cases hmoves with
  | fails => exact hcomplete.nonempty hactive
  | prepares _ hawaiting hkeeps =>
    exact absurd hactive (not_active_of_session hkeeps.session hawaiting)
  | opens _ hopened => exact hopened.nonempty
  | admits student _ hadmitted => exact hadmitted.nonempty
  | ensures student => exact (ensureManual_admitted w student).nonempty
  | dismisses mssv _ _ => exact absurd rfl (hother mssv)
  | uploads _ huploaded =>
    rw [huploaded.session] at hactive
    rw [huploaded.roster]
    exact hcomplete.nonempty hactive
  | advances _ hadvanced =>
    obtain ⟨session, rfl⟩ := hadvanced.tables
    exact hcomplete.nonempty (hadvanced.active hactive)
  | signs => cases hactive

theorem complete_step_iff (h : Inv w) (hcomplete : Complete w) :
    Complete (step w op) ↔ Staffed w op := by
  rw [complete_iff (h.step w op)]
  cases op with
  | removeManual mssv => exact nonempty_step_removeManual_iff hcomplete
  | _ =>
    exact iff_of_true (nonempty_moves (step_moves w _) hcomplete fun _ heq => nomatch heq) trivial

/-! ## A signed session -/

theorem not_signed_of_session (hsession : w'.session = w.session)
    (hnot : w.session.status ≠ .completed) : ¬ Signed w' := by
  rintro ⟨hcompleted, _⟩
  rw [hsession] at hcompleted
  exact hnot hcompleted

theorem not_completed_of_awaiting {status : ExamSessionStatus}
    (h : isAwaitingOpen status = true) : status ≠ .completed := by
  rintro rfl
  cases h

theorem not_completed_of_not_over {status : ExamSessionStatus}
    (h : isExamOver status = false) : status ≠ .completed := by
  rintro rfl
  cases h

theorem ensureManual_closed_iff {student : RosterStudent}
    (hclosed : ∀ row ∈ w.submissions.rows, row.status ≠ .notSubmitted) :
    (∀ row ∈ (ensureManual w student).submissions.rows, row.status ≠ .notSubmitted) ↔
      ∀ deliverable ∈ w.deliverables.rows,
        w.submissions.has (deliverable.id, student.mssv) = true := by
  constructor
  · intro h deliverable hdeliverable
    by_contra hmissing
    have hseat : (ensureManual w student).submissions.has (deliverable.id, student.mssv) = true :=
      has_seedSeats.2 (.inr ⟨student, List.mem_singleton_self student, deliverable,
        hdeliverable, rfl⟩)
    obtain ⟨row, hrow, hkey⟩ := UniqueTable.has_iff.1 hseat
    rcases mem_seedSeats hrow with hold | hempty
    · exact hmissing (UniqueTable.has_iff.2 ⟨row, hold, hkey⟩)
    · obtain ⟨_, _, _, _, rfl⟩ := mem_emptySeats.1 hempty
      exact h _ hrow rfl
  · intro h row hrow
    have hsame : (ensureManual w student).submissions = w.submissions := by
      refine UniqueTable.foldl_insertOrIgnore_of_has fun seat hseat => ?_
      obtain ⟨other, hother, deliverable, hdeliverable, rfl⟩ := mem_emptySeats.1 hseat
      rw [List.mem_singleton.1 hother]
      exact h deliverable hdeliverable
    rw [hsame] at hrow
    exact hclosed row hrow

theorem closed_moves (hmoves : Moves w op w') (h : Inv w) (hsettled : Settled w)
    (hother : ∀ student, op ≠ .ensureManual student) (hsigned : Signed w') :
    ∀ row ∈ w'.submissions.rows, row.status ≠ .notSubmitted := by
  cases hmoves with
  | fails => exact hsettled.closed hsigned
  | prepares _ hawaiting hkeeps =>
    exact absurd hsigned
      (not_signed_of_session hkeeps.session (not_completed_of_awaiting hawaiting))
  | opens _ hopened =>
    have hstatus := hsigned.1
    rw [hopened.session] at hstatus
    cases hstatus
  | admits student hopen hadmitted =>
    exact absurd hsigned
      (not_signed_of_session hadmitted.keeps.session (not_completed_of_not_over hopen))
  | ensures student => exact absurd rfl (hother student)
  | dismisses mssv hopen _ =>
    exact absurd hsigned (not_signed_of_session rfl (not_completed_of_not_over hopen))
  | uploads _ huploaded =>
    intro row hrow
    unfold Signed at hsigned
    rw [huploaded.session] at hsigned
    rcases huploaded.rows row hrow with hold | ⟨_, hlive⟩
    · exact hsettled.closed hsigned row hold
    · intro hempty
      rw [hempty] at hlive
      cases hlive
  | advances _ hadvanced =>
    have hsigner := hsigned.2
    rw [hadvanced.signer] at hsigner
    obtain ⟨session, rfl⟩ := hadvanced.tables
    exact hsettled.closed ⟨h.signed hsigner, hsigner⟩
  | signs teacherId now _ => exact fun row hrow => (mem_markAbsentees hrow).1

theorem settled_iff (h : Inv w) :
    Settled w ↔ (Signed w → ∀ row ∈ w.submissions.rows, row.status ≠ .notSubmitted) :=
  ⟨fun hsettled => hsettled.closed, fun hclosed => ⟨hclosed, h.absent⟩⟩

theorem settled_step_iff (h : Inv w) (hsettled : Settled w) :
    Settled (step w op) ↔ Seating w op := by
  rw [settled_iff (h.step w op)]
  cases op with
  | ensureManual student =>
    refine imp_congr_right fun hsigned => ?_
    exact ensureManual_closed_iff (hsettled.closed hsigned)
  | _ =>
    exact iff_of_true
      (fun hsigned => closed_moves (step_moves w _) h hsettled (fun _ heq => nomatch heq) hsigned)
      trivial

/-! ## Runs -/

theorem complete_createdSession (session : SessionColumns) (teacherId courseName : String)
    (enrollments : List Enrollment) :
    Complete (createdSession session teacherId courseName enrollments) :=
  ⟨fun hactive => (nomatch hactive), fun hactive => (nomatch hactive),
    fun hactive => (nomatch hactive)⟩

theorem settled_createdSession (session : SessionColumns) (teacherId courseName : String)
    (enrollments : List Enrollment) :
    Settled (createdSession session teacherId courseName enrollments) :=
  ⟨fun hsigned => (nomatch hsigned.1), fun _ hrow => (nomatch hrow)⟩

/-- Whatever is done with a session from its creation on: while it is open,
everybody on its roster has one row for every file and the roster is not
empty, at every point, exactly when no removal takes the last student off the
roster of the open session. -/
theorem complete_throughout_iff (session : SessionColumns) (teacherId courseName : String)
    (enrollments : List Enrollment) (ops : List SessionOp) :
    Throughout step Complete (createdSession session teacherId courseName enrollments) ops ↔
      AllAllowed step Staffed (createdSession session teacherId courseName enrollments) ops :=
  throughout_iff_allAllowed (I := Inv) (fun w op h => h.step w op)
    (fun _ _ h hcomplete => complete_step_iff h hcomplete)
    (inv_createdSession session teacherId courseName enrollments)
    (complete_createdSession session teacherId courseName enrollments)

/-- Whatever is done with a session from its creation on: once its end is
signed no row waits for a file, and a row says absent only then, at every
point, exactly when no approval seats a student after the signature. -/
theorem settled_throughout_iff (session : SessionColumns) (teacherId courseName : String)
    (enrollments : List Enrollment) (ops : List SessionOp) :
    Throughout step Settled (createdSession session teacherId courseName enrollments) ops ↔
      AllAllowed step Seating (createdSession session teacherId courseName enrollments) ops :=
  throughout_iff_allAllowed (I := Inv) (fun w op h => h.step w op)
    (fun _ _ h hsettled => settled_step_iff h hsettled)
    (inv_createdSession session teacherId courseName enrollments)
    (settled_createdSession session teacherId courseName enrollments)

def plannedSession : ExamTables :=
  createdSession ⟨.scheduled, some "class", 0, 3600000, none, none⟩ "lecturer" "course"
    [⟨"20120001", "An", "class", none, "course", 0⟩]

/-- A class of one student.  A second one is added by hand, the first is taken
off, the session is opened, and then the second is taken off too. -/
theorem last_student_removed :
    let w := [.replaceRequiredDeliverables ["Bai1.zip"], .addManually ⟨"20120002", "Binh"⟩,
      .removeManual "20120001", .freeze, .removeManual "20120002"].foldl step plannedSession
    w.session.status = .active ∧ w.roster.rows = [] := by
  decide

/-- A request that is approved after the end is signed. -/
theorem approved_after_signature :
    let w := [.replaceRequiredDeliverables ["Bai1.zip"], .freeze, .finalizeExamSession,
      .confirmEnd "lecturer" 3600000,
      .ensureManual ⟨"20120002", "Binh", "other", "lecturer2"⟩].foldl step plannedSession
    w.session.status = .completed ∧ w.session.completedBy = some "lecturer" ∧
      w.submissions.rows.map (fun row => (row.studentMssv, row.status)) =
        [("20120001", .absent), ("20120002", .notSubmitted)] := by
  decide

end Cine.Exam.SessionSeats
