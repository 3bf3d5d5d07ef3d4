import Cine.Grading.Pipeline.AttemptOperations
import Cine.Grading.Review.FinalizeGrades

/-!
# The moves of a row

`advanceStatus` is one conditional `UPDATE`, so on a table with distinct ids
it is a function of the row: `ResultRow.advance`.  The functions of the
score service and of the teacher that move a status are sequences of such
updates, and each of them is one function of the row as well.

`updateResult_eq_self` drops an update that finds nothing to do.
-/

namespace Cine.Grading

open Cine.Lib

variable {K : Type} {db : Db K} {resultId : String}

/-- The statuses of an approved paper. -/
def sampleStatuses : List ResultStatus := [.autoApproved, .auditPending]

/-- The statuses of a paper that a teacher has decided, or that is
published. -/
def decidedStatuses : List ResultStatus := [.teacherReviewed, .finalized, .exported]

/-! ## Rows -/

namespace ResultRow

/-- `advanceStatus` on a row. -/
def advance (source : List ResultStatus) (target : ResultStatus) (extra : ResultRow → ResultRow)
    (r : ResultRow) : ResultRow :=
  if r.status ∈ source then extra { r with status := target } else r

/-- `drawIntoAudit` on a row. -/
def drawn : ResultRow → ResultRow :=
  advance [.autoApproved] .auditPending fun r => { r with auditSampled := true }

/-- `markReviewed` on a row. -/
def reviewed : ResultRow → ResultRow :=
  advance [.autoApproved, .flaggedForReview] .teacherReviewed fun r =>
    { r with flagForReview := false }

/-- `ruleLayerTransition` on a row. -/
def ruleLayer (auto : Bool) (r : ResultRow) : ResultRow :=
  if auto then
    if r.ungradable.isSome then r
    else r.advance [.flaggedForReview] .autoApproved fun r => { r with flagForReview := false }
  else if r.status = .autoApproved then
    { r with status := .flaggedForReview, flagForReview := true }
  else r.advance [.auditPending] .flaggedForReview fun r =>
    { r with flagForReview := true, auditSampled := false }

variable {extra : ResultRow → ResultRow} {source : List ResultStatus} {target : ResultStatus}

theorem advance_of_mem {r : ResultRow} (h : r.status ∈ source) :
    r.advance source target extra = extra { r with status := target } := by
  rw [advance, if_pos h]

theorem advance_of_not_mem {r : ResultRow} (h : r.status ∉ source) :
    r.advance source target extra = r := by
  rw [advance, if_neg h]

theorem advance_keeps {α : Type} {g : ResultRow → α}
    (h : ∀ r : ResultRow, g (extra { r with status := target }) = g r) (r : ResultRow) :
    g (r.advance source target extra) = g r := by
  rw [advance]
  split_ifs
  · exact h r
  · rfl

/-- The columns that a move of the status leaves alone. -/
structure SameHead (r r' : ResultRow) : Prop where
  id : r'.id = r.id
  submissionId : r'.submissionId = r.submissionId
  currentAttemptId : r'.currentAttemptId = r.currentAttemptId

theorem SameHead.refl (r : ResultRow) : SameHead r r := ⟨rfl, rfl, rfl⟩

theorem advance_sameHead (h : ∀ r, SameHead r (extra { r with status := target })) (r : ResultRow) :
    SameHead r (r.advance source target extra) :=
  ⟨advance_keeps (fun r => (h r).id) r, advance_keeps (fun r => (h r).submissionId) r,
    advance_keeps (fun r => (h r).currentAttemptId) r⟩

theorem drawn_sameHead (r : ResultRow) : SameHead r r.drawn :=
  advance_sameHead (fun _ => ⟨rfl, rfl, rfl⟩) r

theorem reviewed_sameHead (r : ResultRow) : SameHead r r.reviewed :=
  advance_sameHead (fun _ => ⟨rfl, rfl, rfl⟩) r

theorem ruleLayer_sameHead (auto : Bool) (r : ResultRow) : SameHead r (r.ruleLayer auto) := by
  rw [ruleLayer]
  split_ifs
  · exact .refl r
  · exact advance_sameHead (fun _ => ⟨rfl, rfl, rfl⟩) r
  · exact ⟨rfl, rfl, rfl⟩
  · exact advance_sameHead (fun _ => ⟨rfl, rfl, rfl⟩) r

end ResultRow

/-! ## Updates of one row -/

variable {f : ResultRow → ResultRow}

theorem updateResult_eq_self (h : ∀ r ∈ db.results, r.id = resultId → f r = r) :
    db.updateResult resultId f = db := by
  have hrows : updateRow ResultRow.id db.results resultId f = db.results := by
    rw [updateRow]
    conv_rhs => rw [← List.map_id db.results]
    refine List.map_congr_left fun r hr => ?_
    split_ifs with hid
    · exact h r hr hid
    · rfl
  rw [Db.updateResult, hrows]

theorem updateResult_congr {g : ResultRow → ResultRow}
    (h : ∀ r ∈ db.results, r.id = resultId → f r = g r) :
    db.updateResult resultId f = db.updateResult resultId g := by
  rw [Db.updateResult, Db.updateResult, updateRow, updateRow]
  congr 1
  refine List.map_congr_left fun r hr => ?_
  split_ifs with hid
  · exact h r hr hid
  · rfl

theorem updateResult_ids (hid : ∀ r, (f r).id = r.id) :
    (db.updateResult resultId f).results.map ResultRow.id = db.results.map ResultRow.id :=
  map_updateRow hid

theorem status_of_result (hids : (db.results.map ResultRow.id).Nodup) {p : ResultRow → Bool}
    {r : ResultRow} (hr : r ∈ db.results) (hid : r.id = resultId) :
    (db.result resultId).any p = p r := by
  rw [← hid, result_of_mem hids hr, Option.any_some]

theorem advanceStatus_row (hids : (db.results.map ResultRow.id).Nodup)
    (source : List ResultStatus) (target : ResultStatus) (extra : ResultRow → ResultRow) :
    Ensures (advanceStatus resultId source target extra) db fun moved db' =>
      moved = (db.result resultId).any (fun r => r.status ∈ source) ∧
        db' = db.updateResult resultId (ResultRow.advance source target extra) := by
  rw [advanceStatus]
  refine ensures_bind (ensures_get ?_)
  refine ensures_ite (fun hmoved => ?_) fun hstays => ?_
  · refine ensures_bind (ensures_set (ensures_pure ⟨hmoved.symm, ?_⟩))
    refine updateResult_congr fun r hr hid => ?_
    rw [status_of_result hids hr hid] at hmoved
    exact (ResultRow.advance_of_mem (of_decide_eq_true hmoved)).symm
  · refine ensures_pure ⟨(Bool.eq_false_iff.2 hstays).symm, ?_⟩
    refine (updateResult_eq_self fun r hr hid => ?_).symm
    rw [status_of_result hids hr hid] at hstays
    exact ResultRow.advance_of_not_mem fun hmem => hstays (decide_eq_true hmem)

theorem drawIntoAudit_row (hids : (db.results.map ResultRow.id).Nodup) :
    Ensures (drawIntoAudit resultId) db fun _ db' =>
      db' = db.updateResult resultId ResultRow.drawn := by
  rw [drawIntoAudit]
  exact (advanceStatus_row hids _ _ _).bind fun _ db' h => ensures_pure h.2

theorem markReviewed_row (hids : (db.results.map ResultRow.id).Nodup) :
    Ensures (markReviewed resultId) db fun _ db' =>
      db' = db.updateResult resultId ResultRow.reviewed := by
  rw [markReviewed]
  exact (advanceStatus_row hids _ _ _).bind fun _ db' h => ensures_pure h.2

theorem ruleLayerTransition_row [Number K] (hids : (db.results.map ResultRow.id).Nodup)
    (out : ScoreCoreOutput K) :
    Ensures (ruleLayerTransition resultId out) db fun _ db' =>
      db' = db.updateResult resultId (ResultRow.ruleLayer (out.outcome = .auto)) := by
  rw [ruleLayerTransition]
  refine ensures_ite (fun hauto => ?_) fun hauto => ?_
  · rw [decide_eq_true hauto]
    refine ensures_bind (ensures_get ?_)
    refine ensures_ite (fun hreason => ensures_pure ?_) fun hreason => ?_
    · refine (updateResult_eq_self fun r hr hid => ?_).symm
      rw [status_of_result hids hr hid] at hreason
      rw [ResultRow.ruleLayer, if_pos rfl, if_pos hreason]
    · refine (advanceStatus_row hids _ _ _).bind fun _ db' h => ensures_pure (h.2.trans ?_)
      refine updateResult_congr fun r hr hid => ?_
      rw [status_of_result hids hr hid] at hreason
      rw [ResultRow.ruleLayer, if_pos rfl, if_neg hreason]
  · rw [decide_eq_false hauto]
    refine (advanceStatus_row hids _ _ _).bind fun demoted db₁ h₁ => ?_
    obtain ⟨hdemoted, rfl⟩ := h₁
    refine ensures_ite (fun hmoved => ensures_pure ?_) fun hstays => ?_
    · refine updateResult_congr fun r hr hid => ?_
      rw [hdemoted, status_of_result hids hr hid] at hmoved
      have hstatus := of_decide_eq_true hmoved
      rw [ResultRow.advance_of_mem hstatus, ResultRow.ruleLayer, if_neg Bool.false_ne_true,
        if_pos (List.mem_singleton.1 hstatus)]
    · have hself : db.updateResult resultId (ResultRow.advance [.autoApproved] .flaggedForReview
          fun r => { r with flagForReview := true }) = db := by
        refine updateResult_eq_self fun r hr hid => ?_
        rw [hdemoted, status_of_result hids hr hid] at hstays
        exact ResultRow.advance_of_not_mem fun hmem => hstays (decide_eq_true hmem)
      rw [hself]
      refine (advanceStatus_row hids _ _ _).bind fun _ db' h => ensures_pure (h.2.trans ?_)
      refine updateResult_congr fun r hr hid => ?_
      rw [hdemoted, status_of_result hids hr hid] at hstays
      rw [ResultRow.ruleLayer, if_neg Bool.false_ne_true, if_neg]
      exact fun hstatus => hstays (decide_eq_true (List.mem_singleton.2 hstatus))

theorem advanceOrConflict_row (hids : (db.results.map ResultRow.id).Nodup)
    (source : List ResultStatus) (target : ResultStatus) (extra : ResultRow → ResultRow) :
    Ensures (advanceOrConflict resultId source target extra) db fun _ db' =>
      (db.result resultId).any (fun r => r.status ∈ source) = true ∧
        db' = db.updateResult resultId (ResultRow.advance source target extra) := by
  rw [advanceOrConflict]
  refine (advanceStatus_row hids source target extra).bind fun moved db₁ h₁ => ?_
  refine ensures_ite (fun _ => ensures_throw) fun hmoved => ensures_pure ⟨?_, h₁.2⟩
  rw [← h₁.1]
  simpa using hmoved

end Cine.Grading
