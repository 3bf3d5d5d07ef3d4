import Cine.Grading.Review.FinalizeGrades
import Cine.Grading.Rules.RuleOperations

/-!
# The operations on one paper and on a session keep the scores up to date

An exception recomputes its paper, a score by hand takes it out of the reach
of the machine, and a publication moves the status.  `pin` recomputes
nothing: `PinHarmless` is the condition under which every open paper keeps
its cases.
-/

namespace Cine.Grading

open Cine.Lib

variable {K : Type} [Number K] {env : GradingEnv K} {db db' : Db K} {resultId : String}

/-! ## Rows of teachers -/

omit [Number K] in
theorem findResultForOwner_spec (resultId : String) :
    Ensures (findResultForOwner resultId) db fun row db' =>
      db' = db ∧ db.result resultId = some row := by
  rw [findResultForOwner]
  refine ensures_bind (ensures_get ?_)
  split
  · rename_i row hrow
    exact ensures_pure ⟨rfl, hrow⟩
  · exact ensures_throw

omit [Number K] in
theorem lockEditable_spec (resultId : String) (alsoAllowed : List ResultStatus) :
    Ensures (lockEditable resultId alsoAllowed) db fun _ db' => db' = db := by
  rw [lockEditable]
  refine (findResultForOwner_spec resultId).bind fun row db₁ h₁ => ?_
  obtain ⟨rfl, _⟩ := h₁
  exact ensures_ite (fun _ => ensures_bind ensures_throw) fun _ => ensures_pure rfl

omit [Number K] in
theorem markReviewed_quiet (hids : (db.results.map ResultRow.id).Nodup) :
    Ensures (markReviewed resultId) db fun _ db' => Quiet db db' := by
  rw [markReviewed]
  refine (advanceStatus_quiet hids fun r hr => ?_).bind fun _ db' h' => ensures_pure h'
  exact quietMove_of_settled rfl hr rfl (by decide)

omit [Number K] in
theorem exceptionsOf_append {row : ReviewRow} {id : String}
    (h : row.gradingResultId ≠ id ∨ row.kind ≠ .errorException) :
    Db.exceptionsOf { db with reviews := db.reviews ++ [row] } id = db.exceptionsOf id := by
  have hnone : [row].filter (fun t => decide (t.gradingResultId = id ∧ t.kind = .errorException)) =
      [] := by
    refine List.filter_eq_nil_iff.2 fun t ht hmatch => ?_
    rw [List.mem_singleton.1 ht] at hmatch
    obtain ⟨hid, hkind⟩ := of_decide_eq_true hmatch
    rcases h with hne | hne
    · exact hne hid
    · exact hne hkind
  rw [Db.exceptionsOf, Db.exceptionsOf, List.filter_append, hnone, List.append_nil]

theorem Consistent.reviewed (h : AllUpToDate env db) (row : ReviewRow)
    (hkind : row.kind ≠ .errorException) (log : List AuditRow) :
    AllUpToDate env { db with reviews := db.reviews ++ [row], auditLog := log } := by
  have htidy : Tidy { db with reviews := db.reviews ++ [row], auditLog := log } :=
    ⟨h.tidy.ruleKeys, h.tidy.rowIds, h.tidy.uses, h.tidy.rowRules⟩
  refine ⟨htidy, h.ids, h.submissions, fun r hr => ?_⟩
  refine (h.papers r hr).carry ⟨.refl r, rfl, rfl, fun hm => ?_, rfl, rfl, fun _ _ _ => rfl,
    fun _ _ _ => rfl⟩ (fun _ _ _ ha _ => ha) fun _ hstale => ⟨hstale, ?_⟩
  · show ((db.reviews ++ [row]).any _) = true
    rw [List.any_append]
    exact Bool.or_eq_true _ _ ▸ Or.inl hm
  · exact keepsView_of_table h.tidy htidy (fun _ _ => rfl) (exceptionsOf_append (Or.inr hkind))

/-! ## Exceptions and scores by hand -/

theorem setErrorException_consistent (h : AllUpToDate env db) (resultId ruleId : String)
    (direction : ErrorException) :
    Ensures (setErrorException env resultId ruleId direction) db fun _ db' =>
      AllUpToDate env db' := by
  rw [setErrorException]
  refine (findResultForOwner_spec resultId).bind fun _ db₁ h₁ => ?_
  obtain ⟨rfl, _⟩ := h₁
  refine (ownedRule_spec ruleId).bind fun _ db₂ h₂ => ?_
  obtain ⟨rfl, _⟩ := h₂
  refine (lockEditable_spec resultId []).bind fun row db₃ h₃ => ?_
  subst h₃
  refine ensures_ite (fun _ => ensures_bind ensures_throw) fun _ => ?_
  refine ensures_bind (ensures_get ?_)
  refine ensures_ite (fun _ => ensures_bind ensures_throw) fun _ => ?_
  rw [writeReview]
  refine ensures_bind (ensures_modify ?_)
  set exception : ReviewRow := ⟨resultId, .errorException, none, some ruleId, some direction⟩
    with hexception
  have hmanual : ∀ id, Db.hasManualScore { db₃ with reviews := db₃.reviews ++ [exception] } id =
      db₃.hasManualScore id := by
    intro id
    rw [Db.hasManualScore, Db.hasManualScore, List.any_append, hexception]
    simp
  have hedit : RulerEdit db₃ { db₃ with reviews := db₃.reviews ++ [exception] } := ⟨rfl, hmanual⟩
  have htidy : Tidy { db₃ with reviews := db₃.reviews ++ [exception] } :=
    ⟨h.tidy.ruleKeys, h.tidy.rowIds, h.tidy.uses, h.tidy.rowRules⟩
  -- Only the paper of the exception is left to recompute.
  have hstale : Consistent env (fun id => id = resultId)
      { db₃ with reviews := db₃.reviews ++ [exception] } := by
    refine h.edit hedit htidy fun r _ _ hother => ?_
    refine keepsView_of_table h.tidy htidy (fun _ _ => rfl) (exceptionsOf_append (Or.inl ?_))
    exact fun heq => hother heq.symm
  refine (recomputeOne_spec resultId _).bind fun out db₄ h₄ => ?_
  obtain ⟨r, c, hstep⟩ := h₄
  have hdone := hstale.recomputed hstep
  have h₅ : AllUpToDate env db₄ :=
    ⟨hdone.tidy, hdone.ids, hdone.submissions, fun r hr =>
      (hdone.papers r hr).mono fun _ hboth => hboth.2 hboth.1⟩
  exact (markReviewed_quiet h₅.ids).bind fun _ db₅ hquiet => ensures_pure (h₅.quiet hquiet)

theorem setManualScore_consistent (h : AllUpToDate env db) (resultId : String)
    (hundredths : Int) :
    Ensures (setManualScore resultId hundredths) db fun _ db' => AllUpToDate env db' := by
  rw [setManualScore]
  refine (findResultForOwner_spec resultId).bind fun _ db₁ h₁ => ?_
  obtain ⟨rfl, _⟩ := h₁
  refine (lockEditable_spec resultId publishedStatuses).bind fun row db₂ h₂ => ?_
  subst h₂
  refine ensures_bind (ensures_get ?_)
  refine ensures_ite (fun _ => ensures_bind ensures_throw) fun _ => ?_
  refine ensures_ite (fun _ => ?_) fun _ => ?_
  · refine ensures_bind (ensures_lift fun before _ => ?_)
    rw [writeReview]
    refine ensures_bind (ensures_modify (ensures_modify ?_))
    exact h.reviewed ⟨resultId, .manualScore, some hundredths, none, none⟩
      (fun heq => nomatch heq) _
  · rw [writeReview]
    refine ensures_bind (ensures_modify ?_)
    have h₃ := h.reviewed ⟨resultId, .manualScore, some hundredths, none, none⟩
      (fun heq => nomatch heq) db₂.auditLog
    exact (markReviewed_quiet h₃.ids).mono fun _ db₃ hquiet => h₃.quiet hquiet

/-! ## Publishing -/

theorem advanceOrConflict_consistent (h : AllUpToDate env db) {source : List ResultStatus}
    {target : ResultStatus} {extra : ResultRow → ResultRow}
    (hmove : ∀ r, r.status ∈ source → QuietMove r (extra { r with status := target })) :
    Ensures (advanceOrConflict resultId source target extra) db fun _ db' =>
      AllUpToDate env db' := by
  rw [advanceOrConflict]
  refine (advanceStatus_quiet h.ids hmove).bind fun moved db' hquiet => ?_
  exact ensures_ite (fun _ => ensures_throw) fun _ => ensures_pure (h.quiet hquiet)

theorem finalizeOne_consistent (h : AllUpToDate env db) (r : ResultRow)
    (computationId : Option String) :
    Ensures (finalizeOne r computationId) db fun _ db' => AllUpToDate env db' := by
  rw [finalizeOne]
  split
  · refine ensures_ite (fun _ => ensures_pure h) fun hstatus => ?_
    have hunpublished : ∀ s ∈ [r.status], s.isPublished = false := by
      intro s hs
      rw [List.mem_singleton.1 hs]
      rw [not_not] at hstatus
      revert hstatus
      cases r.status <;> decide
    refine (advanceOrConflict_consistent h fun r' hr' => ?_).bind fun _ db' h' => ensures_pure h'
    exact quietMove_of_settled rfl hr' rfl hunpublished
  · refine ensures_ite (fun _ => ?_) fun _ => ensures_ite (fun _ => ?_) fun _ => ensures_pure h
    · rw [writeReview]
      refine ensures_bind (ensures_modify ?_)
      have h₁ := h.reviewed ⟨r.id, .bulkAccept, some (r.aiTotalScore.getD 0), none, none⟩
        (fun heq => nomatch heq) db.auditLog
      refine (advanceOrConflict_consistent h₁ fun r' hr' => ?_).bind fun _ db₂ h₂ => ?_
      · exact quietMove_of_settled rfl hr' rfl (by decide)
      · refine (advanceOrConflict_consistent h₂ fun r' hr' => ?_).bind fun _ db₃ h₃ =>
          ensures_pure h₃
        exact quietMove_of_settled rfl hr' rfl (by decide)
    · refine (advanceOrConflict_consistent h fun r' hr' => ?_).bind fun _ db' h' => ensures_pure h'
      exact quietMove_of_settled rfl hr' rfl (by decide)

theorem finalizeAll_consistent (papers : List (ResultRow × Option String))
    (h : AllUpToDate env db) :
    Ensures (finalizeAll papers) db fun _ db' => AllUpToDate env db' := by
  induction papers generalizing db with
  | nil => exact ensures_pure h
  | cons p rest ih =>
    rw [finalizeAll]
    refine (finalizeOne_consistent h p.1 p.2).bind fun one db₁ h₁ => ?_
    exact (ih h₁).bind fun others db₂ h₂ => ensures_pure h₂

theorem finalizeGrades_consistent (h : AllUpToDate env db) (sessionId : String) :
    Ensures (finalizeGrades sessionId) db fun _ db' => AllUpToDate env db' := by
  rw [finalizeGrades]
  refine ensures_bind (ensures_get ?_)
  refine ensures_ite (fun _ => ensures_bind ensures_throw) fun _ => ?_
  refine ensures_ite (fun _ => ensures_bind ensures_throw) fun _ => ?_
  refine ensures_ite (fun _ => ensures_bind ensures_throw) fun _ => ?_
  exact finalizeAll_consistent _ h

end Cine.Grading
