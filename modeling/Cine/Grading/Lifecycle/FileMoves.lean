import Cine.Grading.Lifecycle.PaperFiles

/-!
# The files after a change

Every change of the tables is one move of every file: `Change.refiled`.  The
paper that it is about makes a `FileMove`, and the files of the others stay.
-/

namespace Cine.Grading

open Cine.Lib

variable {K : Type}

/-- What the tables of now score of an investigation. -/
def Db.Scores [Number K] (db : Db K) (env : GradingEnv K) (stored : StoredInvestigation K)
    (out : ScoreCoreOutput K) : Prop :=
  ∃ r, db.Computes env r stored out

/-- The files after a change: every old one with a move of its own, and
empty ones of new papers. -/
def Refiled (scores : StoredInvestigation K → ScoreCoreOutput K → Prop) (db db' : Db K) : Prop :=
  ∃ (g : ResultRow → ResultRow) (rows : List ResultRow),
    db'.results = db.results.map g ++ rows ∧
      (∀ r ∈ db.results, FileMove scores (db.file r) (db'.file (g r))) ∧
        ∀ r ∈ rows, r.IsNew ∧ db'.file r = ⟨r, [], [], false⟩

/-! ## Files of other papers -/

section Files

variable {scores : StoredInvestigation K → ScoreCoreOutput K → Prop} {db db' : Db K}
  {r : ResultRow} {a : AttemptRow K}

theorem FileMove.stay (f : PaperFile K) : FileMove scores f f :=
  .moved ⟨rfl, .inl rfl, fun h => h, fun h => h⟩ .inl

theorem file_congr (hattempts : db'.attempts = db.attempts)
    (hcomputations : db'.computations = db.computations)
    (hmarked : db'.hasManualScore r.id = db.hasManualScore r.id) : db'.file r = db.file r := by
  rw [Db.file, Db.file, hattempts, hcomputations, hmarked]

theorem file_row {r' : ResultRow} (hid : r'.id = r.id) : db.file r' = { db.file r with row := r' } := by
  rw [Db.file, Db.file, hid]

theorem filter_append_ne {α : Type} {l : List α} {x : α} {p : α → Bool} (h : p x = false) :
    (l ++ [x]).filter p = l.filter p := by
  rw [List.filter_append, List.filter_cons_of_neg (by simp [h]), List.filter_nil, List.append_nil]

theorem filter_append_eq {α : Type} {l : List α} {x : α} {p : α → Bool} (h : p x = true) :
    (l ++ [x]).filter p = l.filter p ++ [x] := by
  rw [List.filter_append, List.filter_cons_of_pos h, List.filter_nil]

theorem hasManualScore_append {reviews : List ReviewRow} {row : ReviewRow} {id : String}
    (h : row.gradingResultId ≠ id) :
    (reviews ++ [row]).any (fun t => t.gradingResultId = id ∧ t.kind = .manualScore) =
      reviews.any fun t => t.gradingResultId = id ∧ t.kind = .manualScore := by
  rw [List.any_append, List.any_cons, List.any_nil, Bool.or_false]
  simp only [h, false_and, decide_false, Bool.or_false]

namespace Refiled

theorem update {id : String} {f : ResultRow → ResultRow}
    (hrows : db'.results = updateRow ResultRow.id db.results id f)
    (hothers : ∀ r ∈ db.results, r.id ≠ id → db'.file r = db.file r)
    (hpaper : ∀ r ∈ db.results, r.id = id → FileMove scores (db.file r) (db'.file (f r))) :
    Refiled scores db db' := by
  refine ⟨fun r => if r.id = id then f r else r, [], ?_, fun r hr => ?_,
    fun _ h => absurd h List.not_mem_nil⟩
  · rw [hrows, List.append_nil]
    rfl
  · show FileMove scores (db.file r) (db'.file (if r.id = id then f r else r))
    split_ifs with hid
    · exact hpaper r hr hid
    · rw [hothers r hr hid]
      exact .stay _

theorem rows {id : String} {f : ResultRow → ResultRow} (hid : ∀ r, (f r).id = r.id)
    (hmove : ∀ r ∈ db.results, r.id = id →
      FileMove scores (db.file r) { db.file r with row := f r }) :
    Refiled scores db (db.updateResult id f) := by
  refine update rfl (fun r _ _ => rfl) fun r hr hrid => ?_
  have hfile : (db.updateResult id f).file (f r) = { db.file r with row := f r } :=
    file_row (hid r)
  rw [hfile]
  exact hmove r hr hrid

theorem around (hresults : db'.results = db.results)
    (hfile : ∀ r ∈ db.results, db'.file r = db.file r) : Refiled scores db db' := by
  refine ⟨id, [], ?_, fun r hr => ?_, fun _ h => absurd h List.not_mem_nil⟩
  · rw [hresults, List.map_id, List.append_nil]
  · rw [id_eq, hfile r hr]
    exact .stay _

theorem mono {scores' : StoredInvestigation K → ScoreCoreOutput K → Prop}
    (himp : ∀ stored out, scores stored out → scores' stored out) (h : Refiled scores db db') :
    Refiled scores' db db' := by
  obtain ⟨g, rows, hrows, hmove, hnew⟩ := h
  exact ⟨g, rows, hrows, fun r hr => (hmove r hr).mono himp, hnew⟩

end Refiled

theorem mem_file_of_current (hl : Linked db) (hr : db.result r.id = some r)
    (hcurrent : r.currentAttemptId = some a.id) (ha : db.attempt a.id = some a) :
    a ∈ (db.file r).attempts := by
  obtain ⟨b, hb, howner⟩ := hl.current r (mem_of_rowOf hr) a.id hcurrent
  rw [ha] at hb
  cases hb
  exact List.mem_filter.2 ⟨mem_of_rowOf ha, decide_eq_true howner⟩

theorem Db.IsRunning.file (hl : Linked db) (h : db.IsRunning r a) : (db.file r).IsRunning a :=
  ⟨mem_file_of_current hl h.result h.current h.attempt, h.status, h.current, h.outcome⟩

theorem file_isGraded (hl : Linked db) (hr : db.result r.id = some r)
    {stored : StoredInvestigation K} (h : db.gradedInvestigation r = some stored) :
    (db.file r).IsGraded := by
  obtain ⟨a, ha, hgraded⟩ := Option.bind_eq_some_iff.1 h
  obtain ⟨id, hcurrent, ha⟩ := Option.bind_eq_some_iff.1 ha
  have hid : a.id = id := rowOf_key ha
  subst hid
  refine ⟨a, mem_file_of_current hl hr hcurrent ha, hcurrent, ?_⟩
  by_contra hne
  rw [if_neg hne] at hgraded
  cases hgraded

theorem file_isNext (hids : (db.attempts.map AttemptRow.id).Nodup) (hstatus : r.status = .aiGrading)
    (hidle : db.runningAttempt r = none) (hfresh : a.id ∉ db.attempts.map AttemptRow.id)
    (howner : a.gradingResultId = r.id) (hnumber : a.attemptNo = db.nextAttemptNo r.id) :
    (db.file r).IsNext a := by
  refine ⟨hstatus, fun b hb hcurrent houtcome => ?_, fun hmem => hfresh ?_, howner, hnumber⟩
  · have hb : db.attempt b.id = some b := rowOf_of_mem hids (List.mem_filter.1 hb).1
    have hcurrent : r.currentAttemptId = some b.id := hcurrent
    have hrunning : db.runningAttempt r = some b.id := by
      rw [Db.runningAttempt, hcurrent, Option.filter_some, hb, Option.bind_some, houtcome]
      rfl
    rw [hidle] at hrunning
    cases hrunning
  · exact (List.filter_sublist.map _).subset hmem

theorem file_updateAttempt_ne (hids : (db.attempts.map AttemptRow.id).Nodup)
    {g : AttemptRow K → AttemptRow K} (howner : ∀ b, (g b).gradingResultId = b.gradingResultId)
    (ha : a ∈ (db.file r).attempts) {q : ResultRow} (hne : q.id ≠ r.id) :
    (updateRow AttemptRow.id db.attempts a.id g).filter (fun b => b.gradingResultId = q.id) =
      db.attempts.filter fun b => b.gradingResultId = q.id := by
  obtain ⟨ha, hown⟩ := List.mem_filter.1 ha
  have hown : a.gradingResultId = r.id := of_decide_eq_true hown
  rw [filter_updateRow fun b => by rw [howner]]
  refine updateRow_of_forall_ne fun b hb hid => hne ?_
  obtain ⟨hb, hbown⟩ := List.mem_filter.1 hb
  rw [← of_decide_eq_true hbown, List.inj_on_of_nodup_map hids hb ha hid, hown]

theorem file_updateAttempt {g : AttemptRow K → AttemptRow K}
    (howner : ∀ b, (g b).gradingResultId = b.gradingResultId) (id : String) :
    (updateRow AttemptRow.id db.attempts id g).filter (fun b => b.gradingResultId = r.id) =
      updateRow AttemptRow.id (db.file r).attempts id g :=
  filter_updateRow fun b => by rw [howner]

end Files

/-! ## Every change moves every file -/

section Changes

variable {env : GradingEnv K} {db db' : Db K}

variable {f : ResultRow → ResultRow} {r : ResultRow}
    {scores : StoredInvestigation K → ScoreCoreOutput K → Prop} {a : AttemptRow K}

theorem file_computation {c : ComputationRow K} (n : Nat) (howner : c.gradingResultId = r.id)
    (hid : ∀ r, (f r).id = r.id) :
    ((db.addComputation c n).updateResult r.id f).file (f r) =
      { db.file r with row := f r, computations := (db.file r).computations ++ [c] } := by
  rw [Db.file, hid]
  show PaperFile.mk _ _ _ _ = PaperFile.mk _ _ _ _
  congr 1
  exact filter_append_eq (decide_eq_true howner)

theorem Refiled.computation {c : ComputationRow K} (hl : Linked db) (n : Nat)
    (hr : db.result r.id = some r) (howner : c.gradingResultId = r.id) (hid : ∀ r, (f r).id = r.id)
    (hmove : FileMove scores (db.file r)
      { db.file r with row := f r, computations := (db.file r).computations ++ [c] }) :
    Refiled scores db ((db.addComputation c n).updateResult r.id f) := by
  refine .update rfl (fun q _ hne => ?_) fun q hq hqid => ?_
  · show PaperFile.mk q _ _ _ = PaperFile.mk q _ _ _
    congr 1
    refine filter_append_ne (decide_eq_false ?_)
    rw [howner]
    exact hne.symm
  · have hsame : q = r := eq_of_result hl.ids hr hq hqid
    subst hsame
    rw [file_computation n howner hid]
    exact hmove

theorem Refiled.failed {g : AttemptRow K → AttemptRow K} (hl : Linked db)
    (hids : (db.attempts.map AttemptRow.id).Nodup) (hrunning : db.IsRunning r a)
    (hfails : AttemptRow.Fails g) (u : Ungradable) :
    Refiled scores db ((db.updateAttempt a.id g).updateResult r.id (ResultRow.failed u)) := by
  have hmem := (hrunning.file hl).attempt
  refine .update rfl (fun q _ hne => ?_) fun q hq hqid => ?_
  · show PaperFile.mk q _ _ _ = PaperFile.mk q _ _ _
    rw [← file_updateAttempt_ne hids hfails.owner hmem hne]
    rfl
  · have hsame : q = r := eq_of_result hl.ids hrunning.result hq hqid
    subst hsame
    have hfile : ((db.updateAttempt a.id g).updateResult q.id (ResultRow.failed u)).file
        (q.failed u) = { db.file q with
          row := q.failed u
          attempts := updateRow AttemptRow.id (db.file q).attempts a.id g } := by
      rw [← file_updateAttempt hfails.owner]
      rfl
    rw [hfile]
    exact .failed u (hrunning.file hl) hfails

theorem Refiled.newAttempt (hl : Linked db) (n : Nat) (hr : db.result r.id = some r)
    (howner : a.gradingResultId = r.id) (hid : ∀ r, (f r).id = r.id)
    (hmove : FileMove scores (db.file r)
      { db.file r with
        row := { f r with currentAttemptId := some a.id }
        attempts := (db.file r).attempts ++ [a] }) :
    Refiled scores db ((db.updateResult r.id f).addAttempt a n) := by
  have hrows : ((db.updateResult r.id f).addAttempt a n).results =
      updateRow ResultRow.id db.results r.id fun q => { f q with currentAttemptId := some a.id } := by
    show updateRow ResultRow.id (updateRow ResultRow.id db.results r.id _) a.gradingResultId _ = _
    rw [howner]
    exact updateRow_updateRow hid
  refine .update hrows (fun q _ hne => ?_) fun q hq hqid => ?_
  · show PaperFile.mk q _ _ _ = PaperFile.mk q _ _ _
    congr 1
    refine filter_append_ne (decide_eq_false ?_)
    rw [howner]
    exact hne.symm
  · have hsame : q = r := eq_of_result hl.ids hr hq hqid
    subst hsame
    have hfile : ((db.updateResult q.id f).addAttempt a n).file
        { f q with currentAttemptId := some a.id } = { db.file q with
          row := { f q with currentAttemptId := some a.id }
          attempts := (db.file q).attempts ++ [a] } := by
      have hattempts : (db.attempts ++ [a]).filter (fun b => b.gradingResultId = q.id) =
          (db.file q).attempts ++ [a] :=
        filter_append_eq (decide_eq_true howner)
      rw [← hattempts, Db.file]
      show PaperFile.mk _ _ _ _ = PaperFile.mk _ _ _ _
      rw [hid]
      rfl
    rw [hfile]
    exact hmove

theorem Refiled.review {row : ReviewRow} (hl : Linked db) (log : List AuditRow)
    (hr : db.result r.id = some r) (howner : row.gradingResultId = r.id)
    (hid : ∀ r, (f r).id = r.id)
    (hmove : ∀ marked, (marked = true → (db.file r).marked = true ∨ row.kind = .manualScore) →
      FileMove scores (db.file r) { db.file r with row := f r, marked := marked }) :
    Refiled scores db
      (Db.updateResult { db with reviews := db.reviews ++ [row], auditLog := log } r.id f) := by
  refine .update rfl (fun q _ hne => ?_) fun q hq hqid => ?_
  · refine file_congr rfl rfl (hasManualScore_append ?_)
    rw [howner]
    exact hne.symm
  · have hsame : q = r := eq_of_result hl.ids hr hq hqid
    subst hsame
    set db' := Db.updateResult { db with reviews := db.reviews ++ [row], auditLog := log } q.id f
      with hdb'
    have hfile : db'.file (f q) =
        { db.file q with row := f q, marked := db'.hasManualScore q.id } := by
      rw [Db.file, hid]
      rfl
    rw [hfile]
    refine hmove _ fun hm => ?_
    have hany : (db.reviews ++ [row]).any
        (fun t => decide (t.gradingResultId = q.id ∧ t.kind = .manualScore)) = true := hm
    rw [List.any_append, Bool.or_eq_true] at hany
    refine hany.imp_right fun hrow => ?_
    rw [List.any_cons, List.any_nil, Bool.or_false] at hrow
    exact (of_decide_eq_true hrow).2

theorem AttemptRow.close_fails (u : Ungradable) (stored : Option (StoredInvestigation K)) :
    AttemptRow.Fails (AttemptRow.close .ungradable (some u) stored) := by
  refine ⟨close_id _ _ _, close_gradingResultId _ _ _, fun a => ?_, fun a h => ?_⟩
  · rw [AttemptRow.close]
    split_ifs <;> rfl
  · rw [AttemptRow.close, if_pos h]

theorem AttemptRow.exhausted_fails (u : Ungradable) :
    AttemptRow.Fails (K := K) (AttemptRow.exhausted u) :=
  ⟨fun _ => rfl, fun _ => rfl, fun _ => rfl, fun _ _ => rfl⟩

theorem Write.refiled [Number K] (hl : Linked db) (hids : (db.attempts.map AttemptRow.id).Nodup)
    (h : Write env db db') : Refiled (db.Scores env) db db' := by
  cases h with
  | edit h =>
    exact .around h.results fun r _ => file_congr h.attempts h.computations (h.manual r.id)
  | @enlist rows n ids submissions new =>
    refine ⟨id, rows, ?_, fun r _ => .stay _, fun r hr => ⟨new r hr, ?_⟩⟩
    · rw [List.map_id]
    · have hnot : ¬ db.HasResult r.id := by
        intro hmem
        rw [List.map_append] at ids
        exact (List.disjoint_of_nodup_append ids) hmem (List.mem_map_of_mem hr)
      have hattempts : db.attempts.filter (fun a => a.gradingResultId = r.id) = [] := by
        rw [List.filter_eq_nil_iff]
        intro a ha howner
        exact hnot (of_decide_eq_true howner ▸ hl.attempts a ha)
      have hcomputations : db.computations.filter (fun c => c.gradingResultId = r.id) = [] := by
        rw [List.filter_eq_nil_iff]
        intro c hc howner
        exact hnot (of_decide_eq_true howner ▸ hl.computations c hc)
      have hmarked : db.hasManualScore r.id = false :=
        Bool.eq_false_iff.2 fun hm => hnot (hl.manual r.id hm)
      show PaperFile.mk r _ _ _ = _
      rw [hattempts, hcomputations]
      exact congrArg (PaperFile.mk r [] []) hmarked
  | @rejudge r stored out c reason n result graded score computation later =>
    exact .computation hl n result computation.owner (fun r => (ResultRow.ruleLayer_keeps _ r).1)
      (.rejudged (file_isGraded hl result graded) ⟨r, score⟩ computation later)
  | @recheck r stored out c reason n result editable graded score computation later =>
    exact .computation hl n result computation.owner (fun r => (ResultRow.reviewed_sameHead r).id)
      (.rechecked (file_isGraded hl result graded) ⟨r, score⟩ computation later editable)
  | @manual r row log result allowed owner =>
    refine .review hl log result owner (fun r => (ResultRow.reviewed_sameHead r).id) fun _ _ =>
      .moved r.reviewed_rowMove fun _ => .inr ?_
    by_cases hmem : r.status ∈ [ResultStatus.autoApproved, .flaggedForReview]
    · rw [ResultRow.reviewed, ResultRow.advance_of_mem hmem]
      show ResultStatus.teacherReviewed ∈ decidedStatuses
      decide
    · rw [ResultRow.reviewed, ResultRow.advance_of_not_mem hmem]
      revert allowed hmem
      cases r.status <;> decide
  | accept resultId =>
    exact .rows (fun r => ResultRow.advance_keeps (fun _ => rfl) r) fun r _ _ =>
      .moved (.advance r (by decide) rfl fun _ => rfl) .inl
  | @publish resultId source finalizable computationId =>
    refine .rows (fun r => ResultRow.advance_keeps (fun _ => rfl) r) fun r _ _ =>
      .moved (.advance r (fun s hs => ?_) rfl fun _ => rfl) .inl
    rw [List.mem_singleton.1 hs]
    revert finalizable
    cases source <;> decide
  | @openAttempt r a n result status idle fresh row =>
    have howner : a.gradingResultId = r.id := by rw [row]
    have hrow : a.outcome = none := by rw [row]
    have hnext := file_isNext hids status idle fresh howner (by rw [row])
    have hself : db.updateResult r.id id = db := updateResult_eq_self fun _ _ _ => rfl
    have hsame : db.addAttempt a n = (db.updateResult r.id id).addAttempt a n := by rw [hself]
    rw [hsame]
    exact .newAttempt hl n result howner (fun _ => rfl) (.opened hnext hrow)
  | @firstScore r a stored out c score n confidence modelUsed running pipeline computes scored
      computation =>
    have hmem := (running.file hl).attempt
    have howner := close_gradingResultId (K := K) .graded none (some stored)
    refine .update rfl (fun q _ hne => ?_) fun q hq hqid => ?_
    · show PaperFile.mk q _ _ _ = PaperFile.mk q _ _ _
      congr 1
      · exact file_updateAttempt_ne hids howner hmem hne
      · refine filter_append_ne (decide_eq_false ?_)
        rw [computation.owner]
        exact hne.symm
    · have hsame : q = r := eq_of_result hl.ids running.result hq hqid
      subst hsame
      have hmove := @FileMove.scored _ (db.Scores env) (db.file q) _ _ _ _ _
        (db.drawnForAudit env q.id) confidence modelUsed (running.file hl) pipeline
        ⟨q, computes⟩ scored computation
      have hcomputations : (db.computations ++ [c]).filter (fun c => c.gradingResultId = q.id) =
          (db.file q).computations ++ [c] :=
        filter_append_eq (decide_eq_true computation.owner)
      rw [← file_updateAttempt howner, ← hcomputations] at hmove
      exact hmove
  | fail u stored running pipeline =>
    exact .failed hl hids running (AttemptRow.close_fails u stored) u
  | exhaust u running => exact .failed hl hids running (AttemptRow.exhausted_fails u) u
  | @exhaustIdle r a u n result status idle fresh row =>
    have howner : a.gradingResultId = r.id := by rw [row]
    have hrow : a.outcome = some .ungradable := by rw [row]
    have hnext := file_isNext hids status idle fresh howner (by rw [row])
    exact .newAttempt hl n result howner (fun _ => rfl) (.exhausted u hnext hrow)
  | @requeue r result requeuable =>
    refine .rows (fun _ => rfl) fun q hq hqid => ?_
    rw [← eq_of_result hl.ids result hq hqid] at requeuable
    exact .requeued requeuable

theorem FileMove.oneShotStep {f : PaperFile K} (source target : ResultStatus)
    {extra : ResultRow → ResultRow} (hpipeline : f.row.pipeline = .oneShot)
    (hextra : ∀ r, (extra r).id = r.id ∧ (extra r).pipeline = r.pipeline ∧
      (extra r).status = r.status)
    (hsource : source ∈ [ResultStatus.aiGrading, .aiGraded] := by decide)
    (htarget : target ∉ sampleStatuses := by decide) :
    FileMove scores f { f with row := f.row.advance [source] target extra } := by
  by_cases hmem : f.row.status ∈ [source]
  · rw [ResultRow.advance_of_mem hmem]
    obtain ⟨hid, hsame, hstatus⟩ := hextra { f.row with status := target }
    refine .oneShot hpipeline ⟨hid, hsame⟩ (List.mem_singleton.1 hmem ▸ hsource) ?_
    rw [hstatus]
    exact htarget
  · rw [ResultRow.advance_of_not_mem hmem]
    exact .stay f

theorem Change.refiled [Number K] (hl : Linked db) (hids : (db.attempts.map AttemptRow.id).Nodup)
    (h : Change env db db') : Refiled (db.Scores env) db db' := by
  cases h with
  | write h => exact h.refiled hl hids
  | oneShotScore resultId score confidence modelUsed =>
    refine .rows (fun r => (ResultRow.oneShotScored_sameHead _ _ _ r).id) fun r _ _ => ?_
    rw [ResultRow.oneShotScored]
    split_ifs with hpipeline
    · exact .oneShotStep .aiGrading .aiGraded hpipeline fun _ => ⟨rfl, rfl, rfl⟩
    · exact .stay _
  | oneShotFlag resultId confident =>
    refine .rows (fun r => (ResultRow.oneShotFlagged_sameHead _ r).id) fun r _ _ => ?_
    rw [ResultRow.oneShotFlagged]
    split_ifs with hpipeline
    · exact .oneShotStep .aiGraded .flaggedForReview hpipeline fun _ => ⟨rfl, rfl, rfl⟩
    · exact .stay _
  | @reviewed r row log result reviewable owner kind =>
    exact .review hl log result owner (fun r => ResultRow.advance_keeps (fun _ => rfl) r)
      fun _ hmarked => .moved (.advance r (by decide) rfl fun _ => rfl) fun hm =>
        .inl ((hmarked hm).resolve_right kind)
  | audited resultId =>
    exact .rows (fun r => (ResultRow.audited_sameHead r).id) fun r _ _ =>
      .moved (.advance r (by decide) rfl fun _ => rfl) .inl
  | breakers keys noError => exact .around rfl fun _ _ => rfl

theorem toppedUp_refiled (scores : StoredInvestigation K → ScoreCoreOutput K → Prop) (db : Db K)
    (env : GradingEnv K) (sessionId : String) :
    Refiled scores db (db.toppedUp env sessionId) := by
  refine ⟨fun r => if db.isDue env sessionId r then r.drawn else r, [], (List.append_nil _).symm,
    fun r _ => ?_, fun _ h => absurd h List.not_mem_nil⟩
  dsimp only
  split_ifs
  · have hfile : (db.toppedUp env sessionId).file r.drawn = { db.file r with row := r.drawn } :=
      file_row (ResultRow.drawn_sameHead r).id
    rw [hfile]
    exact .moved (.advance r (by decide) rfl fun _ => rfl) .inl
  · exact .stay _

/-! ## The ids of the attempts -/

theorem nodup_addAttempt (hids : (db.attempts.map AttemptRow.id).Nodup)
    (hfresh : a.id ∉ db.attempts.map AttemptRow.id) :
    ((db.attempts ++ [a]).map AttemptRow.id).Nodup := by
  rw [List.map_append, List.map_singleton]
  refine List.Nodup.append hids (List.nodup_singleton _) fun id hid hmem => hfresh ?_
  rwa [← List.mem_singleton.1 hmem]

theorem nodup_updateAttempt {g : AttemptRow K → AttemptRow K} (hg : ∀ a, (g a).id = a.id)
    (hids : (db.attempts.map AttemptRow.id).Nodup) (id : String) :
    ((updateRow AttemptRow.id db.attempts id g).map AttemptRow.id).Nodup := by
  rw [map_updateRow hg]
  exact hids

theorem Change.attemptIds [Number K] (h : Change env db db')
    (hids : (db.attempts.map AttemptRow.id).Nodup) : (db'.attempts.map AttemptRow.id).Nodup := by
  cases h with
  | write h =>
    cases h with
    | edit h =>
      rw [h.attempts]
      exact hids
    | enlist => exact hids
    | rejudge => exact hids
    | recheck => exact hids
    | manual => exact hids
    | accept => exact hids
    | publish => exact hids
    | openAttempt n result status idle fresh row => exact nodup_addAttempt hids fresh
    | firstScore => exact nodup_updateAttempt (close_id _ _ _) hids _
    | fail => exact nodup_updateAttempt (close_id _ _ _) hids _
    | exhaust u running => exact nodup_updateAttempt (AttemptRow.exhausted_id u) hids _
    | exhaustIdle u n result status idle fresh row => exact nodup_addAttempt hids fresh
    | requeue => exact hids
  | oneShotScore => exact hids
  | oneShotFlag => exact hids
  | reviewed => exact hids
  | audited => exact hids
  | breakers => exact hids

/-! ## Filed tables -/

/-- Linked tables in which every file is sound. -/
structure Filed (scores : StoredInvestigation K → ScoreCoreOutput K → Prop) (db : Db K) :
    Prop where
  linked : Linked db
  attemptIds : (db.attempts.map AttemptRow.id).Nodup
  files : ∀ r ∈ db.results, (db.file r).Sound scores

section Filed

variable {scores : StoredInvestigation K → ScoreCoreOutput K → Prop}

theorem sound_new {r : ResultRow} (h : r.IsNew) :
    PaperFile.Sound scores (⟨r, [], [], false⟩ : PaperFile K) := by
  refine ⟨List.nodup_nil, rfl, fun _ _ h => absurd h List.not_mem_nil,
    fun _ h => absurd h List.not_mem_nil, fun _ => ⟨rfl, fun _ => h.score⟩, fun h => ?_⟩
  cases h

theorem Refiled.sound (h : Refiled scores db db')
    (hsound : ∀ r ∈ db.results, (db.file r).Sound scores) :
    ∀ r ∈ db'.results, (db'.file r).Sound scores := by
  obtain ⟨g, rows, hrows, hmove, hnew⟩ := h
  intro r hr
  rw [hrows] at hr
  rcases List.mem_append.1 hr with hr | hr
  · obtain ⟨r₀, hr₀, rfl⟩ := List.mem_map.1 hr
    exact (hmove r₀ hr₀).sound (hsound r₀ hr₀)
  · obtain ⟨hnew, hfile⟩ := hnew r hr
    rw [hfile]
    exact sound_new hnew

theorem Change.filed [Number K] (h : Change env db db')
    (himp : ∀ stored out, db.Scores env stored out → scores stored out) (hf : Filed scores db) :
    Filed scores db' :=
  ⟨h.linked hf.linked, h.attemptIds hf.attemptIds,
    ((h.refiled hf.linked hf.attemptIds).mono himp).sound hf.files⟩

theorem Filed.toppedUp [Number K] (hf : Filed scores db) (env : GradingEnv K) (sessionId : String) :
    Filed scores (db.toppedUp env sessionId) :=
  ⟨hf.linked.toppedUp env sessionId, hf.attemptIds, (toppedUp_refiled _ _ _ _).sound hf.files⟩

end Filed

end Changes

end Cine.Grading
