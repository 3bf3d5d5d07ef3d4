import Cine.Grading.Scoring.Recompute

/-!
# What a recomputation computes

`Db.recomputed` is the outcome of `recomputeOne`, without what it writes.  A
recomputation of a scope adds computations and moves the status of papers, and
neither is read by another recomputation: `recomputeForTeacher_recomputed`.
-/

namespace Cine.Grading

open Cine.Lib

variable {K : Type} [Number K]

/-- What `recomputeOne` computes for a paper. -/
def Db.recomputed (db : Db K) (env : GradingEnv K) (resultId : String) :
    Except Failure (ScoreCoreOutput K) := do
  let ctx ← db.loadScoreContext resultId none
  db.compute env ctx id

/-- The rubric that a paper is judged by. -/
def Db.rubricNameOf {K : Type} (db : Db K) (resultId : String) : Option String :=
  (db.loadScoreContext resultId none).toOption.map ScoreContext.rubricName

variable {env : GradingEnv K} {db db' : Db K}

omit [Number K] in
theorem Quiet.result (h : Quiet db db') (hids : (db.results.map ResultRow.id).Nodup)
    (id : String) : Option.Rel QuietMove (db.result id) (db'.result id) := by
  cases hr' : db'.result id with
  | none =>
    cases hr : db.result id with
    | none => exact .none
    | some r =>
      have hmem : id ∈ db'.results.map ResultRow.id := by
        rw [h.ids, ← rowOf_key hr]
        exact List.mem_map_of_mem (mem_of_rowOf hr)
      obtain ⟨r', hmem, hid⟩ := List.mem_map.1 hmem
      exact absurd hid (rowOf_eq_none.1 hr' r' hmem)
  | some r' =>
    obtain ⟨r, hr, hmove⟩ := h.moves r' (mem_of_rowOf hr')
    have hid : r.id = id := hmove.id_eq.symm.trans (rowOf_key hr')
    rw [← hid, result_of_mem hids hr]
    exact .some hmove

theorem Quiet.compute (h : Quiet db db') (ctx : ScoreContext K)
    (transform : List RuleSnapshot → List RuleSnapshot) :
    db'.compute env ctx transform = db.compute env ctx transform := by
  rw [h.tables]
  rfl

theorem Quiet.recomputed (h : Quiet db db') (hids : (db.results.map ResultRow.id).Nodup)
    (id : String) : db'.recomputed env id = db.recomputed env id := by
  have hresult := h.result hids id
  unfold Db.recomputed Db.loadScoreContext
  simp only [h.compute]
  generalize db.result id = o at hresult ⊢
  generalize db'.result id = o' at hresult ⊢
  cases hresult with
  | none => rfl
  | @some r r' hmove =>
    have hsession : db'.sessionOf r' = db.sessionOf r := by
      rw [h.tables, hmove.row]
      rfl
    have hrubric : db'.rubric r'.rubricIdVersion = db.rubric r.rubricIdVersion := by
      rw [h.tables, hmove.row]
      rfl
    have hcontext : ∀ session rubric, db'.contextOf r' session rubric none =
        { db.contextOf r session rubric none with status := r'.status } := by
      intro session rubric
      rw [h.tables, hmove.row]
      rfl
    dsimp only
    rw [hsession, hrubric]
    cases db.sessionOf r with
    | none => rfl
    | some session =>
      cases db.rubric r.rubricIdVersion with
      | none => rfl
      | some rubric =>
        show db.compute env (db'.contextOf r' session rubric none) _ =
          db.compute env (db.contextOf r session rubric none) _
        rw [hcontext]
        rfl

theorem recomputeForTeacher_recomputed (hids : (db.results.map ResultRow.id).Nodup)
    (reason : ComputationReason) (scope : RecomputeScope) :
    Ensures (recomputeForTeacher env reason scope) db fun _ db' =>
      db'.rules = db.rules ∧ ∀ id, db'.recomputed env id = db.recomputed env id := by
  rw [recomputeForTeacher]
  refine ensures_bind (ensures_get ?_)
  refine (ensures_forM (I := fun _ db' => (db'.results.map ResultRow.id).Nodup ∧
    db'.rules = db.rules ∧ ∀ id, db'.recomputed env id = db.recomputed env id)
    (fun id rest db₁ h₁ => ?_) _ ⟨hids, rfl, fun _ => rfl⟩).mono fun _ db' h' => h'.2
  obtain ⟨hids₁, hrules₁, hsame₁⟩ := h₁
  refine (recomputeOne_spec id reason).bind fun out db₂ h₂ => ?_
  obtain ⟨_, c, hstep⟩ := h₂
  have htables := hstep.tables
  have hids₂ : (db₂.results.map ResultRow.id).Nodup := by
    rw [htables]
    exact hids₁
  refine (ruleLayerTransition_quiet hids₂ out).mono fun _ db₃ hquiet => ?_
  refine ⟨hquiet.ids ▸ hids₂, ?_, fun id => ?_⟩
  · rw [hquiet.tables, htables]
    exact hrules₁
  · rw [hquiet.recomputed hids₂ id, ← hsame₁ id, htables]
    rfl

end Cine.Grading
