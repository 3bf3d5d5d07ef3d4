import Cine.Grading.Sampling.TopUp

/-!
# Publishing a session

`finalizeGrades` with its stamp: who published a paper and when, and the
price table that the session pins.  `FinalizeGrades.lean` has the same
transaction on the tables alone; `publishGrades_tables` says that it is the
same.

A transaction that is not refused never fails on the way: `publishAll_eq`
says that it publishes one paper after the other, each as it was read, and
`paper_foldl_mem` what becomes of each of them.
-/

namespace Cine.Grading

open Cine.Lib

variable {K : Type}

/-! ## The transaction -/

/-- `finalized_by` and `finalized_at`. -/
structure FinalizeStamp where
  finalizedBy : String
  finalizedAt : Int
deriving DecidableEq, Repr

/-- The tables, with the columns that only the publication writes: the stamp
of a result and `pinned_price_version_id` of a session. -/
structure PublishDb (K : Type) where
  db : Db K
  stamps : String → Option FinalizeStamp
  pinned : String → Option String

abbrev PublishTx (K : Type) (α : Type) := Tx (PublishDb K) Failure α

/-- A step on the tables alone. -/
def onTables {α : Type} (m : DbTx K α) : PublishTx K α := fun s =>
  match m s.db with
  | .ok (a, db) => .ok (a, { s with db := db })
  | .error e => .error e

/-- A step to `finalized`, which carries the stamp in the same `UPDATE`. -/
def advancePublished (stamp : FinalizeStamp) (resultId : String) (source : List ResultStatus)
    (extra : ResultRow → ResultRow) : PublishTx K Unit := do
  onTables (advanceOrConflict resultId source .finalized extra)
  modify fun s => { s with stamps := Function.update s.stamps resultId (some stamp) }

/-- The publication of one paper, as it was read. -/
def publishOne (stamp : FinalizeStamp) (r : ResultRow) (computationId : Option String) :
    PublishTx K FinalizeGradesOutcome := do
  match r.pipeline with
  | .investigator =>
    if r.status ∉ finalizableStatuses then return ⟨0, 0, 0⟩
    advancePublished stamp r.id [r.status] fun r =>
      { r with finalizedComputationId := computationId }
    return if r.status = .autoApproved then ⟨0, 0, 1⟩ else ⟨1, 0, 0⟩
  | .oneShot =>
    if r.status = .autoApproved then
      onTables (writeReview ⟨r.id, .bulkAccept, some (r.aiTotalScore.getD 0), none, none⟩)
      onTables (advanceOrConflict r.id [.autoApproved] .teacherReviewed id)
      advancePublished stamp r.id [.teacherReviewed] id
      return ⟨0, 1, 0⟩
    else if r.status = .teacherReviewed then
      advancePublished stamp r.id [.teacherReviewed] id
      return ⟨1, 0, 0⟩
    else return ⟨0, 0, 0⟩

/-- The loop over the papers. -/
def publishAll (stamp : FinalizeStamp) :
    List (ResultRow × Option String) → PublishTx K FinalizeGradesOutcome
  | [] => return ⟨0, 0, 0⟩
  | p :: rest => do
    let one ← publishOne stamp p.1 p.2
    let others ← publishAll stamp rest
    return one.add others

/-- How many papers a publication has published. -/
def FinalizeGradesOutcome.total (o : FinalizeGradesOutcome) : Nat :=
  o.reviewedByHand + o.acceptedAsProposed + o.finalizedDirectly

/-- The papers of a session, by their ids. -/
def Db.papersOf (db : Db K) (sessionId : String) : List ResultRow :=
  sortByKey ResultRow.id ((db.resultsOfSession sessionId).map Prod.fst)

/-- What stands in the way of a publication. -/
def Db.publishObstacle (db : Db K) (sessionId : String) : Option Failure :=
  let all := db.papersOf sessionId
  let blocking := (all.filter fun r => r.status ∈ blocksFinalize).length
  let withoutScore := (all.filter db.lacksScore).length
  if all = [] then
    some (.badRequest "Phiên thi này chưa chấm bài nào — chưa có điểm để chốt.")
  else if 0 < blocking then
    some (.conflict
      s!"Còn {blocking} bài chưa duyệt xong — hãy duyệt hết trước khi chốt điểm.")
  else if 0 < withoutScore then
    some (.conflict
      (s!"{withoutScore} bài không còn điểm theo bảng lỗi hiện hành (dưới sàn) " ++
        "— hãy chấm tay trước khi chốt điểm."))
  else none

/-- The session keeps the price table in use, where the call has published
something. -/
def pinPrices (sessionId : String) (outcome : FinalizeGradesOutcome) : PublishTx K Unit :=
  modify fun s =>
    if (s.db.session sessionId).isSome ∧ 0 < outcome.total then
      { s with
        pinned := Function.update s.pinned sessionId
          (s.db.currentPriceVersion.map PriceVersionRow.id) }
    else s

/-- `finalizeGrades`, by a teacher at a time. -/
def publishGrades (sessionId teacherId : String) (now : Int) :
    PublishTx K FinalizeGradesOutcome := do
  let s : PublishDb K ← get
  match s.db.publishObstacle sessionId with
  | some failure => throw failure
  | none =>
    let outcome ← publishAll ⟨teacherId, now⟩
      ((s.db.papersOf sessionId).map fun r => (r, s.db.publishedComputation r.id))
    pinPrices sessionId outcome
    return outcome

/-! ## The transaction on the tables -/

/-- The transaction `m` is `n` on the tables. -/
def OnTables {α : Type} (m : PublishTx K α) (n : DbTx K α) : Prop :=
  ∀ s, (m s).map (fun p => (p.1, p.2.db)) = n s.db

section OnTables

variable {α β : Type}

theorem OnTables.pure (a : α) : OnTables (pure a : PublishTx K α) (pure a) := fun _ => rfl

theorem OnTables.throw (e : Failure) : OnTables (throw e : PublishTx K α) (throw e) := fun _ => rfl

theorem OnTables.bind {m : PublishTx K α} {n : DbTx K α} {f : α → PublishTx K β}
    {g : α → DbTx K β} (hm : OnTables m n) (hf : ∀ a, OnTables (f a) (g a)) :
    OnTables (m >>= f) (n >>= g) := by
  intro s
  have hn := hm s
  cases hrun : m s with
  | error e =>
    rw [hrun] at hn
    rw [run_bind_error hrun, run_bind_error hn.symm]
    rfl
  | ok p =>
    rw [hrun] at hn
    rw [run_bind_ok hrun, run_bind_ok hn.symm]
    exact hf p.1 p.2

theorem OnTables.ite {c : Prop} [Decidable c] {m₁ m₂ : PublishTx K α} {n₁ n₂ : DbTx K α}
    (h₁ : OnTables m₁ n₁) (h₂ : OnTables m₂ n₂) :
    OnTables (if c then m₁ else m₂) (if c then n₁ else n₂) := by
  split_ifs
  · exact h₁
  · exact h₂

theorem onTables_onTables (n : DbTx K α) : OnTables (onTables n) n := by
  intro s
  rw [onTables]
  cases n s.db with
  | error e => rfl
  | ok p => rfl

theorem advancePublished_onTables (stamp : FinalizeStamp) (resultId : String)
    (source : List ResultStatus) (extra : ResultRow → ResultRow) :
    OnTables (advancePublished (K := K) stamp resultId source extra)
      (advanceOrConflict resultId source .finalized extra) := by
  intro s
  have hstep := onTables_onTables (advanceOrConflict (K := K) resultId source .finalized extra) s
  rw [advancePublished]
  cases hrun : onTables (advanceOrConflict resultId source .finalized extra) s with
  | error e =>
    rw [hrun] at hstep
    rw [run_bind_error hrun]
    exact hstep
  | ok p =>
    rw [hrun] at hstep
    rw [run_bind_ok hrun]
    exact hstep

theorem publishOne_onTables (stamp : FinalizeStamp) (r : ResultRow) (c : Option String) :
    OnTables (publishOne (K := K) stamp r c) (finalizeOne r c) := by
  rw [publishOne, finalizeOne]
  cases r.pipeline with
  | investigator =>
    refine .ite (.pure _) ?_
    exact (advancePublished_onTables _ _ _ _).bind fun _ => .pure _
  | oneShot =>
    refine .ite ?_ (.ite ?_ (.pure _))
    · refine (onTables_onTables _).bind fun _ => (onTables_onTables _).bind fun _ => ?_
      exact (advancePublished_onTables _ _ _ _).bind fun _ => .pure _
    · exact (advancePublished_onTables _ _ _ _).bind fun _ => .pure _

theorem publishAll_onTables (stamp : FinalizeStamp) (papers : List (ResultRow × Option String)) :
    OnTables (publishAll (K := K) stamp papers) (finalizeAll papers) := by
  induction papers with
  | nil => exact .pure _
  | cons p rest ih =>
    rw [publishAll, finalizeAll]
    exact (publishOne_onTables stamp p.1 p.2).bind fun _ => ih.bind fun _ => .pure _

theorem pinPrices_run (sessionId : String) (outcome : FinalizeGradesOutcome) (s : PublishDb K) :
    pinPrices sessionId outcome s = .ok ((), { s with
      pinned := if (s.db.session sessionId).isSome ∧ 0 < outcome.total then
        Function.update s.pinned sessionId (s.db.currentPriceVersion.map PriceVersionRow.id)
      else s.pinned }) := by
  by_cases h : (s.db.session sessionId).isSome ∧ 0 < outcome.total
  · show Except.ok ((), if _ then _ else _) = _
    rw [if_pos h, if_pos h]
  · show Except.ok ((), if _ then _ else _) = _
    rw [if_neg h, if_neg h]

theorem finalizeGrades_run (sessionId : String) (db : Db K) :
    finalizeGrades sessionId db =
      match db.publishObstacle sessionId with
      | some failure => .error failure
      | none => finalizeAll
          ((db.papersOf sessionId).map fun r => (r, db.publishedComputation r.id)) db := by
  have hrun : finalizeGrades sessionId db = (if _ then _ else _ : DbTx K _) db := rfl
  rw [hrun, Db.publishObstacle, Db.papersOf]
  dsimp only
  generalize sortByKey ResultRow.id ((db.resultsOfSession sessionId).map Prod.fst) = all
  by_cases hall : all = []
  · rw [if_pos hall, if_pos hall]
    rfl
  rw [if_neg hall, if_neg hall]
  by_cases hblocking : 0 < (all.filter fun r => r.status ∈ blocksFinalize).length
  · rw [if_pos hblocking, if_pos hblocking]
    rfl
  rw [if_neg hblocking, if_neg hblocking]
  by_cases hscore : 0 < (all.filter db.lacksScore).length
  · rw [if_pos hscore, if_pos hscore]
    rfl
  rw [if_neg hscore, if_neg hscore]

theorem publishGrades_run (sessionId teacherId : String) (now : Int) (s : PublishDb K) :
    publishGrades sessionId teacherId now s =
      match s.db.publishObstacle sessionId with
      | some failure => .error failure
      | none => (do
          let outcome ← publishAll ⟨teacherId, now⟩
            ((s.db.papersOf sessionId).map fun r => (r, s.db.publishedComputation r.id))
          pinPrices sessionId outcome
          return outcome : PublishTx K FinalizeGradesOutcome) s := by
  have hrun : publishGrades sessionId teacherId now s =
      (match s.db.publishObstacle sessionId with | some _ => _ | none => _ : PublishTx K _) s := rfl
  rw [hrun]
  cases s.db.publishObstacle sessionId with
  | some failure => rfl
  | none => rfl

theorem publishGrades_tables (sessionId teacherId : String) (now : Int) :
    OnTables (publishGrades (K := K) sessionId teacherId now) (finalizeGrades sessionId) := by
  intro s
  rw [finalizeGrades_run, publishGrades_run]
  cases s.db.publishObstacle sessionId with
  | some failure => rfl
  | none =>
    have hall := publishAll_onTables (K := K) ⟨teacherId, now⟩
      ((s.db.papersOf sessionId).map fun r => (r, s.db.publishedComputation r.id)) s
    dsimp only
    rw [← hall]
    rcases hrun : publishAll (K := K) ⟨teacherId, now⟩
      ((s.db.papersOf sessionId).map fun r => (r, s.db.publishedComputation r.id)) s with e | ⟨o, s'⟩
    · rw [run_bind_error hrun]
    · rw [run_bind_ok hrun, run_bind_ok (pinPrices_run sessionId o s')]
      rfl

end OnTables

/-! ## One paper -/

/-- The row of a paper after its publication, as the paper was read. -/
def publishRow (p : ResultRow × Option String) (r : ResultRow) : ResultRow :=
  match p.1.pipeline with
  | .investigator => { r with status := .finalized, finalizedComputationId := p.2 }
  | .oneShot => { r with status := .finalized }

/-- The review that accepts the score of the AI as it is. -/
def ResultRow.acceptance (r : ResultRow) : List ReviewRow :=
  if r.pipeline = .oneShot ∧ r.status = .autoApproved then
    [⟨r.id, .bulkAccept, some (r.aiTotalScore.getD 0), none, none⟩]
  else []

/-- What the publication of one paper leaves behind. -/
def PublishDb.publish (stamp : FinalizeStamp) (s : PublishDb K)
    (p : ResultRow × Option String) : PublishDb K :=
  if p.1.status ∈ finalizableStatuses then
    { s with
      db := { s.db with reviews := s.db.reviews ++ p.1.acceptance }.updateResult p.1.id
        (publishRow p)
      stamps := Function.update s.stamps p.1.id (some stamp) }
  else s

/-- What the publication of one paper is counted as. -/
def ResultRow.publishOutcome (r : ResultRow) : FinalizeGradesOutcome :=
  if r.status ∉ finalizableStatuses then ⟨0, 0, 0⟩
  else if r.status = .teacherReviewed then ⟨1, 0, 0⟩
  else if r.pipeline = .oneShot then ⟨0, 1, 0⟩
  else ⟨0, 0, 1⟩

section OnePaper

variable {db : Db K} {s : PublishDb K} {stamp : FinalizeStamp} {r : ResultRow}

theorem advanceOrConflict_eq {id : String} {source : List ResultStatus} {target : ResultStatus}
    {extra : ResultRow → ResultRow} (hr : db.result id = some r) (hsource : r.status ∈ source) :
    advanceOrConflict id source target extra db =
      .ok ((), db.updateResult id fun r => extra { r with status := target }) := by
  have hmoved : advanceStatus id source target extra db =
      .ok (true, db.updateResult id fun r => extra { r with status := target }) := by
    have hcheck : (db.result id).any (fun r => r.status ∈ source) = true := by
      rw [hr, Option.any_some, decide_eq_true hsource]
    have hrun : advanceStatus id source target extra db = (if _ then _ else _ : DbTx K Bool) db := rfl
    rw [hrun, if_pos hcheck]
    rfl
  rw [advanceOrConflict, run_bind_ok hmoved]
  rfl

theorem onTables_ok {α : Type} {n : DbTx K α} {a : α} {db : Db K} (h : n s.db = .ok (a, db)) :
    onTables n s = .ok (a, { s with db := db }) := by
  rw [onTables, h]

theorem advancePublished_eq {id : String} (stamp : FinalizeStamp) (source : List ResultStatus)
    (extra : ResultRow → ResultRow) (hr : s.db.result id = some r) (hsource : r.status ∈ source) :
    advancePublished stamp id source extra s = .ok ((), { s with
      db := s.db.updateResult id fun r => extra { r with status := .finalized }
      stamps := Function.update s.stamps id (some stamp) }) := by
  have hmoved : onTables (advanceOrConflict id source .finalized extra) s = .ok ((), { s with
      db := s.db.updateResult id fun r => extra { r with status := .finalized } }) :=
    onTables_ok (advanceOrConflict_eq hr hsource)
  rw [advancePublished, run_bind_ok hmoved]
  rfl

theorem finalizable_cases {status : ResultStatus} (h : status ∈ finalizableStatuses) :
    status = .autoApproved ∨ status = .teacherReviewed := by
  rcases List.mem_cons.1 h with h | h
  · exact Or.inl h
  · exact Or.inr (List.mem_singleton.1 h)

variable {c : Option String}

theorem publishRow_investigator (hp : r.pipeline = .investigator) :
    publishRow (r, c) = fun r => { r with status := .finalized, finalizedComputationId := c } := by
  funext r'
  unfold publishRow
  rw [hp]

theorem publishRow_oneShot (hp : r.pipeline = .oneShot) :
    publishRow (r, c) = fun r => { r with status := .finalized } := by
  funext r'
  unfold publishRow
  rw [hp]

theorem publishOne_investigator (hr : s.db.result r.id = some r) (hp : r.pipeline = .investigator) :
    publishOne stamp r c s = .ok (r.publishOutcome, s.publish stamp (r, c)) := by
  have hreview : r.acceptance = [] := by
    rw [ResultRow.acceptance, hp, if_neg fun h => nomatch h.1]
  rw [publishOne, hp, ResultRow.publishOutcome, PublishDb.publish, hp]
  dsimp only
  by_cases hstatus : r.status ∈ finalizableStatuses
  · rw [if_neg (not_not.2 hstatus), if_neg (not_not.2 hstatus), if_pos hstatus,
      run_bind_ok (advancePublished_eq stamp [r.status] _ hr List.mem_cons_self),
      publishRow_investigator hp, hreview,
      List.append_nil]
    rcases finalizable_cases hstatus with h | h <;> rw [h] <;> rfl
  · rw [if_pos hstatus, if_pos hstatus, if_neg hstatus]
    rfl

theorem publishOne_oneShot (hr : s.db.result r.id = some r) (hp : r.pipeline = .oneShot) :
    publishOne stamp r c s = .ok (r.publishOutcome, s.publish stamp (r, c)) := by
  rw [publishOne, hp, ResultRow.publishOutcome, PublishDb.publish, hp]
  dsimp only
  by_cases hstatus : r.status ∈ finalizableStatuses
  · rw [if_neg (not_not.2 hstatus), if_pos hstatus, publishRow_oneShot hp]
    rcases finalizable_cases hstatus with h | h
    · have hreview : r.acceptance =
          [⟨r.id, .bulkAccept, some (r.aiTotalScore.getD 0), none, none⟩] := by
        rw [ResultRow.acceptance, if_pos ⟨hp, h⟩]
      obtain ⟨db₁, hdb₁⟩ : ∃ db₁, db₁ = { s.db with reviews := s.db.reviews ++ r.acceptance } :=
        ⟨_, rfl⟩
      have hr₁ : db₁.result r.id = some r := by
        rw [hdb₁]
        exact hr
      have hwrite : onTables (writeReview
          ⟨r.id, .bulkAccept, some (r.aiTotalScore.getD 0), none, none⟩) s =
            .ok ((), { s with db := db₁ }) := by
        rw [hdb₁, hreview]
        rfl
      have hmoved : onTables (advanceOrConflict r.id [.autoApproved] .teacherReviewed id)
          { s with db := db₁ } = .ok ((), { s with
            db := db₁.updateResult r.id fun r => { r with status := .teacherReviewed } }) :=
        onTables_ok (advanceOrConflict_eq hr₁ (h ▸ List.mem_cons_self))
      have hread : (db₁.updateResult r.id fun r => { r with status := .teacherReviewed }).result
          r.id = some { r with status := .teacherReviewed } :=
        result_updateResult (fun _ => rfl) hr₁
      have hfinal := advancePublished_eq stamp [.teacherReviewed] id (s := { s with
        db := db₁.updateResult r.id fun r => { r with status := .teacherReviewed } })
        hread List.mem_cons_self
      have htwice : (db₁.updateResult r.id fun r => { r with status := .teacherReviewed }).updateResult
          r.id (fun r => { r with status := .finalized }) =
            db₁.updateResult r.id fun r => { r with status := .finalized } :=
        updateResult_updateResult (f := fun r => { r with status := .teacherReviewed }) fun _ => rfl
      rw [if_pos h, run_bind_ok hwrite, run_bind_ok hmoved, run_bind_ok hfinal, h, ← hdb₁, ← htwice]
      rfl
    · have hreview : r.acceptance = [] := by
        rw [ResultRow.acceptance, h, if_neg fun h => nomatch h.2]
      rw [if_neg (h ▸ nofun), if_pos h, if_pos h, hreview, List.append_nil,
        run_bind_ok (advancePublished_eq stamp [.teacherReviewed] id hr (h ▸ List.mem_cons_self))]
      rfl
  · have hauto : r.status ≠ .autoApproved := fun h => hstatus (h ▸ by decide)
    have hreviewed : r.status ≠ .teacherReviewed := fun h => hstatus (h ▸ by decide)
    rw [if_pos hstatus, if_neg hstatus, if_neg hauto, if_neg hreviewed]
    rfl

theorem publishOne_eq (hr : s.db.result r.id = some r) :
    publishOne stamp r c s = .ok (r.publishOutcome, s.publish stamp (r, c)) := by
  cases hp : r.pipeline with
  | investigator => exact publishOne_investigator hr hp
  | oneShot => exact publishOne_oneShot hr hp

end OnePaper

/-! ## Every paper -/

/-- What a publication may change of one paper. -/
structure PaperView where
  row : Option ResultRow
  reviews : List ReviewRow
  stamp : Option FinalizeStamp

def PublishDb.paper (s : PublishDb K) (id : String) : PaperView :=
  ⟨s.db.result id, s.db.reviews.filter fun t => t.gradingResultId = id, s.stamps id⟩

/-- The paper `p` after its publication. -/
def PaperView.publish (stamp : FinalizeStamp) (p : ResultRow × Option String) (v : PaperView) :
    PaperView :=
  if p.1.status ∈ finalizableStatuses then
    ⟨v.row.map (publishRow p), v.reviews ++ p.1.acceptance, some stamp⟩
  else v

/-- What the publication of some papers is counted as. -/
def publishTotal (papers : List (ResultRow × Option String)) : FinalizeGradesOutcome :=
  papers.foldr (fun p o => p.1.publishOutcome.add o) ⟨0, 0, 0⟩

section EveryPaper

variable {s : PublishDb K} {stamp : FinalizeStamp} {p : ResultRow × Option String}
  {papers : List (ResultRow × Option String)} {id : String}

theorem publishRow_id (p : ResultRow × Option String) (r : ResultRow) :
    (publishRow p r).id = r.id := by
  unfold publishRow
  cases p.1.pipeline with
  | investigator => rfl
  | oneShot => rfl

theorem acceptance_of {r : ResultRow} {t : ReviewRow} (h : t ∈ r.acceptance) :
    t.gradingResultId = r.id := by
  rw [ResultRow.acceptance] at h
  split_ifs at h
  · rw [List.mem_singleton.1 h]
  · exact absurd h List.not_mem_nil

theorem paper_publish_self (s : PublishDb K) (stamp : FinalizeStamp)
    (p : ResultRow × Option String) :
    (s.publish stamp p).paper p.1.id = (s.paper p.1.id).publish stamp p := by
  rw [PublishDb.publish, PaperView.publish]
  by_cases h : p.1.status ∈ finalizableStatuses
  · rw [if_pos h, if_pos h]
    have hrow : rowOf ResultRow.id (updateRow ResultRow.id s.db.results p.1.id (publishRow p)) p.1.id =
        (s.db.result p.1.id).map (publishRow p) := by
      rw [rowOf_updateRow (publishRow_id p)]
      cases hr : rowOf ResultRow.id s.db.results p.1.id with
      | none =>
        rw [Db.result, hr]
        rfl
      | some r => rw [Db.result, hr, Option.map_some, Option.map_some, if_pos (rowOf_key hr)]
    have hreviews : (s.db.reviews ++ p.1.acceptance).filter (fun t => t.gradingResultId = p.1.id) =
        s.db.reviews.filter (fun t => t.gradingResultId = p.1.id) ++ p.1.acceptance := by
      rw [List.filter_append]
      congr 1
      exact List.filter_eq_self.2 fun t ht => decide_eq_true (acceptance_of ht)
    show PaperView.mk (rowOf ResultRow.id (updateRow ResultRow.id s.db.results p.1.id
        (publishRow p)) p.1.id) (List.filter _ (s.db.reviews ++ p.1.acceptance))
      (Function.update s.stamps p.1.id (some stamp) p.1.id) = _
    rw [hrow, hreviews, Function.update_self]
    rfl
  · rw [if_neg h, if_neg h]

theorem paper_publish_ne (hid : id ≠ p.1.id) : (s.publish stamp p).paper id = s.paper id := by
  rw [PublishDb.publish]
  by_cases h : p.1.status ∈ finalizableStatuses
  · rw [if_pos h]
    have hrow : rowOf ResultRow.id (updateRow ResultRow.id s.db.results p.1.id (publishRow p)) id =
        rowOf ResultRow.id s.db.results id := rowOf_updateRow_ne (publishRow_id p) hid
    have hreviews : (s.db.reviews ++ p.1.acceptance).filter (fun t => t.gradingResultId = id) =
        s.db.reviews.filter (fun t => t.gradingResultId = id) := by
      have hnone : p.1.acceptance.filter (fun t => t.gradingResultId = id) = [] := by
        refine List.filter_eq_nil_iff.2 fun t ht hother => hid ?_
        rw [← of_decide_eq_true hother, acceptance_of ht]
      rw [List.filter_append, hnone, List.append_nil]
    show PaperView.mk (rowOf ResultRow.id (updateRow ResultRow.id s.db.results p.1.id
        (publishRow p)) id) (List.filter _ (s.db.reviews ++ p.1.acceptance))
      (Function.update s.stamps p.1.id (some stamp) id) = _
    rw [hrow, hreviews, Function.update_of_ne hid]
    rfl
  · rw [if_neg h]

theorem publishAll_eq (stamp : FinalizeStamp) (papers : List (ResultRow × Option String))
    (s : PublishDb K) (hids : (papers.map fun p => p.1.id).Nodup)
    (hread : ∀ p ∈ papers, s.db.result p.1.id = some p.1) :
    publishAll stamp papers s = .ok (publishTotal papers, papers.foldl (PublishDb.publish stamp) s) := by
  induction papers generalizing s with
  | nil => rfl
  | cons p rest ih =>
    obtain ⟨hp, hrest⟩ := List.nodup_cons.1 hids
    have hone : publishOne stamp p.1 p.2 s = .ok (p.1.publishOutcome, s.publish stamp p) :=
      publishOne_eq (hread p List.mem_cons_self)
    have hothers : ∀ q ∈ rest, (s.publish stamp p).db.result q.1.id = some q.1 := by
      intro q hq
      have hne : q.1.id ≠ p.1.id := by
        intro h
        exact hp (List.mem_map.2 ⟨q, hq, h⟩)
      have hsame : (s.publish stamp p).paper q.1.id = s.paper q.1.id := paper_publish_ne hne
      exact (congrArg PaperView.row hsame).trans (hread q (List.mem_cons_of_mem p hq))
    rw [publishAll, run_bind_ok hone, run_bind_ok (ih _ hrest hothers)]
    rfl

theorem paper_foldl_ne (hid : ∀ p ∈ papers, id ≠ p.1.id) :
    (papers.foldl (PublishDb.publish stamp) s).paper id = s.paper id := by
  induction papers generalizing s with
  | nil => rfl
  | cons p rest ih =>
    rw [List.foldl_cons, ih fun q hq => hid q (List.mem_cons_of_mem p hq)]
    exact paper_publish_ne (hid p List.mem_cons_self)

theorem paper_foldl_mem (hids : (papers.map fun p => p.1.id).Nodup) (hp : p ∈ papers) :
    (papers.foldl (PublishDb.publish stamp) s).paper p.1.id =
      (s.paper p.1.id).publish stamp p := by
  induction papers generalizing s with
  | nil => exact absurd hp List.not_mem_nil
  | cons q rest ih =>
    obtain ⟨hq, hrest⟩ := List.nodup_cons.1 hids
    rw [List.foldl_cons]
    rcases List.mem_cons.1 hp with rfl | hp
    · rw [paper_foldl_ne, paper_publish_self]
      intro q' hq' h
      exact hq (List.mem_map.2 ⟨q', hq', h.symm⟩)
    · rw [ih hrest hp, paper_publish_ne]
      intro h
      exact hq (List.mem_map.2 ⟨p, hp, h⟩)

/-- What no publication writes. -/
structure KeepsSession (s s' : PublishDb K) : Prop where
  heads : s'.db.results.map (fun r => (r.id, r.submissionId)) =
    s.db.results.map fun r => (r.id, r.submissionId)
  sessions : s'.db.sessions = s.db.sessions
  submissions : s'.db.submissions = s.db.submissions
  priceVersions : s'.db.priceVersions = s.db.priceVersions
  computations : s'.db.computations = s.db.computations
  pinned : s'.pinned = s.pinned

theorem publish_keeps (s : PublishDb K) (stamp : FinalizeStamp) (p : ResultRow × Option String) :
    KeepsSession s (s.publish stamp p) := by
  rw [PublishDb.publish]
  split_ifs
  · refine ⟨map_updateRow fun r => ?_, rfl, rfl, rfl, rfl, rfl⟩
    unfold publishRow
    cases p.1.pipeline with
    | investigator => rfl
    | oneShot => rfl
  · exact ⟨rfl, rfl, rfl, rfl, rfl, rfl⟩

theorem foldl_keeps (s : PublishDb K) (stamp : FinalizeStamp)
    (papers : List (ResultRow × Option String)) :
    KeepsSession s (papers.foldl (PublishDb.publish stamp) s) := by
  induction papers generalizing s with
  | nil => exact ⟨rfl, rfl, rfl, rfl, rfl, rfl⟩
  | cons p rest ih =>
    have hone := publish_keeps s stamp p
    have hrest := ih (s.publish stamp p)
    exact ⟨hrest.heads.trans hone.heads, hrest.sessions.trans hone.sessions, hrest.submissions.trans hone.submissions,
      hrest.priceVersions.trans hone.priceVersions, hrest.computations.trans hone.computations,
      hrest.pinned.trans hone.pinned⟩

theorem total_add (a b : FinalizeGradesOutcome) : (a.add b).total = a.total + b.total := by
  unfold FinalizeGradesOutcome.total FinalizeGradesOutcome.add
  dsimp only
  omega

theorem publishOutcome_pos (r : ResultRow) :
    0 < r.publishOutcome.total ↔ r.status ∈ finalizableStatuses := by
  rw [ResultRow.publishOutcome]
  by_cases h : r.status ∈ finalizableStatuses
  · rw [if_neg (not_not.2 h)]
    refine ⟨fun _ => h, fun _ => ?_⟩
    split_ifs <;> exact Nat.one_pos
  · rw [if_pos h]
    exact ⟨fun hpos => absurd hpos (Nat.lt_irrefl 0), fun hin => absurd hin h⟩

theorem publishTotal_pos :
    0 < (publishTotal papers).total ↔ ∃ p ∈ papers, p.1.status ∈ finalizableStatuses := by
  induction papers with
  | nil => exact ⟨fun h => absurd h (Nat.lt_irrefl 0), fun ⟨_, hp, _⟩ => absurd hp List.not_mem_nil⟩
  | cons p rest ih =>
    rw [publishTotal, List.foldr_cons, total_add, Nat.add_pos_iff_pos_or_pos, publishOutcome_pos,
      List.exists_mem_cons_iff]
    exact or_congr_right ih

theorem foldl_publish_of_not_finalizable (h : ∀ p ∈ papers, p.1.status ∉ finalizableStatuses) :
    papers.foldl (PublishDb.publish stamp) s = s := by
  induction papers with
  | nil => rfl
  | cons p rest ih =>
    have hp : s.publish stamp p = s := by
      rw [PublishDb.publish, if_neg (h p List.mem_cons_self)]
    rw [List.foldl_cons, hp]
    exact ih fun q hq => h q (List.mem_cons_of_mem p hq)

end EveryPaper

end Cine.Grading
