import Cine.Grading.Review.PublishSession

/-!
# Publishing all or nothing

What a teacher may expect of a call of `finalizeGrades`: it refuses and
changes nothing, or every paper of the session is published, signed, with
the score that it had, and a second call finds nothing to do.

`score_publish` says which score a paper is published with.  It is the score
that the paper had, except on one branch: a one-shot paper that nobody has
looked at is published with the score of the AI, and with 0 where there is
none.
-/

namespace Cine.Grading

open Cine.Lib

variable {K : Type}

/-! ## The published score -/

/-- The current score of a paper. -/
def PublishDb.score (s : PublishDb K) (id : String) : Option Int :=
  (s.db.result id).bind fun r => (currentScore (s.db.currentScoreInput r)).value

section Score

variable {s s' : PublishDb K} {stamp : FinalizeStamp} {r : ResultRow}

theorem latestReviewScore_eq (db : Db K) (id : String) (p : ReviewRow → Bool) :
    db.latestReviewScore id p =
      (((db.reviews.filter fun t => t.gradingResultId = id).filter p).getLast?).bind
        ReviewRow.finalScore := by
  rw [Db.latestReviewScore, List.filter_filter]
  congr 3
  funext t
  rw [Bool.and_comm, Bool.decide_and, Bool.decide_eq_true]

theorem latestReviewScore_congr {db db' : Db K} {id : String}
    (h : db'.reviews.filter (fun t => t.gradingResultId = id) =
      db.reviews.filter fun t => t.gradingResultId = id) (p : ReviewRow → Bool) :
    db'.latestReviewScore id p = db.latestReviewScore id p := by
  rw [latestReviewScore_eq, latestReviewScore_eq, h]

theorem score_congr {id : String} (hc : s'.db.computations = s.db.computations)
    (hv : s'.paper id = s.paper id) : s'.score id = s.score id := by
  have hrow : s'.db.result id = s.db.result id := congrArg PaperView.row hv
  rw [PublishDb.score, PublishDb.score, hrow]
  cases hr : s.db.result id with
  | none => rfl
  | some r =>
    have hreviews := congrArg PaperView.reviews hv
    rw [← rowOf_key hr] at hreviews
    rw [Option.bind_some, Option.bind_some, Db.currentScoreInput, Db.currentScoreInput,
      latestReviewScore_congr hreviews, latestReviewScore_congr hreviews, Db.latestComputation,
      Db.latestComputation, hc]

theorem currentScore_oneShot {x : CurrentScoreInput} (h : x.pipeline = .oneShot) :
    (currentScore x).value = x.latestScoredReview.or x.aiTotalScore := by
  rw [currentScore, h]
  cases x.latestScoredReview with
  | some score => rfl
  | none =>
    cases x.aiTotalScore with
    | some score => rfl
    | none => rfl

theorem currentScore_investigator {x : CurrentScoreInput} (h : x.pipeline = .investigator) :
    (currentScore x).value = (x.latestManualScore.or
      (if x.finalized then x.finalizedComputationScore else none)).or x.latestComputationScore := by
  rw [currentScore, h]
  cases x.latestManualScore with
  | some score => rfl
  | none =>
    cases (if x.finalized then x.finalizedComputationScore else none) with
    | some score => rfl
    | none =>
      cases x.latestComputationScore with
      | some score => rfl
      | none => rfl

theorem publishedComputation_score {db : Db K} (hids : (db.computations.map ComputationRow.id).Nodup)
    (id : String) :
    ((db.publishedComputation id).bind (rowOf ComputationRow.id db.computations)).bind
      ComputationRow.score = (db.latestComputation id).bind ComputationRow.score := by
  rw [Db.publishedComputation]
  cases hc : db.latestComputation id with
  | none => rfl
  | some c =>
    have hmem : c ∈ db.computations := (List.mem_filter.1 (List.mem_of_getLast? hc)).1
    rw [Option.bind_some, Option.bind_some]
    cases hscore : c.score with
    | none => rfl
    | some score =>
      rw [Option.map_some, Option.bind_some, rowOf_of_mem hids hmem, Option.bind_some, hscore]

theorem finalizable_not_published {status : ResultStatus} (h : status ∈ finalizableStatuses) :
    status.isPublished = false := by
  rcases finalizable_cases h with h | h <;> rw [h] <;> rfl

theorem score_publish_investigator (hids : (s.db.computations.map ComputationRow.id).Nodup)
    (hr : s.db.result r.id = some r) (hp : r.pipeline = .investigator)
    (hstatus : r.status ∈ finalizableStatuses) (hc : s'.db.computations = s.db.computations)
    (hv : s'.paper r.id = (s.paper r.id).publish stamp (r, s.db.publishedComputation r.id)) :
    s'.score r.id = s.score r.id := by
  rw [PaperView.publish, if_pos hstatus] at hv
  have hrow : s'.db.result r.id = some { r with
      status := .finalized, finalizedComputationId := s.db.publishedComputation r.id } := by
    have h := congrArg PaperView.row hv
    rw [publishRow_investigator hp] at h
    exact h.trans (congrArg (Option.map _) hr)
  have hreview : r.acceptance = [] := by
    rw [ResultRow.acceptance, hp]
    refine if_neg ?_
    rintro ⟨⟨⟩, _⟩
  have hreviews : s'.db.reviews.filter (fun t => t.gradingResultId = r.id) =
      s.db.reviews.filter fun t => t.gradingResultId = r.id := by
    have h := congrArg PaperView.reviews hv
    rw [hreview, List.append_nil] at h
    exact h
  have hlatest : s'.db.latestComputation r.id = s.db.latestComputation r.id := by
    rw [Db.latestComputation, Db.latestComputation, hc]
  have hscore := publishedComputation_score hids r.id
  have hinput : (s'.db.currentScoreInput { r with
      status := .finalized, finalizedComputationId := s.db.publishedComputation r.id }).pipeline =
        .investigator := hp
  rw [PublishDb.score, PublishDb.score, hrow, hr, Option.bind_some, Option.bind_some,
    currentScore_investigator hinput, currentScore_investigator (x := s.db.currentScoreInput r) hp]
  show ((s'.db.latestReviewScore r.id _).or (((s.db.publishedComputation r.id).bind
      (rowOf ComputationRow.id s'.db.computations)).bind _)).or
      ((s'.db.latestComputation r.id).bind ComputationRow.score) =
    ((s.db.latestReviewScore r.id _).or (if r.status.isPublished = true then _ else none)).or
      ((s.db.latestComputation r.id).bind ComputationRow.score)
  rw [latestReviewScore_congr hreviews, hc, hscore, hlatest, finalizable_not_published hstatus,
    if_neg Bool.false_ne_true, Option.or_none, Option.or_assoc, Option.or_self]

theorem score_publish_oneShot (hr : s.db.result r.id = some r) (hp : r.pipeline = .oneShot)
    (hstatus : r.status ∈ finalizableStatuses)
    (hv : s'.paper r.id = (s.paper r.id).publish stamp (r, s.db.publishedComputation r.id)) :
    s'.score r.id =
      if r.status = .autoApproved then some (r.aiTotalScore.getD 0) else s.score r.id := by
  rw [PaperView.publish, if_pos hstatus] at hv
  have hrow : s'.db.result r.id = some { r with status := .finalized } := by
    have h := congrArg PaperView.row hv
    rw [publishRow_oneShot hp] at h
    exact h.trans (congrArg (Option.map _) hr)
  have hreviews : s'.db.reviews.filter (fun t => t.gradingResultId = r.id) =
      s.db.reviews.filter (fun t => t.gradingResultId = r.id) ++ r.acceptance :=
    congrArg PaperView.reviews hv
  have hinput : (s'.db.currentScoreInput { r with status := .finalized }).pipeline = .oneShot := hp
  rw [PublishDb.score, PublishDb.score, hrow, hr, Option.bind_some, Option.bind_some,
    currentScore_oneShot hinput, currentScore_oneShot (x := s.db.currentScoreInput r) hp]
  show (s'.db.latestReviewScore r.id _).or r.aiTotalScore =
    if _ then _ else (s.db.latestReviewScore r.id _).or r.aiTotalScore
  by_cases hauto : r.status = .autoApproved
  · rw [ResultRow.acceptance, if_pos ⟨hp, hauto⟩] at hreviews
    rw [if_pos hauto, latestReviewScore_eq, hreviews, List.filter_append,
      List.filter_cons_of_pos rfl, List.filter_nil, List.getLast?_concat]
    rfl
  · rw [ResultRow.acceptance, if_neg fun h => hauto h.2, List.append_nil] at hreviews
    rw [if_neg hauto, latestReviewScore_congr hreviews]

theorem score_publish (hids : (s.db.computations.map ComputationRow.id).Nodup)
    (hr : s.db.result r.id = some r) (hc : s'.db.computations = s.db.computations)
    (hv : s'.paper r.id = (s.paper r.id).publish stamp (r, s.db.publishedComputation r.id)) :
    s'.score r.id = if r.pipeline = .oneShot ∧ r.status = .autoApproved then
      some (r.aiTotalScore.getD 0) else s.score r.id := by
  by_cases hstatus : r.status ∈ finalizableStatuses
  · cases hp : r.pipeline with
    | investigator =>
      rw [if_neg fun h => nomatch h.1]
      exact score_publish_investigator hids hr hp hstatus hc hv
    | oneShot =>
      rw [score_publish_oneShot hr hp hstatus hv]
      simp only [true_and]
  · rw [PaperView.publish, if_neg hstatus] at hv
    have hauto : r.status ≠ .autoApproved := fun h => hstatus (h ▸ by decide)
    rw [if_neg fun h => hauto h.2, score_congr hc hv]

end Score

/-! ## The property -/

/-- The paper is published with its score and signed. -/
structure PublishDb.Published (s s' : PublishDb K) (r : ResultRow) : Prop where
  published : (s'.db.result r.id).any fun r' => r'.status.isPublished
  signed : (s'.stamps r.id).isSome
  hasScore : s'.score r.id ≠ none
  sameScore : s'.score r.id = s.score r.id

/-- A paper of the session is not published yet. -/
def Db.hasUnpublished (db : Db K) (sessionId : String) : Prop :=
  ∃ r ∈ db.papersOf sessionId, r.status.isPublished = false

instance (db : Db K) (sessionId : String) : Decidable (db.hasUnpublished sessionId) :=
  inferInstanceAs (Decidable (∃ r ∈ db.papersOf sessionId, r.status.isPublished = false))

/-- A call of `finalizeGrades` does all or nothing. -/
def PublishDb.AllOrNothing (s : PublishDb K) (sessionId teacherId : String) (now : Int) : Prop :=
  (∃ failure, publishGrades sessionId teacherId now s = .error failure) ∧
      commit (publishGrades sessionId teacherId now) s = s ∨
    ∃ outcome s', publishGrades sessionId teacherId now s = .ok (outcome, s') ∧
      (∀ r ∈ s.db.papersOf sessionId, s.Published s' r) ∧
      s'.pinned = (if s.db.hasUnpublished sessionId then
        Function.update s.pinned sessionId (s.db.currentPriceVersion.map PriceVersionRow.id)
      else s.pinned) ∧
      ∀ teacher' now', commit (publishGrades sessionId teacher' now') s' = s'

/-- Something stands in the way of the publication. -/
def Db.Refused (db : Db K) (sessionId : String) : Prop :=
  db.papersOf sessionId = [] ∨
    ∃ r ∈ db.papersOf sessionId, r.status ∈ blocksFinalize ∨ db.lacksScore r = true

/-- Every paper of the session has a score, which is the one of the AI where
a one-shot paper waits to be accepted, and a published paper is signed. -/
def PublishDb.ScoresStand (s : PublishDb K) (sessionId : String) : Prop :=
  ∀ r ∈ s.db.papersOf sessionId, s.score r.id ≠ none ∧
    (r.pipeline = .oneShot ∧ r.status = .autoApproved →
      s.score r.id = some (r.aiTotalScore.getD 0)) ∧
    (r.status.isPublished → (s.stamps r.id).isSome)

section Runs

variable {s : PublishDb K} {sessionId : String}

theorem publishObstacle_eq_none {db : Db K} : db.publishObstacle sessionId = none ↔
    ¬ db.Refused sessionId := by
  rw [Db.publishObstacle, Db.Refused]
  by_cases hall : db.papersOf sessionId = []
  · rw [if_pos hall]
    exact ⟨by rintro ⟨⟩, fun h => absurd (Or.inl hall) h⟩
  rw [if_neg hall]
  by_cases hblocking :
      0 < ((db.papersOf sessionId).filter fun r => r.status ∈ blocksFinalize).length
  · rw [if_pos hblocking]
    refine ⟨by rintro ⟨⟩, fun h => absurd (Or.inr ?_) h⟩
    obtain ⟨r, hr⟩ := List.exists_mem_of_length_pos hblocking
    obtain ⟨hmem, hstatus⟩ := List.mem_filter.1 hr
    exact ⟨r, hmem, Or.inl (of_decide_eq_true hstatus)⟩
  rw [if_neg hblocking]
  by_cases hscore : 0 < ((db.papersOf sessionId).filter db.lacksScore).length
  · rw [if_pos hscore]
    refine ⟨by rintro ⟨⟩, fun h => absurd (Or.inr ?_) h⟩
    obtain ⟨r, hr⟩ := List.exists_mem_of_length_pos hscore
    obtain ⟨hmem, hlacks⟩ := List.mem_filter.1 hr
    exact ⟨r, hmem, Or.inr hlacks⟩
  rw [if_neg hscore]
  refine ⟨fun _ => ?_, fun _ => rfl⟩
  rintro (h | ⟨r, hr, hstatus | hlacks⟩)
  · exact hall h
  · exact hblocking (List.length_pos_of_mem (List.mem_filter.2 ⟨hr, decide_eq_true hstatus⟩))
  · exact hscore (List.length_pos_of_mem (List.mem_filter.2 ⟨hr, hlacks⟩))

theorem resultsOfSession_fst (db : Db K) (sessionId : String) :
    (db.resultsOfSession sessionId).map Prod.fst =
      db.results.filter fun r => (db.studentIn sessionId r).isSome := by
  rw [Db.resultsOfSession, List.map_filterMap, ← List.filterMap_eq_filter]
  congr 1
  funext r
  rw [Option.guard_apply, Db.studentIn]
  cases hs : db.submission r.submissionId with
  | none => rfl
  | some t =>
    rw [Option.bind_some, Option.bind_some]
    by_cases h : t.sessionId = sessionId
    · rw [if_pos h, if_pos h]
      rfl
    · rw [if_neg h, if_neg h]
      rfl

theorem mem_papersOf {db : Db K} {r : ResultRow} :
    r ∈ db.papersOf sessionId ↔ r ∈ db.results ∧ (db.studentIn sessionId r).isSome := by
  rw [Db.papersOf, mem_sortByKey, resultsOfSession_fst, List.mem_filter]

theorem papersOf_nodup {db : Db K} (hids : (db.results.map ResultRow.id).Nodup) :
    ((db.papersOf sessionId).map ResultRow.id).Nodup := by
  rw [Db.papersOf, resultsOfSession_fst]
  exact nodup_sortByKey (hids.sublist (List.filter_sublist.map _))

/-- The papers of a session with the computations that are published. -/
def Db.publication (db : Db K) (sessionId : String) : List (ResultRow × Option String) :=
  (db.papersOf sessionId).map fun r => (r, db.publishedComputation r.id)

/-- The state after a publication that is not refused. -/
def PublishDb.published (s : PublishDb K) (sessionId teacherId : String) (now : Int) :
    PublishDb K :=
  { (s.db.publication sessionId).foldl (PublishDb.publish ⟨teacherId, now⟩) s with
    pinned := if (s.db.session sessionId).isSome ∧
        0 < (publishTotal (s.db.publication sessionId)).total then
      Function.update s.pinned sessionId (s.db.currentPriceVersion.map PriceVersionRow.id)
    else s.pinned }

theorem publication_nodup {db : Db K} (hids : (db.results.map ResultRow.id).Nodup) :
    ((db.publication sessionId).map fun p => p.1.id).Nodup := by
  rw [Db.publication, List.map_map]
  exact papersOf_nodup hids

theorem publishGrades_refused (h : s.db.Refused sessionId) (teacherId : String) (now : Int) :
    ∃ failure, publishGrades sessionId teacherId now s = .error failure := by
  rw [publishGrades_run]
  cases hobstacle : s.db.publishObstacle sessionId with
  | none => exact absurd h (publishObstacle_eq_none.1 hobstacle)
  | some failure => exact ⟨failure, rfl⟩

theorem publishGrades_eq (hids : (s.db.results.map ResultRow.id).Nodup)
    (h : ¬ s.db.Refused sessionId) (teacherId : String) (now : Int) :
    publishGrades sessionId teacherId now s =
      .ok (publishTotal (s.db.publication sessionId), s.published sessionId teacherId now) := by
  have hread : ∀ p ∈ s.db.publication sessionId, s.db.result p.1.id = some p.1 := by
    intro p hp
    obtain ⟨r, hr, rfl⟩ := List.mem_map.1 hp
    exact result_of_mem hids (mem_papersOf.1 hr).1
  have hall := publishAll_eq ⟨teacherId, now⟩ _ s (publication_nodup hids) hread
  have hkeeps := foldl_keeps s ⟨teacherId, now⟩ (s.db.publication sessionId)
  rw [publishGrades_run, publishObstacle_eq_none.2 h]
  dsimp only
  rw [← Db.publication, run_bind_ok hall, run_bind_ok (pinPrices_run sessionId _ _), Db.session,
    hkeeps.sessions, Db.currentPriceVersion, hkeeps.priceVersions, hkeeps.pinned]
  rfl

/-! ## What a publication leaves behind -/

variable {r : ResultRow} (teacherId : String) (now : Int)

theorem published_paper (hids : (s.db.results.map ResultRow.id).Nodup)
    (hr : r ∈ s.db.papersOf sessionId) :
    (s.published sessionId teacherId now).paper r.id =
      (s.paper r.id).publish ⟨teacherId, now⟩ (r, s.db.publishedComputation r.id) :=
  paper_foldl_mem (p := (r, s.db.publishedComputation r.id)) (publication_nodup hids)
    (List.mem_map.2 ⟨r, hr, rfl⟩)

theorem finalizable_or_published {status : ResultStatus} (h : status ∉ blocksFinalize) :
    status ∈ finalizableStatuses ∨ status.isPublished = true := by
  cases status with
  | autoApproved => exact Or.inl (by decide)
  | teacherReviewed => exact Or.inl (by decide)
  | finalized => exact Or.inr rfl
  | exported => exact Or.inr rfl
  | _ => exact absurd (by decide) h

theorem publishRow_status (p : ResultRow × Option String) (r : ResultRow) :
    (publishRow p r).status = .finalized := by
  unfold publishRow
  cases p.1.pipeline with
  | investigator => rfl
  | oneShot => rfl

theorem published_not_finalizable {status : ResultStatus} (h : status.isPublished = true) :
    status ∉ finalizableStatuses := by
  intro hf
  rw [finalizable_not_published hf] at h
  exact Bool.false_ne_true h

theorem published_status (hids : (s.db.results.map ResultRow.id).Nodup)
    (h : ¬ s.db.Refused sessionId) (hr : r ∈ s.db.papersOf sessionId) :
    ((s.published sessionId teacherId now).db.result r.id).any fun r' => r'.status.isPublished := by
  have hresult : s.db.result r.id = some r := result_of_mem hids (mem_papersOf.1 hr).1
  have hrow := published_paper teacherId now hids hr
  have hstatus : r.status ∉ blocksFinalize := fun hb => h (Or.inr ⟨r, hr, Or.inl hb⟩)
  rw [PaperView.publish] at hrow
  rcases finalizable_or_published hstatus with hf | hp
  · rw [if_pos hf] at hrow
    have hnew : (s.published sessionId teacherId now).db.result r.id =
        (s.db.result r.id).map (publishRow (r, s.db.publishedComputation r.id)) :=
      congrArg PaperView.row hrow
    rw [hnew, hresult, Option.map_some, Option.any_some, publishRow_status]
    rfl
  · rw [if_neg (published_not_finalizable hp)] at hrow
    have hsame : (s.published sessionId teacherId now).db.result r.id = s.db.result r.id :=
      congrArg PaperView.row hrow
    rw [hsame, hresult, Option.any_some, hp]

theorem published_signed (hids : (s.db.results.map ResultRow.id).Nodup)
    (h : ¬ s.db.Refused sessionId) (hr : r ∈ s.db.papersOf sessionId) :
    ((s.published sessionId teacherId now).stamps r.id).isSome ↔
      (r.status.isPublished = true → (s.stamps r.id).isSome) := by
  have hrow := published_paper teacherId now hids hr
  have hstatus : r.status ∉ blocksFinalize := fun hb => h (Or.inr ⟨r, hr, Or.inl hb⟩)
  rw [PaperView.publish] at hrow
  rcases finalizable_or_published hstatus with hf | hp
  · rw [if_pos hf] at hrow
    have hnew : (s.published sessionId teacherId now).stamps r.id = some ⟨teacherId, now⟩ :=
      congrArg PaperView.stamp hrow
    rw [hnew, finalizable_not_published hf]
    exact ⟨fun _ h => absurd h Bool.false_ne_true, fun _ => rfl⟩
  · rw [if_neg (published_not_finalizable hp)] at hrow
    have hsame : (s.published sessionId teacherId now).stamps r.id = s.stamps r.id :=
      congrArg PaperView.stamp hrow
    rw [hsame]
    exact ⟨fun h _ => h, fun h => h hp⟩

theorem published_score (hids : (s.db.results.map ResultRow.id).Nodup)
    (hcids : (s.db.computations.map ComputationRow.id).Nodup)
    (hr : r ∈ s.db.papersOf sessionId) :
    (s.published sessionId teacherId now).score r.id =
      if r.pipeline = .oneShot ∧ r.status = .autoApproved then some (r.aiTotalScore.getD 0)
      else s.score r.id :=
  score_publish hcids (result_of_mem hids (mem_papersOf.1 hr).1)
    (foldl_keeps s ⟨teacherId, now⟩ (s.db.publication sessionId)).computations
    (published_paper teacherId now hids hr)

theorem published_pinned (hsession : (s.db.session sessionId).isSome)
    (h : ¬ s.db.Refused sessionId) :
    (s.published sessionId teacherId now).pinned = if s.db.hasUnpublished sessionId then
      Function.update s.pinned sessionId (s.db.currentPriceVersion.map PriceVersionRow.id)
    else s.pinned := by
  have hpos : (s.db.session sessionId).isSome ∧
      0 < (publishTotal (s.db.publication sessionId)).total ↔ s.db.hasUnpublished sessionId := by
    rw [publishTotal_pos, Db.publication, Db.hasUnpublished]
    constructor
    · rintro ⟨-, p, hp, hstatus⟩
      obtain ⟨r, hr, rfl⟩ := List.mem_map.1 hp
      exact ⟨r, hr, finalizable_not_published hstatus⟩
    · rintro ⟨r, hr, hunpublished⟩
      have hstatus : r.status ∉ blocksFinalize := fun hb => h (Or.inr ⟨r, hr, Or.inl hb⟩)
      refine ⟨hsession, (r, s.db.publishedComputation r.id), List.mem_map.2 ⟨r, hr, rfl⟩, ?_⟩
      exact (finalizable_or_published hstatus).resolve_right (Bool.eq_false_iff.1 hunpublished)
  rw [PublishDb.published]
  exact if_congr hpos rfl rfl

/-! ## A second call -/

theorem published_heads (s : PublishDb K) (sessionId : String) : (s.published sessionId teacherId now).db.results.map
    (fun r => (r.id, r.submissionId)) = s.db.results.map fun r => (r.id, r.submissionId) :=
  (foldl_keeps s ⟨teacherId, now⟩ (s.db.publication sessionId)).heads

theorem published_ids (s : PublishDb K) (sessionId : String) : (s.published sessionId teacherId now).db.results.map ResultRow.id =
    s.db.results.map ResultRow.id := by
  have h := congrArg (List.map Prod.fst) (published_heads teacherId now s sessionId)
  rw [List.map_map, List.map_map] at h
  exact h

theorem mem_papersOf_published {r' : ResultRow}
    (hr' : r' ∈ (s.published sessionId teacherId now).db.papersOf sessionId) :
    ∃ r ∈ s.db.papersOf sessionId, r.id = r'.id := by
  obtain ⟨hmem, hstudent⟩ := mem_papersOf.1 hr'
  have hhead : (r'.id, r'.submissionId) ∈ s.db.results.map fun r => (r.id, r.submissionId) := by
    rw [← published_heads teacherId now s sessionId]
    exact List.mem_map.2 ⟨r', hmem, rfl⟩
  obtain ⟨r, hr, heq⟩ := List.mem_map.1 hhead
  obtain ⟨hid, hsubmission⟩ := Prod.mk.inj heq
  have hsubs : (s.published sessionId teacherId now).db.submissions = s.db.submissions :=
    (foldl_keeps s ⟨teacherId, now⟩ (s.db.publication sessionId)).submissions
  refine ⟨r, mem_papersOf.2 ⟨hr, ?_⟩, hid⟩
  rw [Db.studentIn, Db.submission, hsubmission, ← hsubs]
  exact hstudent

theorem commit_publishGrades_of_published (hids : (s.db.results.map ResultRow.id).Nodup)
    (h : ∀ r ∈ s.db.papersOf sessionId, r.status.isPublished = true) :
    commit (publishGrades sessionId teacherId now) s = s := by
  by_cases hrefused : s.db.Refused sessionId
  · obtain ⟨failure, hrun⟩ := publishGrades_refused hrefused teacherId now
    exact commit_of_error hrun
  · rw [commit_of_ok (publishGrades_eq hids hrefused teacherId now)]
    have hnone : ∀ p ∈ s.db.publication sessionId, p.1.status ∉ finalizableStatuses := by
      intro p hp
      obtain ⟨r, hr, rfl⟩ := List.mem_map.1 hp
      exact published_not_finalizable (h r hr)
    have hfold : (s.db.publication sessionId).foldl (PublishDb.publish ⟨teacherId, now⟩) s = s :=
      foldl_publish_of_not_finalizable hnone
    have htotal : ¬ ((s.db.session sessionId).isSome ∧
        0 < (publishTotal (s.db.publication sessionId)).total) := by
      rw [publishTotal_pos]
      rintro ⟨-, p, hp, hstatus⟩
      exact hnone p hp hstatus
    rw [PublishDb.published, hfold, if_neg htotal]

theorem commit_publishGrades_published (hids : (s.db.results.map ResultRow.id).Nodup)
    (h : ¬ s.db.Refused sessionId) (teacher' : String) (now' : Int) :
    commit (publishGrades sessionId teacher' now') (s.published sessionId teacherId now) =
      s.published sessionId teacherId now := by
  have hids' : ((s.published sessionId teacherId now).db.results.map ResultRow.id).Nodup := by
    rw [published_ids]
    exact hids
  refine commit_publishGrades_of_published teacher' now' hids' fun r' hr' => ?_
  obtain ⟨r, hr, hid⟩ := mem_papersOf_published teacherId now hr'
  have hstatus := published_status teacherId now hids h hr
  rw [hid, result_of_mem hids' (mem_papersOf.1 hr').1, Option.any_some] at hstatus
  exact hstatus

/-- `finalizeGrades` does all or nothing, when it refuses or the scores of
the session stand: everywhere else it publishes a paper with another score
than it had, with 0 where nobody gave one, or it leaves a paper without a
score or a signer behind. -/
theorem allOrNothing_iff (hids : (s.db.results.map ResultRow.id).Nodup)
    (hcids : (s.db.computations.map ComputationRow.id).Nodup)
    (hsession : (s.db.session sessionId).isSome) :
    s.AllOrNothing sessionId teacherId now ↔ s.db.Refused sessionId ∨ s.ScoresStand sessionId := by
  by_cases hrefused : s.db.Refused sessionId
  · obtain ⟨failure, hrun⟩ := publishGrades_refused hrefused teacherId now
    exact ⟨fun _ => Or.inl hrefused, fun _ => Or.inl ⟨⟨failure, hrun⟩, commit_of_error hrun⟩⟩
  have hrun := publishGrades_eq hids hrefused teacherId now
  constructor
  · rintro (⟨⟨failure, herror⟩, -⟩ | ⟨outcome, s', hok, hall, -, -⟩)
    · rw [hrun] at herror
      cases herror
    · rw [hrun] at hok
      cases hok
      refine Or.inr fun r hr => ?_
      have hpaper := hall r hr
      have hscore := published_score teacherId now hids hcids hr
      refine ⟨?_, fun hauto => ?_, (published_signed teacherId now hids hrefused hr).1 hpaper.signed⟩
      · rw [← hpaper.sameScore]
        exact hpaper.hasScore
      · rw [← hpaper.sameScore, hscore, if_pos hauto]
  · rintro (h | hstand)
    · exact absurd h hrefused
    · refine Or.inr ⟨_, _, hrun, fun r hr => ?_, published_pinned teacherId now hsession hrefused,
        commit_publishGrades_published teacherId now hids hrefused⟩
      obtain ⟨hsome, hauto, hsigned⟩ := hstand r hr
      have hsame : (s.published sessionId teacherId now).score r.id = s.score r.id := by
        rw [published_score teacherId now hids hcids hr]
        split_ifs with h
        · exact (hauto h).symm
        · rfl
      exact ⟨published_status teacherId now hids hrefused hr,
        (published_signed teacherId now hids hrefused hr).2 hsigned, hsame ▸ hsome, hsame⟩

end Runs

/-! ## A paper that nobody has scored -/

/-- A session with a one-shot paper that waits to be accepted and a paper
that a teacher has scored by hand. -/
def waitingSession (aiTotalScore : Option Int) : PublishDb ℚ where
  db :=
    { sessions := [⟨"s1", "Giữa kỳ", "seed", none, true, none⟩]
      problems := [⟨"q1", "s1", 1, some "Tính tổng", 1000, some "rb", none⟩]
      submissions := [⟨"sub1", "s1", "SV01", some "key", "bai.docx", none⟩,
        ⟨"sub2", "s1", "SV02", some "key", "bai.py", none⟩]
      bundles := []
      cases := []
      rubrics := [⟨"rb", "Nhập môn", 1, [⟨"correctness", 1000⟩]⟩]
      rules := []
      rubricErrors := []
      priceVersions := [⟨"price1", 1, []⟩]
      waivers := []
      sightings := []
      results := [paper "r1" "sub1" .oneShot .autoApproved aiTotalScore,
        paper "r2" "sub2" .investigator .teacherReviewed none]
      attempts := []
      computations := []
      reviews := [⟨"r2", .manualScore, some 650, none, none⟩]
      auditLog := []
      openBreakerRuleKeys := []
      noErrorBreakerOpen := false
      drawnIds := 0 }
  stamps := fun _ => none
  pinned := fun _ => none
where
  paper (id submissionId : String) (pipeline : Pipeline) (status : ResultStatus)
      (aiTotalScore : Option Int) : ResultRow :=
    { id
      submissionId
      problemId := some "q1"
      rubricIdVersion := "rb"
      pipeline
      status
      currentAttemptId := none
      aiTotalScore
      confidence := none
      modelUsed := none
      flagForReview := false
      ungradable := none
      auditSampled := false
      finalizedComputationId := none }

theorem waitingSession_allOrNothing :
    (waitingSession (some 700)).AllOrNothing "s1" "teacher" 0 := by
  refine (allOrNothing_iff "teacher" 0 ?_ ?_ ?_).2 (Or.inr ?_)
  · decide
  · decide
  · decide
  · unfold PublishDb.ScoresStand
    decide

/-- Without a score of the AI the paper is published with 0 points. -/
theorem waitingSession_not_allOrNothing :
    ¬ (waitingSession none).AllOrNothing "s1" "teacher" 0 := by
  have hbefore : (waitingSession none).score "r1" = none := by decide
  have hafter : (publishGrades "s1" "teacher" 0 (waitingSession none)).toOption.map
      (fun p => p.2.score "r1") = some (some 0) := by decide
  have hpaper : waitingSession.paper "r1" "sub1" .oneShot .autoApproved none ∈
      (waitingSession none).db.papersOf "s1" := by decide
  rintro (⟨⟨failure, herror⟩, -⟩ | ⟨outcome, s', hok, hall, -, -⟩)
  · rw [herror] at hafter
    cases hafter
  · have hsame := (hall _ hpaper).sameScore
    rw [hok] at hafter
    have hzero : s'.score "r1" = some 0 := Option.some.inj hafter
    rw [show (waitingSession.paper "r1" "sub1" .oneShot .autoApproved none).id = "r1" from rfl,
      hzero, hbefore] at hsame
    cases hsame

end Cine.Grading
