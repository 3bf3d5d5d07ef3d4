import Cine.Grading.OneShot.BulkRules
import Cine.Grading.Review.TeacherReview
import Mathlib.Data.List.MinMax
import Mathlib.Data.List.Perm.Subperm

/-!
# A review of a whole class

`bulkReview` of `grading/bulk-review.service.ts`, with `reviewWithin` and
`validateAndTotal` of `teacher-review.service.ts` on the criteria of a rule.

* `ReviewDb` has the tables that the transaction reads and writes.
* `bulkStep_cases`: one paper is refused, skipped and untouched, or reviewed.
* `BatchDone`: what the whole loop leaves, and `foldlM_bulkStep_cases` when it
  ends at all.
* `planned_settled`: after the loop every paper is one to skip.

The transactions come one after the other, and the clock goes on between them.
-/

namespace Cine.Grading.Bulk

open Cine.Lib

/-! ## Tables -/

/-- A row of `grading_result`, with the session of its submission. -/
structure GradedRow where
  id : String
  examSessionId : String
  rubricIdVersion : String
  pipeline : Pipeline
  status : ResultStatus
  aiTotalScore : Option ℚ
  criterionResults : Option (List CriterionResult)
  /-- `suggestedVerdicts` of the opinion. -/
  advocateOpinion : Option (List AdvocateSuggestion)
deriving DecidableEq

structure RubricCriterionRow where
  id : String
  rubricId : String
  maxPoints : ℚ
deriving DecidableEq

structure TeacherReviewRow where
  gradingResultId : String
  teacherId : String
  finalScore : Option ℚ
  kind : ReviewKind
  /-- `none` is a value that is no array. -/
  editedCriteria : Option (List RuleCriterion)
  privateNote : Option String
  studentFeedback : Option String
  appliedRule : Option BulkRule
  reviewedAt : Nat
deriving DecidableEq

/-- An entry of `audit_log`; its new value has the score, the rule and the note. -/
structure AuditEntry where
  actorId : String
  action : String
  targetType : String
  targetId : String
  oldScore : Option ℚ
  newScore : ℚ
  appliedRule : Option BulkRule
  privateNote : Option String
deriving DecidableEq

/-- The tables of the transaction, and the time of its `now()`. -/
structure ReviewDb where
  results : List GradedRow
  criteria : List RubricCriterionRow
  reviews : List TeacherReviewRow
  auditLog : List AuditEntry
  clock : Nat
  ids : (results.map GradedRow.id).Nodup
  criterionIds : (criteria.map RubricCriterionRow.id).Nodup
  past : ∀ t ∈ reviews, t.reviewedAt ≤ clock

namespace ReviewDb

variable (db : ReviewDb)

/-- A transaction that begins after `delay` more ticks. -/
def begin (delay : Nat) : ReviewDb :=
  { db with
    clock := db.clock + delay + 1
    past := fun t ht => Nat.le_trans (db.past t ht) (by omega) }

def reviewsOf (id : String) : List TeacherReviewRow :=
  db.reviews.filter fun t => t.gradingResultId = id

/-- `ORDER BY reviewed_at DESC LIMIT 1`. -/
def latestReview (id : String) : Option TeacherReviewRow :=
  (db.reviewsOf id).argmax TeacherReviewRow.reviewedAt

def result (id : String) : Option GradedRow :=
  rowOf GradedRow.id db.results id

/-- The review gets the time of the transaction. -/
def saveReview (t : TeacherReviewRow) : ReviewDb :=
  { db with
    reviews := db.reviews ++ [{ t with reviewedAt := db.clock }]
    past := by
      intro t' ht'
      cases List.mem_append.1 ht' with
      | inl hold => exact db.past t' hold
      | inr hnew => rw [List.mem_singleton.1 hnew] }

/-- A paper that waits for its teacher is reviewed, another one stays as it is. -/
def advanced (r : GradedRow) : GradedRow :=
  if r.status = .autoApproved ∨ r.status = .flaggedForReview then
    { r with status := .teacherReviewed }
  else r

theorem advanced_advanced (r : GradedRow) : advanced (advanced r) = advanced r := by
  unfold advanced
  split_ifs <;> simp_all

theorem advanced_id (r : GradedRow) : (advanced r).id = r.id := by
  unfold advanced
  split_ifs <;> rfl

/-- `advance(id, ['auto_approved', 'flagged_for_review'], 'teacher_reviewed')`. -/
def advance (id : String) : ReviewDb :=
  { db with
    results := updateRow GradedRow.id db.results id advanced
    ids := by
      rw [map_updateRow advanced_id]
      exact db.ids }

def record (entry : AuditEntry) : ReviewDb :=
  { db with auditLog := db.auditLog ++ [entry] }

end ReviewDb

/-! ## One review -/

def GradedRow.isReviewable (r : GradedRow) : Bool :=
  r.pipeline ≠ .investigator ∧ r.status ∈ reviewableStatuses

def currentFinalScore (db : ReviewDb) (r : GradedRow) : Option ℚ :=
  match ((db.reviewsOf r.id).filter fun t => t.finalScore.isSome).argmax
      TeacherReviewRow.reviewedAt with
  | some latest => latest.finalScore
  | none => r.aiTotalScore

/-- The criteria of a rubric, as a rule knows them. -/
def rubricOf (db : ReviewDb) (rubricId : String) : List RubricMaximum :=
  (db.criteria.filter fun c => c.rubricId = rubricId).map fun c => ⟨c.id, c.maxPoints⟩

/-- The loop of `validateAndTotal`. -/
def totalOf (rubric : List RubricMaximum) : List RuleCriterion → List String → ℚ →
    Except Failure (List String × ℚ)
  | [], seen, total => .ok (seen, total)
  | entry :: rest, seen, total =>
    match (OrderedMap.ofList (rubric.map fun c => (c.id, c.maxPoints))).get? entry.criterionId with
    | none =>
      .error (.badRequest "Có tiêu chí không thuộc rubric đã dùng để chấm bài này.")
    | some maxPoints =>
      if entry.criterionId ∈ seen then
        .error (.badRequest "Một tiêu chí bị khai hai lần.")
      else if maxPoints < entry.points then
        let shown := formatHundredths ⌊maxPoints * 100⌋
        .error (.badRequest s!"Điểm của một tiêu chí vượt quá điểm tối đa ({shown}).")
      else totalOf rubric rest (seen ++ [entry.criterionId]) (total + entry.points)

def validateAndTotal (db : ReviewDb) (r : GradedRow) (criteria : List RuleCriterion) :
    Except Failure ℚ := do
  let rubric := rubricOf db r.rubricIdVersion
  let (seen, total) ← totalOf rubric criteria [] 0
  if seen.length ≠ rubric.length then
    throw (.badRequest
      "Phải chấm đủ mọi tiêu chí của rubric — thiếu một tiêu chí là tổng bị tính hụt.")
  return mathRound (total * 100) / 100

/-- What the columns of `teacher_review` refuse. -/
def storable (finalScore : ℚ) (privateNote : Option String) : Except Failure Unit :=
  if finalScore < 0 then .error (.error "ck_teacher_review_final_score")
  else if 10000 ≤ finalScore then .error (.error "numeric field overflow")
  else if privateNote.any fun note => '\x00' ∈ note.toList then
    .error (.error "invalid byte sequence for encoding \"UTF8\": 0x00")
  else .ok ()

/-- What a call gives each of its papers. -/
structure BulkCall where
  teacherId : String
  rule : BulkRule
  rubric : List RubricMaximum
  privateNote : Option String

def BulkCall.reviewOf (call : BulkCall) (r : GradedRow) (criteria : List RuleCriterion)
    (finalScore : ℚ) : TeacherReviewRow where
  gradingResultId := r.id
  teacherId := call.teacherId
  finalScore := some finalScore
  kind := .bulkAccept
  editedCriteria := some criteria
  privateNote := call.privateNote
  studentFeedback := none
  appliedRule := some call.rule
  reviewedAt := 0

def BulkCall.entryOf (call : BulkCall) (r : GradedRow) (oldScore : Option ℚ) (newScore : ℚ) :
    AuditEntry where
  actorId := call.teacherId
  action := "grading_result.score_edited_after_finalize"
  targetType := "grading_result"
  targetId := r.id
  oldScore := oldScore
  newScore := newScore
  appliedRule := some call.rule
  privateNote := call.privateNote.filter (· ≠ "")

def GradedRow.isPublished (r : GradedRow) : Bool :=
  r.status ∈ publishedStatuses

def reviewed (call : BulkCall) (db : ReviewDb) (r : GradedRow) (criteria : List RuleCriterion)
    (finalScore : ℚ) : ReviewDb :=
  let previousScore := currentFinalScore db r
  let db := (db.saveReview (call.reviewOf r criteria finalScore)).advance r.id
  if r.isPublished then db.record (call.entryOf r previousScore finalScore) else db

/-- The score of a review, unless it is refused. -/
def reviewScore (call : BulkCall) (db : ReviewDb) (r : GradedRow)
    (criteria : List RuleCriterion) : Except Failure ℚ := do
  let finalScore ← validateAndTotal db r criteria
  storable finalScore call.privateNote
  return finalScore

/-- `reviewWithin`, for the row as its caller has read it. -/
def reviewWithin (call : BulkCall) (db : ReviewDb) (r : GradedRow)
    (criteria : List RuleCriterion) : Except Failure (ReviewDb × Bool) := do
  let finalScore ← reviewScore call db r criteria
  return (reviewed call db r criteria finalScore, r.isPublished)

/-! ## The loop -/

inductive SkipReason
  | notReviewable
  | noAdvocate
  | unchanged
deriving DecidableEq, Repr

structure BulkReviewOutcome where
  applied : Nat
  skipped : List (String × SkipReason)
  audited : Nat
deriving DecidableEq, Repr

/-- The comparison of `isUnchanged` with the review `latest`. -/
def sameReview (criteria : List RuleCriterion) (privateNote : Option String)
    (latest : TeacherReviewRow) : Bool :=
  match latest.editedCriteria with
  | none => false
  | some before =>
    let byId := OrderedMap.ofList (before.map fun row => (row.criterionId, row))
    before.length = criteria.length &&
      (criteria.all fun row =>
        (byId.get? row.criterionId).any fun was =>
          was.points = row.points && was.verdict = row.verdict) &&
      latest.privateNote = privateNote

def isUnchanged (db : ReviewDb) (r : GradedRow) (criteria : List RuleCriterion)
    (privateNote : Option String) : Bool :=
  (db.latestReview r.id).any (sameReview criteria privateNote)

def BulkCall.inputOf (call : BulkCall) (r : GradedRow) : RuleInput where
  rubricCriteria := call.rubric
  criterionResults := r.criterionResults.getD []
  advocateOpinion := r.advocateOpinion

/-- The criteria for a paper, or why it is skipped. -/
def planned (call : BulkCall) (db : ReviewDb) (r : GradedRow) :
    Except SkipReason (List RuleCriterion) :=
  if !r.isReviewable then .error .notReviewable
  else
    match applyRule call.rule (call.inputOf r) with
    | .noAdvocate => .error .noAdvocate
    | .ok criteria =>
      if isUnchanged db r criteria call.privateNote then .error .unchanged else .ok criteria

/-- The body of the loop. -/
def bulkStep (call : BulkCall) (s : ReviewDb × BulkReviewOutcome) (r : GradedRow) :
    Except Failure (ReviewDb × BulkReviewOutcome) :=
  match planned call s.1 r with
  | .error reason => .ok (s.1, { s.2 with skipped := s.2.skipped ++ [(r.id, reason)] })
  | .ok criteria => do
    let (db, audited) ← reviewWithin call s.1 r criteria
    return (db, { s.2 with
      applied := s.2.applied + 1
      audited := if audited then s.2.audited + 1 else s.2.audited })

/-! ## The call -/

structure BulkReviewDto where
  resultIds : List String
  rule : BulkRuleDto
  privateNote : Option String

def bulkRuleName : BulkRuleKind → String
  | .keepAi => "keep_ai"
  | .applyAdvocate => "apply_advocate"
  | .criterionFullMarks => "criterion_full_marks"
  | .criterionBonus => "criterion_bonus"

def narrowFailure : NarrowFailure → Failure
  | .noCriterion kind => .badRequest s!"Luật \"{bulkRuleName kind}\" cần chỉ rõ tiêu chí."
  | .noPoints => .badRequest "Cộng bù cần số điểm cộng thêm."

/-- The listed results of a session, in the order of their ids. -/
def listedRows (db : ReviewDb) (examSessionId : String) (resultIds : List String) :
    List GradedRow :=
  sortByKey GradedRow.id (db.results.filter fun r =>
    r.examSessionId = examSessionId ∧ r.id ∈ resultIds)

def rubricCriteriaOf (db : ReviewDb) (rows : List GradedRow) :
    Except Failure (List RubricMaximum) :=
  match (rows.map GradedRow.rubricIdVersion).eraseDups with
  | [version] => .ok (rubricOf db version)
  | _ => .error (.badRequest
    "Các bài trong phiên đang dùng nhiều phiên bản rubric khác nhau — không áp hàng loạt được.")

def namedCriterion : BulkRule → Option String
  | .criterionFullMarks criterionId => some criterionId
  | .criterionBonus criterionId _ => some criterionId
  | _ => none

/-- The checks before the loop. -/
def admitCall (db : ReviewDb) (examSessionId teacherId : String) (dto : BulkReviewDto) :
    Except Failure (BulkCall × List GradedRow) := do
  let rule ← (narrowRule dto.rule).mapError narrowFailure
  let rows := listedRows db examSessionId dto.resultIds
  if rows.length ≠ dto.resultIds.length then
    throw (.badRequest "Có bài không thuộc phiên thi này — không áp gì cả.")
  let rubric ← rubricCriteriaOf db rows
  if (namedCriterion rule).any fun id => id ∉ rubric.map RubricMaximum.id then
    throw (.badRequest "Tiêu chí được chọn không thuộc rubric của phiên này.")
  return (⟨teacherId, rule, rubric, dto.privateNote⟩, rows)

def bulkReview (db : ReviewDb) (examSessionId teacherId : String) (dto : BulkReviewDto) :
    Except Failure (ReviewDb × BulkReviewOutcome) := do
  let (call, rows) ← admitCall db examSessionId teacherId dto
  rows.foldlM (bulkStep call) (db, ⟨0, [], 0⟩)

/-- A call of the route, `delay` ticks after the last one. -/
def bulkRequest (db : ReviewDb) (delay : Nat) (examSessionId teacherId : String)
    (dto : BulkReviewDto) : Except Failure BulkReviewOutcome × ReviewDb :=
  match bulkReview (db.begin delay) examSessionId teacherId dto with
  | .ok (db', outcome) => (.ok outcome, db')
  | .error e => (.error e, db.begin delay)

/-! ## One paper -/

/-- What a call may change of one paper. -/
structure PaperView where
  row : Option GradedRow
  reviews : List TeacherReviewRow
  entries : List AuditEntry

def ReviewDb.paper (db : ReviewDb) (id : String) : PaperView :=
  ⟨db.result id, db.reviewsOf id, db.auditLog.filter fun e => e.targetId = id⟩

/-- The view of a paper once a review at `clock` is written. -/
def PaperView.reviewed (call : BulkCall) (r : GradedRow) (criteria : List RuleCriterion)
    (finalScore : ℚ) (clock : Nat) (previousScore : Option ℚ) (v : PaperView) : PaperView where
  row := v.row.map ReviewDb.advanced
  reviews := v.reviews ++ [{ call.reviewOf r criteria finalScore with reviewedAt := clock }]
  entries := v.entries ++
    if r.isPublished then [call.entryOf r previousScore finalScore] else []

section OnePaper

variable {call : BulkCall} {db db' : ReviewDb} {r : GradedRow} {criteria : List RuleCriterion}
  {finalScore : ℚ} {id : String}

theorem reviews_reviewed : (reviewed call db r criteria finalScore).reviews =
    db.reviews ++ [{ call.reviewOf r criteria finalScore with reviewedAt := db.clock }] := by
  unfold reviewed
  dsimp only
  split_ifs <;> rfl

theorem results_reviewed : (reviewed call db r criteria finalScore).results =
    updateRow GradedRow.id db.results r.id ReviewDb.advanced := by
  unfold reviewed
  dsimp only
  split_ifs <;> rfl

theorem auditLog_reviewed : (reviewed call db r criteria finalScore).auditLog = db.auditLog ++
    if r.isPublished then [call.entryOf r (currentFinalScore db r) finalScore] else [] := by
  unfold reviewed
  dsimp only
  split_ifs
  · rfl
  · exact (List.append_nil _).symm

@[simp] theorem criteria_reviewed :
    (reviewed call db r criteria finalScore).criteria = db.criteria := by
  unfold reviewed
  dsimp only
  split_ifs <;> rfl

@[simp] theorem clock_reviewed :
    (reviewed call db r criteria finalScore).clock = db.clock := by
  unfold reviewed
  dsimp only
  split_ifs <;> rfl

theorem paper_reviewed_self : (reviewed call db r criteria finalScore).paper r.id =
    (db.paper r.id).reviewed call r criteria finalScore db.clock (currentFinalScore db r) := by
  unfold ReviewDb.paper PaperView.reviewed ReviewDb.result ReviewDb.reviewsOf
  rw [reviews_reviewed, results_reviewed, auditLog_reviewed, rowOf_updateRow
    ReviewDb.advanced_id, List.filter_append, List.filter_append]
  congr 1
  · cases hrow : rowOf GradedRow.id db.results r.id with
    | none => rfl
    | some row => rw [Option.map_some, Option.map_some, if_pos (rowOf_key hrow)]
  · simp [BulkCall.reviewOf]
  · split_ifs
    · simp [BulkCall.entryOf]
    · rfl

theorem paper_reviewed_ne (h : id ≠ r.id) :
    (reviewed call db r criteria finalScore).paper id = db.paper id := by
  have hne : r.id ≠ id := h.symm
  unfold ReviewDb.paper ReviewDb.result ReviewDb.reviewsOf
  rw [reviews_reviewed, results_reviewed, auditLog_reviewed,
    rowOf_updateRow_ne ReviewDb.advanced_id h, List.filter_append, List.filter_append]
  congr 1
  · simp [BulkCall.reviewOf, hne]
  · split_ifs
    · simp [BulkCall.entryOf, hne]
    · simp

theorem planned_congr (h : db'.reviewsOf r.id = db.reviewsOf r.id) :
    planned call db' r = planned call db r := by
  unfold planned isUnchanged ReviewDb.latestReview
  rw [h]

theorem validateAndTotal_congr (h : db'.criteria = db.criteria) :
    validateAndTotal db' r criteria = validateAndTotal db r criteria := by
  unfold validateAndTotal rubricOf
  rw [h]

theorem reviewScore_congr (h : db'.criteria = db.criteria) :
    reviewScore call db' r criteria = reviewScore call db r criteria := by
  unfold reviewScore
  rw [validateAndTotal_congr h]

theorem currentFinalScore_congr (h : db'.reviewsOf r.id = db.reviewsOf r.id) :
    currentFinalScore db' r = currentFinalScore db r := by
  unfold currentFinalScore
  rw [h]

/-- The paper is skipped as it was, or has one review more. -/
def Done (call : BulkCall) (db db' : ReviewDb) (r : GradedRow) : Prop :=
  match planned call db r with
  | .error _ => db'.paper r.id = db.paper r.id
  | .ok criteria => ∃ finalScore, reviewScore call db r criteria = .ok finalScore ∧
      db'.paper r.id = (db.paper r.id).reviewed call r criteria finalScore db.clock
        (currentFinalScore db r)

/-- The review of the paper is refused. -/
def Refused (call : BulkCall) (db : ReviewDb) (r : GradedRow) : Prop :=
  ∃ criteria e, planned call db r = .ok criteria ∧ reviewScore call db r criteria = .error e

def paperOutcome (call : BulkCall) (db : ReviewDb) (r : GradedRow) : BulkReviewOutcome :=
  match planned call db r with
  | .error reason => ⟨0, [(r.id, reason)], 0⟩
  | .ok _ => ⟨1, [], if r.isPublished then 1 else 0⟩

def BulkReviewOutcome.add (o o' : BulkReviewOutcome) : BulkReviewOutcome :=
  ⟨o.applied + o'.applied, o.skipped ++ o'.skipped, o.audited + o'.audited⟩

theorem refused_congr (hreviews : db'.reviewsOf r.id = db.reviewsOf r.id)
    (hcriteria : db'.criteria = db.criteria) : Refused call db' r ↔ Refused call db r := by
  unfold Refused
  rw [planned_congr hreviews]
  simp only [reviewScore_congr hcriteria]

theorem paperOutcome_congr (h : db'.reviewsOf r.id = db.reviewsOf r.id) :
    paperOutcome call db' r = paperOutcome call db r := by
  unfold paperOutcome
  rw [planned_congr h]

end OnePaper

/-! ## The whole loop -/

/-- What the loop over `rows` leaves of `db`. -/
structure BatchDone (call : BulkCall) (db db' : ReviewDb) (rows : List GradedRow) : Prop where
  papers : ∀ r ∈ rows, Done call db db' r
  others : ∀ id, id ∉ rows.map GradedRow.id → db'.paper id = db.paper id
  criteria : db'.criteria = db.criteria
  clock : db'.clock = db.clock
  results : ∃ f : GradedRow → GradedRow, db'.results = db.results.map f ∧
    ∀ r, f r = r ∨ f r = ReviewDb.advanced r

def batchOutcome (call : BulkCall) (db : ReviewDb) (rows : List GradedRow) :
    BulkReviewOutcome :=
  rows.foldr (fun r o => (paperOutcome call db r).add o) ⟨0, [], 0⟩

section Loop

variable {call : BulkCall} {db db₀ db' : ReviewDb} {r : GradedRow} {rows : List GradedRow}

theorem bulkStep_cases (call : BulkCall) (db : ReviewDb) (o : BulkReviewOutcome) (r : GradedRow) :
    (Refused call db r ∧ ∃ e, bulkStep call (db, o) r = .error e) ∨
      ¬ Refused call db r ∧ ∃ db', BatchDone call db db' [r] ∧
        bulkStep call (db, o) r = .ok (db', o.add (paperOutcome call db r)) := by
  unfold bulkStep Refused paperOutcome
  dsimp only
  cases hplanned : planned call db r with
  | error reason =>
    right
    refine ⟨fun h => ?_, db, ?_, ?_⟩
    · obtain ⟨criteria, e, hok, -⟩ := h
      cases hok
    · refine ⟨fun r' hr' => ?_, fun _ _ => rfl, rfl, rfl, id, (List.map_id _).symm,
        fun _ => Or.inl rfl⟩
      rw [List.mem_singleton.1 hr', Done, hplanned]
    · simp [BulkReviewOutcome.add]
  | ok criteria =>
    unfold reviewWithin
    cases hscore : reviewScore call db r criteria with
    | error e =>
      left
      refine ⟨⟨criteria, e, rfl, hscore⟩, e, ?_⟩
      dsimp only
      rw [hscore]
      rfl
    | ok finalScore =>
      right
      refine ⟨fun h => ?_, reviewed call db r criteria finalScore, ?_, ?_⟩
      · obtain ⟨criteria', e, hok, herror⟩ := h
        cases hok
        rw [hscore] at herror
        cases herror
      · refine ⟨fun r' hr' => ?_, fun id hid => ?_, criteria_reviewed, clock_reviewed, ?_⟩
        · rw [List.mem_singleton.1 hr', Done, hplanned]
          exact ⟨finalScore, hscore, paper_reviewed_self⟩
        · apply paper_reviewed_ne
          rwa [List.map_singleton, List.mem_singleton] at hid
        · refine ⟨fun r' => if r'.id = r.id then ReviewDb.advanced r' else r', results_reviewed,
            fun r' => ?_⟩
          dsimp only
          split_ifs
          · exact Or.inr rfl
          · exact Or.inl rfl
      · dsimp only
        rw [hscore]
        cases hpublished : r.isPublished <;> simp [BulkReviewOutcome.add, bind, Except.bind, pure,
          Except.pure]

theorem batchDone_nil : BatchDone call db db [] where
  papers := fun _ h => absurd h List.not_mem_nil
  others := fun _ _ => rfl
  criteria := rfl
  clock := rfl
  results := ⟨id, (List.map_id _).symm, fun _ => Or.inl rfl⟩

theorem reviewsOf_of_paper {id : String} (h : db'.paper id = db.paper id) :
    db'.reviewsOf id = db.reviewsOf id :=
  congrArg PaperView.reviews h

theorem done_congr (h : db.paper r.id = db₀.paper r.id) (hcriteria : db.criteria = db₀.criteria)
    (hclock : db.clock = db₀.clock) : Done call db db' r ↔ Done call db₀ db' r := by
  have hreviews := reviewsOf_of_paper h
  unfold Done
  rw [planned_congr hreviews, h, hclock]
  simp only [reviewScore_congr hcriteria, currentFinalScore_congr hreviews]

theorem BatchDone.cons {db₁ : ReviewDb} (hfirst : BatchDone call db db₁ [r])
    (hrest : BatchDone call db₁ db' rows) (hfresh : r.id ∉ rows.map GradedRow.id) :
    BatchDone call db db' (r :: rows) where
  papers := by
    intro r' hr'
    cases List.mem_cons.1 hr' with
    | inl heq =>
      subst heq
      have hdone := hfirst.papers r' List.mem_cons_self
      have hpaper := hrest.others r'.id hfresh
      unfold Done at hdone ⊢
      rwa [hpaper]
    | inr hmem =>
      have hne : r'.id ≠ r.id := fun heq => hfresh (heq ▸ List.mem_map_of_mem hmem)
      have hpaper := hfirst.others r'.id (by simpa using hne)
      exact (done_congr hpaper hfirst.criteria hfirst.clock).1 (hrest.papers r' hmem)
  others := by
    intro id hid
    rw [List.map_cons, List.mem_cons, not_or] at hid
    rw [hrest.others id hid.2, hfirst.others id (by simpa using hid.1)]
  criteria := hrest.criteria.trans hfirst.criteria
  clock := hrest.clock.trans hfirst.clock
  results := by
    obtain ⟨f, hf, hfcases⟩ := hfirst.results
    obtain ⟨g, hg, hgcases⟩ := hrest.results
    refine ⟨g ∘ f, by rw [hg, hf, List.map_map], fun r' => ?_⟩
    rw [Function.comp_apply]
    cases hgcases (f r') with
    | inl hsame => rw [hsame]; exact hfcases r'
    | inr hadvanced =>
      right
      rw [hadvanced]
      cases hfcases r' with
      | inl hsame => rw [hsame]
      | inr hadvanced' => rw [hadvanced', ReviewDb.advanced_advanced]

theorem add_assoc (a b c : BulkReviewOutcome) : (a.add b).add c = a.add (b.add c) := by
  simp [BulkReviewOutcome.add, Nat.add_assoc]

theorem foldlM_bulkStep_cases (call : BulkCall) (hnodup : (rows.map GradedRow.id).Nodup)
    (db : ReviewDb) (o : BulkReviewOutcome) :
    ((∃ r ∈ rows, Refused call db r) ∧ ∃ e, rows.foldlM (bulkStep call) (db, o) = .error e) ∨
      (¬ ∃ r ∈ rows, Refused call db r) ∧ ∃ db', BatchDone call db db' rows ∧
        rows.foldlM (bulkStep call) (db, o) = .ok (db', o.add (batchOutcome call db rows)) := by
  induction rows generalizing db o with
  | nil =>
    right
    refine ⟨by simp, db, batchDone_nil, ?_⟩
    simp [batchOutcome, BulkReviewOutcome.add, pure, Except.pure]
  | cons r rows ih =>
    rw [List.map_cons, List.nodup_cons] at hnodup
    rw [List.foldlM_cons]
    cases bulkStep_cases call db o r with
    | inl h =>
      obtain ⟨hrefused, e, herror⟩ := h
      left
      exact ⟨⟨r, List.mem_cons_self, hrefused⟩, e, by rw [herror]; rfl⟩
    | inr h =>
      obtain ⟨hfine, db₁, hfirst, hok⟩ := h
      have hreviews : ∀ r' ∈ rows, db₁.reviewsOf r'.id = db.reviewsOf r'.id := by
        intro r' hr'
        have hne : r'.id ≠ r.id := fun heq => hnodup.1 (heq ▸ List.mem_map_of_mem hr')
        exact reviewsOf_of_paper (hfirst.others r'.id (by simpa using hne))
      have hsame : (∃ r' ∈ rows, Refused call db₁ r') ↔ ∃ r' ∈ r :: rows, Refused call db r' := by
        constructor
        · intro hex
          obtain ⟨r', hr', hrefused⟩ := hex
          exact ⟨r', List.mem_cons_of_mem _ hr',
            (refused_congr (hreviews r' hr') hfirst.criteria).1 hrefused⟩
        · intro hex
          obtain ⟨r', hr', hrefused⟩ := hex
          cases List.mem_cons.1 hr' with
          | inl heq => exact absurd (heq ▸ hrefused) hfine
          | inr hmem =>
            exact ⟨r', hmem, (refused_congr (hreviews r' hmem) hfirst.criteria).2 hrefused⟩
      have houtcome : batchOutcome call db₁ rows = batchOutcome call db rows := by
        unfold batchOutcome
        apply List.foldr_ext
        intro r' hr' _
        rw [paperOutcome_congr (hreviews r' hr')]
      rw [hok]
      cases ih hnodup.2 db₁ (o.add (paperOutcome call db r)) with
      | inl h =>
        left
        exact ⟨hsame.1 h.1, h.2⟩
      | inr h =>
        obtain ⟨hnone, db', hrest, hrun⟩ := h
        right
        refine ⟨fun hex => hnone (hsame.2 hex), db', hfirst.cons hrest hnodup.1, ?_⟩
        rw [houtcome, add_assoc] at hrun
        exact hrun

end Loop

/-! ## The same call again -/

section Again

variable {call : BulkCall} {db db' : ReviewDb} {r r' : GradedRow} {rows : List GradedRow}
  {criteria : List RuleCriterion} {finalScore : ℚ}

/-- The row as the next call reads it. -/
def Later (r r' : GradedRow) : Prop := r' = r ∨ r' = ReviewDb.advanced r

theorem Later.id_eq (h : Later r r') : r'.id = r.id := by
  cases h with
  | inl heq => rw [heq]
  | inr heq => rw [heq, ReviewDb.advanced_id]

theorem isReviewable_advanced : (ReviewDb.advanced r).isReviewable = r.isReviewable := by
  unfold ReviewDb.advanced
  split_ifs with h
  · have hstatus : r.status ∈ reviewableStatuses := by
      cases h with
      | inl hauto => rw [hauto]; decide
      | inr hflagged => rw [hflagged]; decide
    have hreviewed : ResultStatus.teacherReviewed ∈ reviewableStatuses := by decide
    simp [GradedRow.isReviewable, hstatus, hreviewed]
  · rfl

theorem planned_advanced : planned call db (ReviewDb.advanced r) = planned call db r := by
  have hinput : call.inputOf (ReviewDb.advanced r) = call.inputOf r := by
    unfold ReviewDb.advanced
    split_ifs <;> rfl
  unfold planned isUnchanged
  rw [isReviewable_advanced, hinput, ReviewDb.advanced_id]

theorem Later.planned_eq (h : Later r r') : planned call db r' = planned call db r := by
  cases h with
  | inl heq => rw [heq]
  | inr heq => rw [heq, planned_advanced]

theorem latestReview_concat {t : TeacherReviewRow}
    (hreviews : db'.reviewsOf r.id = db.reviewsOf r.id ++ [t])
    (hlater : ∀ t' ∈ db.reviewsOf r.id, t'.reviewedAt < t.reviewedAt) :
    db'.latestReview r.id = some t := by
  unfold ReviewDb.latestReview
  rw [hreviews, List.argmax_concat]
  cases hbest : (db.reviewsOf r.id).argmax TeacherReviewRow.reviewedAt with
  | none => rfl
  | some best => exact if_pos (hlater best (List.argmax_mem hbest))

theorem sameReview_reviewOf (hnodup : (criteria.map RuleCriterion.criterionId).Nodup)
    (clock : Nat) :
    sameReview criteria call.privateNote
      { call.reviewOf r criteria finalScore with reviewedAt := clock } = true := by
  have hfound : ∀ row ∈ criteria, (OrderedMap.ofList (criteria.map fun row =>
      (row.criterionId, row))).get? row.criterionId = some row := by
    intro row hrow
    have hkeys : ((criteria.map fun row => (row.criterionId, row)).map Prod.fst).Nodup := by
      rwa [List.map_map]
    rw [OrderedMap.get?_ofList_of_nodup hkeys]
    exact List.mem_map_of_mem (f := fun row : RuleCriterion => (row.criterionId, row)) hrow
  unfold sameReview BulkCall.reviewOf
  simp only [decide_true, Bool.true_and, Bool.and_true, List.all_eq_true]
  intro row hrow
  rw [hfound row hrow]
  simp

theorem criterionId_applyRule {rule : BulkRule} {input : RuleInput}
    (h : applyRule rule input = .ok criteria) :
    criteria.map RuleCriterion.criterionId = input.rubricCriteria.map RubricMaximum.id := by
  unfold applyRule at h
  split_ifs at h
  cases h
  rw [List.map_map]
  apply List.map_congr_left
  intro c _
  rw [Function.comp_apply]
  unfold RuleInput.ruledCriterion
  cases rule with
  | keepAi => rfl
  | applyAdvocate => dsimp only; split <;> rfl
  | criterionFullMarks id => dsimp only; split_ifs <;> rfl
  | criterionBonus id bonus => dsimp only; split_ifs <;> rfl

theorem applyRule_of_planned (h : planned call db r = .ok criteria) :
    applyRule call.rule (call.inputOf r) = .ok criteria := by
  unfold planned at h
  split_ifs at h
  split at h
  · cases h
  · rename_i criteria' hrule
    split_ifs at h
    cases h
    exact hrule

theorem planned_settled (hrubric : (call.rubric.map RubricMaximum.id).Nodup)
    (hbefore : ∀ t ∈ db.reviews, t.reviewedAt < db.clock) (hdone : Done call db db' r)
    (hlater : Later r r') : ∃ reason, planned call db' r' = .error reason := by
  rw [hlater.planned_eq]
  unfold Done at hdone
  cases hplanned : planned call db r with
  | error reason =>
    rw [hplanned] at hdone
    exact ⟨reason, (planned_congr (reviewsOf_of_paper hdone)).trans hplanned⟩
  | ok criteria =>
    rw [hplanned] at hdone
    obtain ⟨finalScore, -, hpaper⟩ := hdone
    have hrule := applyRule_of_planned hplanned
    have hnodup : (criteria.map RuleCriterion.criterionId).Nodup := by
      rw [criterionId_applyRule hrule]
      exact hrubric
    have hlatest : db'.latestReview r.id =
        some { call.reviewOf r criteria finalScore with reviewedAt := db.clock } := by
      apply latestReview_concat (congrArg PaperView.reviews hpaper)
      intro t ht
      exact hbefore t (List.mem_of_mem_filter ht)
    unfold planned at hplanned ⊢
    split_ifs at hplanned ⊢ with hreviewable
    rw [hrule]
    have hunchanged : isUnchanged db' r criteria call.privateNote = true := by
      unfold isUnchanged
      rw [hlatest]
      exact sameReview_reviewOf hnodup db.clock
    exact ⟨.unchanged, if_pos hunchanged⟩

theorem foldlM_skipped (hskip : ∀ r ∈ rows, ∃ reason, planned call db r = .error reason)
    (o : BulkReviewOutcome) :
    ∃ skipped, rows.foldlM (bulkStep call) (db, o) =
      .ok (db, { o with skipped := o.skipped ++ skipped }) := by
  induction rows generalizing o with
  | nil => exact ⟨[], by simp [pure, Except.pure]⟩
  | cons r rows ih =>
    obtain ⟨reason, hreason⟩ := hskip r List.mem_cons_self
    obtain ⟨skipped, hrun⟩ := ih (fun r' hr' => hskip r' (List.mem_cons_of_mem _ hr'))
      { o with skipped := o.skipped ++ [(r.id, reason)] }
    refine ⟨(r.id, reason) :: skipped, ?_⟩
    have hstep : bulkStep call (db, o) r =
        .ok (db, { o with skipped := o.skipped ++ [(r.id, reason)] }) := by
      unfold bulkStep
      rw [hreason]
    rw [List.foldlM_cons, hstep]
    refine hrun.trans ?_
    simp

end Again

/-! ## The checks before the loop -/

section Admit

variable {db db' : ReviewDb} {examSessionId teacherId : String} {dto : BulkReviewDto}
  {call : BulkCall} {rows : List GradedRow} {f : GradedRow → GradedRow}

theorem Later.session_eq {r r' : GradedRow} (h : Later r r') :
    r'.examSessionId = r.examSessionId ∧ r'.rubricIdVersion = r.rubricIdVersion := by
  cases h with
  | inl heq => rw [heq]; exact ⟨rfl, rfl⟩
  | inr heq =>
    rw [heq]
    unfold ReviewDb.advanced
    split_ifs <;> exact ⟨rfl, rfl⟩

theorem listedRows_later (hresults : db'.results = db.results.map f) (hf : ∀ r, Later r (f r))
    (examSessionId : String) (resultIds : List String) :
    listedRows db' examSessionId resultIds = (listedRows db examSessionId resultIds).map f := by
  unfold listedRows
  rw [map_sortByKey fun r => (hf r).id_eq, hresults, List.filter_map]
  congr 2
  apply List.filter_congr
  intro r _
  rw [Function.comp_apply, (hf r).id_eq, (hf r).session_eq.1]

theorem admit_later (hresults : db'.results = db.results.map f) (hf : ∀ r, Later r (f r))
    (hcriteria : db'.criteria = db.criteria) :
    admitCall db' examSessionId teacherId dto =
      (admitCall db examSessionId teacherId dto).map fun p => (p.1, p.2.map f) := by
  have hversions : (fun r => GradedRow.rubricIdVersion (f r)) = GradedRow.rubricIdVersion :=
    funext fun r => (hf r).session_eq.2
  have hrubric : ∀ l : List GradedRow, rubricCriteriaOf db' (l.map f) = rubricCriteriaOf db l := by
    intro l
    unfold rubricCriteriaOf rubricOf
    rw [List.map_map, hcriteria, Function.comp_def, hversions]
  unfold admitCall
  dsimp only
  rw [listedRows_later hresults hf, List.length_map, hrubric]
  cases (narrowRule dto.rule).mapError narrowFailure with
  | error e => rfl
  | ok rule =>
    cases rubricCriteriaOf db (listedRows db examSessionId dto.resultIds) with
    | error e =>
      show (if _ then _ else _) = Except.map _ (if _ then _ else _)
      split_ifs <;> rfl
    | ok rubric =>
      show (if _ then _ else _) = Except.map _ (if _ then _ else _)
      split_ifs
      · rfl
      · show (if _ then _ else _) = Except.map _ (if _ then _ else _)
        split_ifs <;> rfl

theorem nodup_rubricOf (db : ReviewDb) (rubricId : String) :
    ((rubricOf db rubricId).map RubricMaximum.id).Nodup := by
  unfold rubricOf
  rw [List.map_map]
  exact (List.filter_sublist.map RubricCriterionRow.id).nodup db.criterionIds

/-- What the checks give a call. -/
structure Admitted (db : ReviewDb) (examSessionId teacherId : String) (dto : BulkReviewDto)
    (call : BulkCall) (rows : List GradedRow) : Prop where
  listed : rows = listedRows db examSessionId dto.resultIds
  length : rows.length = dto.resultIds.length
  teacher : call.teacherId = teacherId
  rule : narrowRule dto.rule = .ok call.rule
  rubric : ∃ version, call.rubric = rubricOf db version ∧ ∀ r ∈ rows, r.rubricIdVersion = version
  note : call.privateNote = dto.privateNote

theorem rubricCriteriaOf_ok {rubric : List RubricMaximum}
    (h : rubricCriteriaOf db rows = .ok rubric) :
    ∃ version, rubric = rubricOf db version ∧ ∀ r ∈ rows, r.rubricIdVersion = version := by
  unfold rubricCriteriaOf at h
  split at h
  · rename_i version hversions
    cases h
    refine ⟨version, rfl, fun r hr => ?_⟩
    have hmem : r.rubricIdVersion ∈ (rows.map GradedRow.rubricIdVersion).eraseDups :=
      List.mem_eraseDups.2 (List.mem_map_of_mem hr)
    rw [hversions] at hmem
    exact List.mem_singleton.1 hmem
  · cases h

theorem admitted_of_ok (h : admitCall db examSessionId teacherId dto = .ok (call, rows)) :
    Admitted db examSessionId teacherId dto call rows := by
  unfold admitCall at h
  obtain ⟨rule, hrule, h⟩ := bind_eq_ok.1 h
  dsimp only at h
  split_ifs at h with hlength
  · obtain ⟨_, hthrow, -⟩ := bind_eq_ok.1 h
    exact absurd hthrow throw_ne_ok
  · obtain ⟨rubric, hrubric, h⟩ := bind_eq_ok.1 h
    split_ifs at h with hnamed
    · obtain ⟨_, hthrow, -⟩ := bind_eq_ok.1 h
      exact absurd hthrow throw_ne_ok
    · cases h
      refine ⟨rfl, not_not.1 hlength, rfl, ?_, rubricCriteriaOf_ok hrubric, rfl⟩
      cases hnarrow : narrowRule dto.rule with
      | error e =>
        rw [hnarrow] at hrule
        cases hrule
      | ok rule' =>
        rw [hnarrow] at hrule
        cases hrule
        rfl

theorem nodup_listedRows (db : ReviewDb) (examSessionId : String) (resultIds : List String) :
    ((listedRows db examSessionId resultIds).map GradedRow.id).Nodup := by
  apply nodup_sortByKey
  exact (List.filter_sublist.map GradedRow.id).nodup db.ids

theorem mem_listedRows {r : GradedRow} {resultIds : List String}
    (h : r ∈ listedRows db examSessionId resultIds) :
    r ∈ db.results ∧ r.examSessionId = examSessionId ∧ r.id ∈ resultIds := by
  rw [listedRows, mem_sortByKey, List.mem_filter, decide_eq_true_iff] at h
  exact h

theorem Admitted.perm (h : Admitted db examSessionId teacherId dto call rows) :
    (rows.map GradedRow.id).Perm dto.resultIds := by
  rw [h.listed]
  have hsub : (listedRows db examSessionId dto.resultIds).map GradedRow.id ⊆ dto.resultIds := by
    intro id hid
    obtain ⟨r, hr, rfl⟩ := List.mem_map.1 hid
    exact (mem_listedRows hr).2.2
  have hsubperm := List.subperm_of_subset (nodup_listedRows db examSessionId dto.resultIds) hsub
  apply hsubperm.perm_of_length_le
  rw [List.length_map, ← h.listed, h.length]

end Admit

/-! ## Two calls -/

/-- The tables are as they were; only the clock went on. -/
structure SameTables (db db' : ReviewDb) : Prop where
  results : db'.results = db.results
  criteria : db'.criteria = db.criteria
  reviews : db'.reviews = db.reviews
  auditLog : db'.auditLog = db.auditLog

/-- A listed result is skipped with a reason and untouched, or it has one new review with the
criteria of the rule. -/
inductive Fate (call : BulkCall) (db db' : ReviewDb) (o : BulkReviewOutcome) (r : GradedRow) : Prop
  | skipped (reason : SkipReason) (told : (r.id, reason) ∈ o.skipped)
      (same : db'.paper r.id = db.paper r.id)
  | reviewed (criteria : List RuleCriterion) (finalScore : ℚ)
      (rule : applyRule call.rule (call.inputOf r) = .ok criteria)
      (review : db'.reviewsOf r.id = db.reviewsOf r.id ++
        [{ call.reviewOf r criteria finalScore with reviewedAt := db.clock }])
      (view : db'.paper r.id = (db.paper r.id).reviewed call r criteria finalScore db.clock
        (currentFinalScore db r))

/-- What a call leaves of the tables `db`: all of them, or one fate for each listed result. -/
def Atomic (db : ReviewDb) (examSessionId teacherId : String) (dto : BulkReviewDto) :
    Except Failure BulkReviewOutcome × ReviewDb → Prop
  | (.error _, db') => SameTables db db'
  | (.ok o, db') => ∃ call rows, Admitted db examSessionId teacherId dto call rows ∧
      (rows.map GradedRow.id).Perm dto.resultIds ∧
      (∀ r ∈ rows, Fate call db db' o r) ∧
      (∀ id, id ∉ dto.resultIds → db'.paper id = db.paper id) ∧
      db'.criteria = db.criteria ∧ o = batchOutcome call db rows

/-- The second of two calls writes nothing, and is refused only if the first one was. -/
def Repeated (first second : Except Failure BulkReviewOutcome × ReviewDb) : Prop :=
  SameTables first.2 second.2 ∧
    match first.1, second.1 with
    | .error _, .error _ => True
    | .ok _, .ok o => o.applied = 0 ∧ o.audited = 0
    | _, _ => False

section Calls

variable {db : ReviewDb} {examSessionId teacherId : String} {dto : BulkReviewDto}
  {call : BulkCall} {rows : List GradedRow}

theorem sameTables_begin (db : ReviewDb) (delay : Nat) : SameTables db (db.begin delay) :=
  ⟨rfl, rfl, rfl, rfl⟩

theorem mem_skipped_batchOutcome {r : GradedRow} {reason : SkipReason} (hr : r ∈ rows)
    (h : planned call db r = .error reason) :
    (r.id, reason) ∈ (batchOutcome call db rows).skipped := by
  induction rows with
  | nil => cases hr
  | cons r' rows ih =>
    apply List.mem_append.2
    cases List.mem_cons.1 hr with
    | inl heq =>
      left
      rw [← heq, paperOutcome, h]
      exact List.mem_singleton.2 rfl
    | inr hmem => exact Or.inr (ih hmem)

theorem fate_of_done {db' : ReviewDb} {r : GradedRow} (hr : r ∈ rows)
    (hdone : Done call db db' r) : Fate call db db' (batchOutcome call db rows) r := by
  unfold Done at hdone
  cases hplanned : planned call db r with
  | error reason =>
    rw [hplanned] at hdone
    exact .skipped reason (mem_skipped_batchOutcome hr hplanned) hdone
  | ok criteria =>
    rw [hplanned] at hdone
    obtain ⟨finalScore, -, hview⟩ := hdone
    exact .reviewed criteria finalScore (applyRule_of_planned hplanned)
      (congrArg PaperView.reviews hview) hview

/-- The checks or one of the papers refuse the call. -/
def Fails (db : ReviewDb) (examSessionId teacherId : String) (dto : BulkReviewDto) : Prop :=
  (∃ e, admitCall db examSessionId teacherId dto = .error e) ∨
    ∃ call rows, admitCall db examSessionId teacherId dto = .ok (call, rows) ∧
      ∃ r ∈ rows, Refused call db r

theorem bulkReview_cases (db : ReviewDb) (examSessionId teacherId : String) (dto : BulkReviewDto) :
    (Fails db examSessionId teacherId dto ∧
      ∃ e, bulkReview db examSessionId teacherId dto = .error e) ∨
    ¬ Fails db examSessionId teacherId dto ∧
      ∃ call rows db', admitCall db examSessionId teacherId dto = .ok (call, rows) ∧
        BatchDone call db db' rows ∧
        bulkReview db examSessionId teacherId dto = .ok (db', batchOutcome call db rows) := by
  unfold Fails bulkReview
  cases hcall : admitCall db examSessionId teacherId dto with
  | error e => exact Or.inl ⟨Or.inl ⟨e, rfl⟩, e, rfl⟩
  | ok p =>
    obtain ⟨call, rows⟩ := p
    have hnodup : (rows.map GradedRow.id).Nodup := by
      rw [(admitted_of_ok hcall).listed]
      exact nodup_listedRows db examSessionId dto.resultIds
    cases foldlM_bulkStep_cases call hnodup db ⟨0, [], 0⟩ with
    | inl h =>
      obtain ⟨hrefused, e, hrun⟩ := h
      exact Or.inl ⟨Or.inr ⟨call, rows, rfl, hrefused⟩, e, hrun⟩
    | inr h =>
      obtain ⟨hnone, db', hdone, hrun⟩ := h
      refine Or.inr ⟨fun hfails => ?_, call, rows, db', rfl, hdone, hrun.trans ?_⟩
      · cases hfails with
        | inl h =>
          obtain ⟨e, herror⟩ := h
          cases herror
        | inr h =>
          obtain ⟨call', rows', hok, hrefused⟩ := h
          cases hok
          exact hnone hrefused
      · simp [BulkReviewOutcome.add]

theorem bulkRequest_atomic (db : ReviewDb) (delay : Nat) (examSessionId teacherId : String)
    (dto : BulkReviewDto) :
    Atomic (db.begin delay) examSessionId teacherId dto
      (bulkRequest db delay examSessionId teacherId dto) := by
  unfold bulkRequest
  cases bulkReview_cases (db.begin delay) examSessionId teacherId dto with
  | inl h =>
    obtain ⟨-, e, hrun⟩ := h
    rw [hrun]
    exact ⟨rfl, rfl, rfl, rfl⟩
  | inr h =>
    obtain ⟨-, call, rows, db', hcall, hdone, hrun⟩ := h
    have hadmitted := admitted_of_ok hcall
    rw [hrun]
    refine ⟨call, rows, hadmitted, hadmitted.perm, fun r hr => fate_of_done hr (hdone.papers r hr),
      fun id hid => hdone.others id fun hmem => hid (hadmitted.perm.subset hmem), hdone.criteria,
      rfl⟩

theorem fails_begin {delay : Nat} : Fails (db.begin delay) examSessionId teacherId dto ↔
    Fails db examSessionId teacherId dto := by
  have hrefused : ∀ call r, Refused call (db.begin delay) r ↔ Refused call db r :=
    fun _ _ => refused_congr rfl rfl
  unfold Fails
  simp only [hrefused]
  exact Iff.rfl

theorem skipped_again {db' : ReviewDb} (hbefore : ∀ t ∈ db.reviews, t.reviewedAt < db.clock)
    (hcall : admitCall db examSessionId teacherId dto = .ok (call, rows))
    (hdone : BatchDone call db db' rows) (delay : Nat) :
    ∃ skipped, bulkReview (db'.begin delay) examSessionId teacherId dto =
      .ok (db'.begin delay, ⟨0, skipped, 0⟩) := by
  obtain ⟨f, hresults, hf⟩ := hdone.results
  have hlater : admitCall (db'.begin delay) examSessionId teacherId dto =
      (admitCall db examSessionId teacherId dto).map fun p => (p.1, p.2.map f) :=
    admit_later hresults hf hdone.criteria
  have hagain : admitCall (db'.begin delay) examSessionId teacherId dto = .ok (call, rows.map f) := by
    rw [hlater, hcall]
    rfl
  have hrubric : (call.rubric.map RubricMaximum.id).Nodup := by
    obtain ⟨version, heq, -⟩ := (admitted_of_ok hcall).rubric
    rw [heq]
    exact nodup_rubricOf db version
  have hskip : ∀ r' ∈ rows.map f, ∃ reason,
      planned call (db'.begin delay) r' = .error reason := by
    intro r' hr'
    obtain ⟨r, hr, rfl⟩ := List.mem_map.1 hr'
    exact planned_settled hrubric hbefore (hdone.papers r hr) (hf r)
  obtain ⟨skipped, hrun⟩ := foldlM_skipped hskip ⟨0, [], 0⟩
  refine ⟨skipped, ?_⟩
  unfold bulkReview
  rw [hagain]
  exact hrun

theorem bulkRequest_repeated (db : ReviewDb) (delay delay' : Nat)
    (examSessionId teacherId : String) (dto : BulkReviewDto) :
    Repeated (bulkRequest db delay examSessionId teacherId dto)
      (bulkRequest (bulkRequest db delay examSessionId teacherId dto).2 delay' examSessionId
        teacherId dto) := by
  have hbefore : ∀ t ∈ (db.begin delay).reviews, t.reviewedAt < (db.begin delay).clock := by
    intro t ht
    have hpast := db.past t ht
    show t.reviewedAt < db.clock + delay + 1
    omega
  unfold bulkRequest
  cases bulkReview_cases (db.begin delay) examSessionId teacherId dto with
  | inl h =>
    obtain ⟨hfails, e, hrun⟩ := h
    rw [hrun]
    dsimp only
    cases bulkReview_cases ((db.begin delay).begin delay') examSessionId teacherId dto with
    | inl h =>
      obtain ⟨-, e', hagain⟩ := h
      rw [hagain]
      exact ⟨sameTables_begin _ _, trivial⟩
    | inr h => exact absurd (fails_begin.2 hfails) h.1
  | inr h =>
    obtain ⟨-, call, rows, db', hcall, hdone, hrun⟩ := h
    rw [hrun]
    dsimp only
    obtain ⟨skipped, hagain⟩ := skipped_again hbefore hcall hdone delay'
    rw [hagain]
    exact ⟨sameTables_begin _ _, rfl, rfl⟩

end Calls

/-- A bulk review does every listed result or none, and the same call again writes nothing. -/
theorem bulkReview_atomic_again (db : ReviewDb) (delay delay' : Nat)
    (examSessionId teacherId : String) (dto : BulkReviewDto) :
    Atomic (db.begin delay) examSessionId teacherId dto
        (bulkRequest db delay examSessionId teacherId dto) ∧
      Repeated (bulkRequest db delay examSessionId teacherId dto)
        (bulkRequest (bulkRequest db delay examSessionId teacherId dto).2 delay' examSessionId
          teacherId dto) :=
  ⟨bulkRequest_atomic db delay examSessionId teacherId dto,
    bulkRequest_repeated db delay delay' examSessionId teacherId dto⟩

end Cine.Grading.Bulk
