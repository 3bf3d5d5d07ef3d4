import Cine.Grading.Gradebook.BoardTotal
import Mathlib.Data.List.Find

/-!
# The board and the grade book

With several questions the export of a whole session takes the totals of
the board.  With one question it folds the rows of the submissions instead,
and a submission without a result is a row too.  `agrees_iff` says when the
two agree nevertheless.
-/

namespace Cine.Grading

open Cine.Lib

variable {K : Type}

/-! ## The fold of the submission rows -/

section Fold

/-- What a student is given whose rows are `rows`. -/
def foldedOutcome (absent : StudentOutcome) : List PlanStudent → StudentOutcome
  | [] => absent
  | [r] => r.outcome
  | _ => .conflict conflictReason

/-- Every student is stored under the own number in lower case. -/
def KeyedByMssv (m : OrderedMap String PlanStudent) : Prop :=
  ∀ k s, m.get? k = some s → lowerCase s.mssv = k

variable {start : OrderedMap String PlanStudent}

theorem foldStep_keyed {acc : OrderedMap String PlanStudent × List String} (r : PlanStudent)
    (h : KeyedByMssv acc.1) : KeyedByMssv (foldStep acc r).1 := by
  intro k s hs
  unfold foldStep at hs
  dsimp only at hs
  rw [OrderedMap.get?_set] at hs
  by_cases hk : k = lowerCase r.mssv
  · rw [if_pos hk] at hs
    cases hs
    show lowerCase (((acc.1.get? (lowerCase r.mssv)).map PlanStudent.mssv).getD r.mssv) = k
    rw [hk]
    cases hknown : acc.1.get? (lowerCase r.mssv) with
    | none => rfl
    | some known => exact h _ _ hknown
  · rw [if_neg hk] at hs
    exact h k s hs

theorem fold_keyed (h : KeyedByMssv start) (results : List PlanStudent) :
    KeyedByMssv (results.foldl foldStep (start, [])).1 := by
  induction results using List.reverseRecOn with
  | nil => exact h
  | append_singleton results r ih =>
    rw [List.foldl_append]
    exact foldStep_keyed r ih

theorem mem_seen (results : List PlanStudent) (k : String) :
    k ∈ (results.foldl foldStep (start, [])).2 ↔
      (results.filter fun r => lowerCase r.mssv = k) ≠ [] := by
  induction results using List.reverseRecOn with
  | nil => simp
  | append_singleton results r ih =>
    rw [List.foldl_append, List.filter_append]
    show k ∈ lowerCase r.mssv :: _ ↔ _
    rw [List.mem_cons, ih]
    by_cases hk : lowerCase r.mssv = k
    · simp [hk]
    · simp [hk, Ne.symm hk]

theorem get?_fold_rows (absent : StudentOutcome) (results : List PlanStudent) (k : String) :
    ((results.foldl foldStep (start, [])).1.get? k).map PlanStudent.outcome =
      if (results.filter fun r => lowerCase r.mssv = k) = [] then
        (start.get? k).map PlanStudent.outcome
      else some (foldedOutcome absent (results.filter fun r => lowerCase r.mssv = k)) := by
  induction results using List.reverseRecOn with
  | nil => rfl
  | append_singleton results r ih =>
    rw [List.foldl_append, List.filter_append]
    show ((OrderedMap.set _ (lowerCase r.mssv) _).get? k).map PlanStudent.outcome = _
    rw [OrderedMap.get?_set]
    by_cases hk : lowerCase r.mssv = k
    · have hone : ([r].filter fun r => lowerCase r.mssv = k) = [r] := by simp [hk]
      rw [if_pos hk.symm, Option.map_some, hone,
        if_neg (List.append_ne_nil_of_right_ne_nil _ (List.cons_ne_nil r []))]
      dsimp only
      rw [hk]
      by_cases hseen : (results.filter fun r => lowerCase r.mssv = k) = []
      · rw [if_neg fun h => (mem_seen results k).1 h hseen, hseen]
        rfl
      · rw [if_pos ((mem_seen results k).2 hseen)]
        obtain ⟨x, rest, hx⟩ := List.exists_cons_of_ne_nil hseen
        rw [hx]
        cases rest <;> rfl
    · have hnil : ([r].filter fun r => lowerCase r.mssv = k) = [] := by simp [hk]
      rw [if_neg (Ne.symm hk), hnil, List.append_nil]
      exact ih

theorem get?_fold {k : String} {first : PlanStudent} (hfirst : start.get? k = some first)
    (results : List PlanStudent) :
    ((results.foldl foldStep (start, [])).1.get? k).map PlanStudent.outcome =
      some (foldedOutcome first.outcome (results.filter fun r => lowerCase r.mssv = k)) := by
  rw [get?_fold_rows first.outcome, hfirst]
  split_ifs with hnil
  · rw [hnil]
    rfl
  · rfl

theorem find?_values {m : OrderedMap String PlanStudent} (h : KeyedByMssv m) (k : String) :
    (m.values.find? fun s => lowerCase s.mssv = k) = m.get? k := by
  rw [OrderedMap.values, List.find?_map, OrderedMap.get?]
  congr 1
  refine List.find?_congr fun e he => ?_
  rw [Function.comp_apply, h e.1 e.2 (OrderedMap.get?_of_mem_entries he)]

end Fold

/-! ## What the export gives a student -/

namespace Db

variable (db : Db K) (t : GradebookTables) (sessionId : String)

/-- What the export of a whole session gives a student. -/
def exportOutcome (mssv : String) : Option StudentOutcome :=
  ((db.loadStudents t sessionId none).1.find? fun s =>
    lowerCase s.mssv = lowerCase mssv).map PlanStudent.outcome

def resultsOf (s : SubmissionRow) : List ResultRow :=
  db.results.filter fun g => g.submissionId = s.id

/-- What the board and the export of the session say of a student of the
roster. -/
structure Agrees (r : RosterRow) : Prop where
  board : ∀ h, db.boardTotal t sessionId r.mssv = some (.final h) ↔
    db.FinalTotal sessionId r.mssv h
  gradebook : ∀ h, (∃ computationId source, db.exportOutcome t sessionId r.mssv =
      some (.scored h computationId source)) ↔ db.FinalTotal sessionId r.mssv h

/-- In a session with one question, a student whose only result is published
with a score has no other submission. -/
def OneSubmission (r : RosterRow) : Prop :=
  (db.orderedProblems sessionId).length = 1 →
    ∀ g x, (db.submissionsOf sessionId r.mssv).flatMap db.resultsOf = [g] →
      db.HasPublishedScore g x → (db.submissionsOf sessionId r.mssv).length = 1

end Db

section Export

variable {db : Db K} {t : GradebookTables} {sessionId : String}

variable {h : Int} {mssv : String} {r : RosterRow}

theorem outcomeOf_scored_iff {name : String} {g : ResultRow} :
    (∃ computationId source, outcomeOf ⟨mssv, name, some (db.scoreColumns g)⟩ =
      .scored h computationId source) ↔ db.HasPublishedScore g h := by
  rw [hasPublishedScore_iff]
  unfold outcomeOf
  dsimp only [Option.map_some, Option.bind_some]
  cases blankReasonOf (some (db.scoreColumns g).status) (db.scoreColumns g).ungradableClass with
  | some reason =>
    constructor
    · rintro ⟨_, _, heq⟩
      cases heq
    · rintro ⟨heq, _⟩
      cases heq
  | none =>
    cases hpicked : pickScore (db.scoreColumns g).input with
    | none =>
      constructor
      · rintro ⟨_, _, heq⟩
        cases heq
      · rintro ⟨_, heq⟩
        cases heq
    | some picked =>
      constructor
      · rintro ⟨_, _, heq⟩
        cases heq
        exact ⟨rfl, rfl⟩
      · rintro ⟨_, heq⟩
        cases heq
        exact ⟨_, _, rfl⟩

theorem length_orderedProblems :
    (db.orderedProblems sessionId).length =
      (db.problems.filter fun p => p.sessionId = sessionId).length :=
  (perm_sortByKey _).length_eq

theorem exportOutcome_of_many (hsound : t.Sound db sessionId)
    (hmany : 1 < (db.orderedProblems sessionId).length) (hr : r ∈ t.roster)
    (hsession : r.sessionId = sessionId) :
    db.exportOutcome t sessionId r.mssv =
      some (totalOutcome (some (rosterTotal db sessionId r))
        (lowerCase r.mssv ∈ (db.submissionResultRows t sessionId none).map
          fun row => lowerCase row.mssv)) := by
  have hproblems : db.orderedProblems sessionId ≠ [] := by
    intro hnil
    rw [hnil] at hmany
    cases hmany
  rw [length_orderedProblems] at hmany
  unfold Db.exportOutcome Db.loadStudents
  dsimp only
  rw [if_pos ⟨rfl, hmany⟩, List.find?_map]
  have hfound : rowOf (fun r : RosterRow => lowerCase r.mssv)
      (t.roster.filter fun r' => r'.sessionId = sessionId) (lowerCase r.mssv) = some r :=
    rowOf_of_mem hsound.roster (List.mem_filter.2 ⟨hr, decide_eq_true hsession⟩)
  rw [rowOf] at hfound
  show Option.map _ (Option.map _ ((t.roster.filter fun r' => r'.sessionId = sessionId).find?
    (fun r' => lowerCase r'.mssv = lowerCase r.mssv))) = _
  rw [hfound, Option.map_some, Option.map_some,
    loadStudentTotals_get hsound hproblems hr hsession]

theorem submission_of_finalTotal (hproblems : db.orderedProblems sessionId ≠ [])
    (hfinal : db.FinalTotal sessionId mssv h) :
    lowerCase mssv ∈
      (db.submissionResultRows t sessionId none).map fun row => lowerCase row.mssv := by
  obtain ⟨score, hscore, _⟩ := hfinal
  obtain ⟨p, rest, hp⟩ := List.exists_cons_of_ne_nil hproblems
  obtain ⟨g, hg, _⟩ := hscore p (hp ▸ List.mem_cons_self)
  have hmem : g ∈ db.resultsFor sessionId mssv p := by
    rw [hg]
    exact List.mem_singleton_self g
  obtain ⟨s, hs, _⟩ := List.mem_flatMap.1 hmem
  obtain ⟨hs, hsel⟩ := List.mem_filter.1 hs
  obtain ⟨hsid, hmssv⟩ := of_decide_eq_true hsel
  obtain ⟨row, rows, hrow⟩ := List.exists_cons_of_ne_nil
    (leftJoin_ne_nil (db.results.filter fun g => g.submissionId = s.id))
  rw [← hmssv]
  refine List.mem_map.2 ⟨⟨s.studentMssv, t.nameInput s.id, row.map db.scoreColumns⟩, ?_, rfl⟩
  refine List.mem_flatMap.2 ⟨s, List.mem_filter.2 ⟨hs, by simp [hsid]⟩, ?_⟩
  rw [hrow]
  exact List.mem_cons_self

/-! ### A session with one question -/

theorem length_resultsOf (hsound : t.Sound db sessionId) (s : SubmissionRow) :
    (db.resultsOf s).length ≤ 1 := by
  rw [Db.resultsOf, ← List.countP_eq_length_filter]
  have hcount := List.nodup_iff_count_le_one.1 hsound.oneResult s.id
  rw [List.count, List.countP_map] at hcount
  refine le_trans (le_of_eq (List.countP_congr fun g _ => ?_)) hcount
  simp

theorem resultsOfProblem_eq (hsound : t.Sound db sessionId) {p : ProblemRow}
    (hone : db.orderedProblems sessionId = [p]) {s : SubmissionRow} (hs : s ∈ db.submissions)
    (hsession : s.sessionId = sessionId) : db.resultsOfProblem p s = db.resultsOf s := by
  have honly {q : ProblemRow} (hq : q ∈ db.problems) (hqs : q.sessionId = sessionId) : q = p := by
    have := mem_orderedProblems.2 ⟨hq, hqs⟩
    rw [hone] at this
    exact List.mem_singleton.1 this
  obtain ⟨hp, hps⟩ := mem_orderedProblems.1 (hone ▸ List.mem_singleton_self p)
  obtain ⟨q, hq, hqs, hfirst⟩ := hsound.first p hp hps
  rw [honly hq hqs] at hfirst
  refine List.filter_congr fun g hg => ?_
  rw [decide_eq_decide]
  constructor
  · exact fun h => h.1
  · intro hsub
    refine ⟨hsub, ?_⟩
    cases hproblem : g.problemId with
    | none => exact Or.inr ⟨rfl, hfirst⟩
    | some id =>
      obtain ⟨q, hq, hqs, rfl⟩ := hsound.ownProblem s hs hsession g hg hsub id hproblem
      rw [honly hq hqs]
      exact Or.inl rfl

theorem finalTotal_of_one (hsound : t.Sound db sessionId) {p : ProblemRow}
    (hone : db.orderedProblems sessionId = [p]) :
    db.FinalTotal sessionId mssv h ↔
      ∃ g, (db.submissionsOf sessionId mssv).flatMap db.resultsOf = [g] ∧
        db.HasPublishedScore g h := by
  have hresults : db.resultsFor sessionId mssv p =
      (db.submissionsOf sessionId mssv).flatMap db.resultsOf := by
    refine List.flatMap_congr fun s hs => ?_
    obtain ⟨hs, hsel⟩ := List.mem_filter.1 hs
    exact resultsOfProblem_eq hsound hone hs (of_decide_eq_true hsel).1
  rw [Db.FinalTotal, hone, ← hresults]
  constructor
  · rintro ⟨score, hscore, hsum⟩
    obtain ⟨g, hg, hpub⟩ := hscore p (List.mem_singleton_self p)
    refine ⟨g, hg, ?_⟩
    rw [List.map_singleton, List.sum_singleton] at hsum
    rw [← hsum]
    exact hpub
  · rintro ⟨g, hg, hpub⟩
    refine ⟨fun _ => h, fun q hq => ?_, by rw [List.map_singleton, List.sum_singleton]⟩
    rw [List.mem_singleton.1 hq]
    exact ⟨g, hg, hpub⟩

def submissionOutcome (db : Db K) (t : GradebookTables) (s : SubmissionRow) : PlanStudent where
  mssv := s.studentMssv
  name := t.nameInput s.id
  outcome := outcomeOf ⟨s.studentMssv, t.nameInput s.id, (db.resultsOf s).head?.map db.scoreColumns⟩

theorem exportOutcome_of_one (hsound : t.Sound db sessionId)
    (hone : (db.orderedProblems sessionId).length = 1) (hr : r ∈ t.roster)
    (hsession : r.sessionId = sessionId) :
    db.exportOutcome t sessionId r.mssv =
      some (foldedOutcome (.blank .absent)
        ((db.submissionsOf sessionId r.mssv).map (submissionOutcome db t))) := by
  have hrows : ((db.submissionResultRows t sessionId none).map fun row =>
      ({ mssv := row.mssv, name := row.name, outcome := outcomeOf row } : PlanStudent)) =
        (db.submissions.filter fun s => s.sessionId = sessionId).map (submissionOutcome db t) := by
    rw [Db.submissionResultRows, List.map_flatMap]
    have hsingle (s : SubmissionRow) : ((leftJoin (db.resultsOf s)).map fun g =>
        (⟨s.studentMssv, t.nameInput s.id, g.map db.scoreColumns⟩ : SubmissionResultRow)).map
          (fun row => ({ mssv := row.mssv, name := row.name, outcome := outcomeOf row } :
            PlanStudent)) = [submissionOutcome db t s] := by
      have hlen := length_resultsOf hsound s
      unfold submissionOutcome
      match hres : db.resultsOf s with
      | [] => rfl
      | [g] => rfl
      | _ :: _ :: _ =>
        rw [hres] at hlen
        simp at hlen
    have hfilter : (db.submissions.filter fun s => s.sessionId = sessionId ∧
        ((none : Option String) = none ∨ some (t.deliverableOf s.id) = none)) =
          db.submissions.filter fun s => s.sessionId = sessionId :=
      List.filter_congr fun s _ => by simp
    rw [hfilter, List.map_eq_flatMap (f := submissionOutcome db t)]
    exact List.flatMap_congr fun s _ => hsingle s
  have hfirst : (OrderedMap.ofList ((t.roster.filter fun r => r.sessionId = sessionId).map
      fun r => (lowerCase r.mssv, (⟨r.mssv, r.name, .blank .absent⟩ : PlanStudent)))).get?
        (lowerCase r.mssv) = some ⟨r.mssv, r.name, .blank .absent⟩ := by
    apply OrderedMap.get?_ofList_of_nodup
    · rw [List.map_map]
      exact hsound.roster
    · exact List.mem_map_of_mem (f := fun r : RosterRow => (lowerCase r.mssv,
        (⟨r.mssv, r.name, .blank .absent⟩ : PlanStudent)))
        (List.mem_filter.2 ⟨hr, decide_eq_true hsession⟩)
  have hkeyed : KeyedByMssv (.ofList ((t.roster.filter fun r => r.sessionId = sessionId).map
      fun r => (lowerCase r.mssv, (⟨r.mssv, r.name, .blank .absent⟩ : PlanStudent)))) := by
    intro k s hs
    obtain ⟨r', _, heq⟩ := List.mem_map.1 (OrderedMap.mem_of_get?_ofList hs)
    cases heq
    rfl
  rw [length_orderedProblems] at hone
  unfold Db.exportOutcome Db.loadStudents
  dsimp only
  rw [if_neg fun h => by omega, hrows]
  unfold foldStudentResults
  dsimp only
  rw [find?_values (fold_keyed hkeyed _), get?_fold hfirst, List.filter_map, List.filter_filter]
  congr 4
  funext s
  show (decide (lowerCase s.studentMssv = lowerCase r.mssv) && decide (s.sessionId = sessionId)) = _
  rw [Bool.and_comm, ← Bool.decide_and]

theorem gradebook_of_one (hsound : t.Sound db sessionId)
    (hone : (db.orderedProblems sessionId).length = 1) (hr : r ∈ t.roster)
    (hsession : r.sessionId = sessionId) (h : Int) :
    (∃ computationId source, db.exportOutcome t sessionId r.mssv =
      some (.scored h computationId source)) ↔
    (db.submissionsOf sessionId r.mssv).length = 1 ∧
      ∃ g, (db.submissionsOf sessionId r.mssv).flatMap db.resultsOf = [g] ∧
        db.HasPublishedScore g h := by
  rw [exportOutcome_of_one hsound hone hr hsession]
  match hsubs : db.submissionsOf sessionId r.mssv with
  | [] =>
    constructor
    · rintro ⟨_, _, heq⟩
      cases heq
    · rintro ⟨hlen, _⟩
      cases hlen
  | s :: s' :: rest =>
    constructor
    · rintro ⟨_, _, heq⟩
      cases heq
    · rintro ⟨hlen, _⟩
      simp at hlen
  | [s] =>
    have hlen := length_resultsOf hsound s
    show (∃ computationId source, some (outcomeOf ⟨s.studentMssv, t.nameInput s.id,
      (db.resultsOf s).head?.map db.scoreColumns⟩) = some (.scored h computationId source)) ↔ _
    rw [List.flatMap_singleton]
    match hres : db.resultsOf s with
    | [] =>
      constructor
      · rintro ⟨_, _, heq⟩
        cases heq
      · rintro ⟨_, _, hnil, _⟩
        cases hnil
    | [g] =>
      simp only [List.head?_cons, Option.map_some, Option.some_inj]
      rw [outcomeOf_scored_iff]
      constructor
      · exact fun hpub => ⟨rfl, g, rfl, hpub⟩
      · rintro ⟨_, g', hg, hpub⟩
        cases hg
        exact hpub
    | _ :: _ :: _ =>
      rw [hres] at hlen
      simp at hlen

end Export

/-! ## When the board and the grade book agree -/

/-- The board shows every student of the roster the exact total, and the
export of the whole session gives the student the same, exactly where the
session has several questions or the only result of the student stands on
the only submission. -/
theorem agrees_iff (db : Db K) (t : GradebookTables) (sessionId : String) (r : RosterRow)
    (hsound : t.Sound db sessionId)
    (hproblems : ∃ p ∈ db.problems, p.sessionId = sessionId) (hr : r ∈ t.roster)
    (hsession : r.sessionId = sessionId) :
    db.Agrees t sessionId r ↔ db.OneSubmission sessionId r := by
  have hne : db.orderedProblems sessionId ≠ [] := by
    obtain ⟨p, hp, hps⟩ := hproblems
    exact List.ne_nil_of_mem (mem_orderedProblems.2 ⟨hp, hps⟩)
  have hboard (h : Int) := boardTotal_final_iff (h := h) hsound hne hr hsession
  have hpos := List.length_pos_iff.2 hne
  by_cases hone : (db.orderedProblems sessionId).length = 1
  · obtain ⟨p, hp⟩ := List.length_eq_one_iff.1 hone
    have hfinal (h : Int) : db.FinalTotal sessionId r.mssv h ↔
        ∃ g, (db.submissionsOf sessionId r.mssv).flatMap db.resultsOf = [g] ∧
          db.HasPublishedScore g h := finalTotal_of_one hsound hp
    have hgradebook := gradebook_of_one hsound hone hr hsession
    constructor
    · intro hagrees _ g x hg hpub
      have hgiven := (hagrees.gradebook x).2 ((hfinal x).2 ⟨g, hg, hpub⟩)
      exact ((hgradebook x).1 hgiven).1
    · intro hcond
      refine ⟨hboard, fun h => ?_⟩
      rw [hgradebook, hfinal]
      constructor
      · exact fun h => h.2
      · rintro ⟨g, hg, hpub⟩
        exact ⟨hcond hone g h hg hpub, g, hg, hpub⟩
  · have hmany : 1 < (db.orderedProblems sessionId).length := by omega
    refine ⟨fun _ h => absurd h hone, fun _ => ⟨hboard, fun h => ?_⟩⟩
    rw [exportOutcome_of_many hsound hmany hr hsession, ← hboard,
      boardTotal_eq hsound hne hr hsession]
    constructor
    · rintro ⟨_, _, hgiven⟩
      unfold totalOutcome at hgiven
      split_ifs at hgiven
      · cases hgiven
      · split at hgiven
        · cases hgiven
        · rename_i total hundredths htotal
          cases hgiven
          exact htotal
        · cases hgiven
        · cases hgiven
    · intro htotal
      have hfinal := (hboard h).1 (boardTotal_eq hsound hne hr hsession ▸ htotal)
      have hsubmission := submission_of_finalTotal (t := t) hne hfinal
      rw [Option.some_inj] at htotal
      refine ⟨none, .total, ?_⟩
      rw [htotal, decide_eq_true hsubmission]
      rfl

/-! ## One question and two files -/

/-- A session with one question whose result is published with 7 points. -/
def onePublished (submissions : List SubmissionRow) : Db ℚ :=
  { sessions := [⟨"s1", "Giữa kỳ", "seed", none, true, none⟩]
    problems := [⟨"q1", "s1", 1, some "Tính tổng", 1000, some "rb", none⟩]
    submissions
    bundles := []
    cases := []
    rubrics := [⟨"rb", "Nhập môn", 1, [⟨"correctness", 1000⟩]⟩]
    rules := []
    rubricErrors := []
    priceVersions := []
    waivers := []
    sightings := []
    results :=
      [{ id := "r1"
         submissionId := "sub1"
         problemId := some "q1"
         rubricIdVersion := "rb"
         pipeline := .oneShot
         status := .finalized
         currentAttemptId := none
         aiTotalScore := some 700
         confidence := none
         modelUsed := none
         flagForReview := false
         ungradable := none
         auditSampled := false
         finalizedComputationId := none }]
    attempts := []
    computations := []
    reviews := []
    auditLog := []
    openBreakerRuleKeys := []
    noErrorBreakerOpen := false
    drawnIds := 0 }

def report : SubmissionRow := ⟨"sub1", "s1", "SV01", some "key", "bai.docx", none⟩

/-- The row that was seeded for a file that the student did not hand in. -/
def seededRow : SubmissionRow := ⟨"sub2", "s1", "SV01", none, "phu-luc.docx", none⟩

def smallClass : GradebookTables where
  roster := [⟨"s1", "sv01", "An"⟩]
  deliverableOf := fun id => if id = "sub1" then "d1" else "d2"
  nameInput := fun _ => "An"

theorem smallClass_sound {submissions : List SubmissionRow} :
    smallClass.Sound (onePublished submissions) "s1" where
  roster := by decide
  ordinals := (by decide : [1].Nodup)
  first := fun p hp hs => ⟨p, hp, hs, by rw [List.mem_singleton.1 hp]⟩
  oneResult := List.nodup_singleton "sub1"
  ownProblem := by
    intro s _ _ g hg _ id hid
    rw [List.mem_singleton.1 hg] at hid
    cases hid
    exact ⟨_, List.mem_singleton_self _, rfl, rfl⟩

theorem onePublished_agrees :
    (onePublished [report]).Agrees smallClass "s1" ⟨"s1", "sv01", "An"⟩ :=
  (agrees_iff (onePublished [report]) smallClass "s1" ⟨"s1", "sv01", "An"⟩ smallClass_sound
    (by decide) (by decide) rfl).2
    fun _ _ _ _ _ => by decide

/-- A file that was not handed in: the board shows 7 points, and the export
reports several results. -/
theorem seededRow_conflicts :
    (onePublished [report, seededRow]).boardTotal smallClass "s1" "sv01" = some (.final 700) ∧
      (onePublished [report, seededRow]).exportOutcome smallClass "s1" "sv01" =
        some (.conflict conflictReason) ∧
      ¬ ∀ (db : Db ℚ) (t : GradebookTables) (sessionId : String) (r : RosterRow),
        t.Sound db sessionId → (∃ p ∈ db.problems, p.sessionId = sessionId) → r ∈ t.roster →
          r.sessionId = sessionId → db.Agrees t sessionId r := by
  refine ⟨by decide, by decide, fun h => ?_⟩
  have hagrees := h (onePublished [report, seededRow]) smallClass "s1" ⟨"s1", "sv01", "An"⟩
    smallClass_sound (by decide) (by decide) rfl
  have hgiven := (hagrees.gradebook 700).2 ((hagrees.board 700).1 (by decide))
  have hconflict : (onePublished [report, seededRow]).exportOutcome smallClass "s1" "sv01" =
      some (.conflict conflictReason) := by
    decide
  obtain ⟨computationId, source, hscored⟩ := hgiven
  have heq := Option.some.inj (hconflict.symm.trans hscored)
  cases heq

end Cine.Grading
