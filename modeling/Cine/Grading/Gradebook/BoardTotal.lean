import Cine.Grading.Gradebook.LoadStudents

/-!
# The total of a student on the board

`FinalTotal` is what a total should be: each question has exactly one result
of the student, all of them are published with a score, and the total is
the sum.  `boardTotal_final_iff` says that the board shows exactly these
totals as final.

The rows of the board come out of one query, grouped by student and then by
question.  They stand in blocks, so grouping gives the blocks back, and the
state of a question is read from its block (`stateOf_cases`).
-/

namespace Cine.Grading

open Cine.Lib

variable {K : Type}

/-- The keys and the references that the tables keep. -/
structure GradebookTables.Sound (t : GradebookTables) (db : Db K) (sessionId : String) :
    Prop where
  /-- A student number is unique in a session, in lower case. -/
  roster : ((t.roster.filter fun r => r.sessionId = sessionId).map fun r =>
    lowerCase r.mssv).Nodup
  ordinals : ((db.problems.filter fun p => p.sessionId = sessionId).map
    ProblemRow.ordinal).Nodup
  /-- The first question of a session is never taken away. -/
  first : ∀ p ∈ db.problems, p.sessionId = sessionId →
    ∃ q ∈ db.problems, q.sessionId = sessionId ∧ q.ordinal = 1
  /-- A submission has one result. -/
  oneResult : (db.results.map ResultRow.submissionId).Nodup
  /-- A result belongs to a question of its session, or to none. -/
  ownProblem : ∀ s ∈ db.submissions, s.sessionId = sessionId →
    ∀ g ∈ db.results, g.submissionId = s.id → ∀ id ∈ g.problemId,
      ∃ p ∈ db.problems, p.sessionId = sessionId ∧ p.id = id

namespace Db

variable (db : Db K) (t : GradebookTables) (sessionId : String)

/-- The results of a student for a question. -/
def resultsFor (mssv : String) (p : ProblemRow) : List ResultRow :=
  (db.submissionsOf sessionId mssv).flatMap (db.resultsOfProblem p)

/-- The result `g` is published with the score `x`. -/
def HasPublishedScore (g : ResultRow) (x : Int) : Prop :=
  g.status.isPublished ∧ (currentScore (db.currentScoreInput g)).value = some x

/-- Each question has exactly one result of the student, all of them are
published with a score, and `h` is their sum. -/
def FinalTotal (mssv : String) (h : Int) : Prop :=
  ∃ score : ProblemRow → Int,
    (∀ p ∈ db.orderedProblems sessionId,
      ∃ g, db.resultsFor sessionId mssv p = [g] ∧ db.HasPublishedScore g (score p)) ∧
    ((db.orderedProblems sessionId).map score).sum = h

def boardTotal (mssv : String) : Option StudentTotal :=
  ((db.loadStudentBoard t.roster sessionId).find? fun row =>
    lowerCase row.mssv = lowerCase mssv).map StudentBoardRow.total

end Db

/-! ## The score of a published result -/

section Score

variable {db : Db K} {g : ResultRow}

theorem pickScore_hundredths (input : CurrentScoreInput) :
    (pickScore input).map PickedScore.hundredths = (currentScore input).value := by
  unfold pickScore currentScore
  cases input.pipeline with
  | oneShot =>
    dsimp only
    cases hr : input.latestScoredReview <;> cases ha : input.aiTotalScore <;> simp [*]
  | investigator =>
    dsimp only
    cases hm : input.latestManualScore with
    | some score => simp [*]
    | none =>
      cases hf : (if input.finalized then input.finalizedComputationScore else none) with
      | some score =>
        have : input.finalizedComputationScore = some score := by
          split_ifs at hf
          exact hf
        simp [*]
      | none => cases hc : input.latestComputationScore <;> simp [*]

theorem input_scoreColumns (h : g.status.isPublished = true) :
    (db.scoreColumns g).input = db.currentScoreInput g := by
  rw [ScoreColumns.input, Db.scoreColumns, Db.currentScoreInput]
  simp only [h]

theorem blankReasonOf_eq_none {status : ResultStatus} {u : Option UngradableClass} :
    blankReasonOf (some status) u = none ↔ status.isPublished = true := by
  cases status <;> simp [blankReasonOf, ResultStatus.isPublished]

theorem hasPublishedScore_iff {x : Int} :
    db.HasPublishedScore g x ↔
      blankReasonOf (some (db.scoreColumns g).status) (db.scoreColumns g).ungradableClass = none ∧
        (pickScore (db.scoreColumns g).input).map PickedScore.hundredths = some x := by
  rw [Db.HasPublishedScore, blankReasonOf_eq_none, pickScore_hundredths]
  show _ ↔ g.status.isPublished = true ∧ _
  constructor
  · rintro ⟨hpub, hscore⟩
    exact ⟨hpub, by rw [input_scoreColumns hpub, hscore]⟩
  · rintro ⟨hpub, hscore⟩
    exact ⟨hpub, by rw [← input_scoreColumns hpub, hscore]⟩

end Score

/-! ## The state of a question and the total -/

section Board

variable {db : Db K} {t : GradebookTables} {sessionId mssv : String}

theorem stateOf_single {rows : List RosterProblemRow} {c : ScoreColumns}
    (hrows : rows.filterMap RosterProblemRow.result = [c]) (ordinal : Nat) (points : Int) :
    stateOf ordinal points rows =
      if c.status = .auditPending then ⟨ordinal, .pending, points, none, true⟩
      else if (blankReasonOf (some c.status) c.ungradableClass).isSome then
        ⟨ordinal, .pending, points, none, false⟩
      else
        match pickScore c.input with
        | none => ⟨ordinal, .pending, points, none, false⟩
        | some picked =>
          ⟨ordinal, if c.status = .exported then .exported else .finalized, points,
            some picked.hundredths, false⟩ := by
  unfold stateOf
  cases hpick : pickScore c.input with
  | none => simp only [hrows, hpick]
  | some picked => simp only [hrows, hpick]

theorem stateOf_cases {rows : List RosterProblemRow} {results : List ResultRow}
    (hrows : rows.filterMap RosterProblemRow.result = results.map db.scoreColumns)
    (ordinal : Nat) (points : Int) :
    (∃ g x, results = [g] ∧ db.HasPublishedScore g x ∧
      (stateOf ordinal points rows).isFinal = true ∧
      (stateOf ordinal points rows).scoreHundredths = some x ∧
      (stateOf ordinal points rows).auditPending = false) ∨
    ((stateOf ordinal points rows).isFinal = false ∧
      ∀ g x, results = [g] → ¬ db.HasPublishedScore g x) := by
  match results with
  | [] =>
    refine Or.inr ⟨?_, fun g x h => by cases h⟩
    unfold stateOf
    rw [hrows]
    rfl
  | g :: g' :: rest =>
    refine Or.inr ⟨?_, fun g x h => by cases h⟩
    unfold stateOf
    rw [hrows]
    rfl
  | [g] =>
    rw [stateOf_single hrows]
    by_cases haudit : (db.scoreColumns g).status = .auditPending
    · rw [if_pos haudit]
      refine Or.inr ⟨rfl, fun g' x h hscore => ?_⟩
      cases h
      rw [hasPublishedScore_iff, haudit] at hscore
      cases hscore.1
    · rw [if_neg haudit]
      cases hblank : blankReasonOf (some (db.scoreColumns g).status)
          (db.scoreColumns g).ungradableClass with
      | some reason =>
        refine Or.inr ⟨rfl, fun g' x h hscore => ?_⟩
        cases h
        rw [hasPublishedScore_iff, hblank] at hscore
        cases hscore.1
      | none =>
        cases hpicked : pickScore (db.scoreColumns g).input with
        | none =>
          refine Or.inr ⟨rfl, fun g' x h hscore => ?_⟩
          cases h
          rw [hasPublishedScore_iff, hpicked] at hscore
          cases hscore.2
        | some picked =>
          refine Or.inl ⟨g, picked.hundredths, rfl, ?_, ?_, rfl, rfl⟩
          · rw [hasPublishedScore_iff, hpicked]
            exact ⟨hblank, rfl⟩
          · by_cases hexported : (db.scoreColumns g).status = .exported <;>
              simp [ProblemState.isFinal, hexported]

theorem stateOf_ordinal (ordinal : Nat) (points : Int) (rows : List RosterProblemRow) :
    (stateOf ordinal points rows).ordinal = ordinal := by
  unfold stateOf
  split
  · rfl
  · split
    · rfl
    · split
      · rfl
      · split <;> rfl
  · rfl

theorem isFinal_ne_blank {p : ProblemState} (h : p.isFinal = true) : p.status ≠ .blank := by
  intro hblank
  rw [ProblemState.isFinal, hblank] at h
  cases h

variable {h : Int} {r : RosterRow}

theorem aggregate_final_iff {problems : List ProblemState} {expectedOrdinals : List Nat}
    (hordinals : problems.map ProblemState.ordinal = expectedOrdinals)
    (hnd : expectedOrdinals.Nodup)
    (haudit : ∀ p ∈ problems, p.isFinal = true → p.auditPending = false) :
    aggregateStudentTotal problems expectedOrdinals = .final h ↔
      (∀ p ∈ problems, p.isFinal = true) ∧
        (problems.map fun p => p.scoreHundredths.getD 0).sum = h := by
  have hfilter (hall : ∀ p ∈ problems, p.isFinal = true) :
      problems.filter ProblemState.isFinal = problems := List.filter_eq_self.2 hall
  constructor
  · intro htotal
    simp only [aggregateStudentTotal] at htotal
    split_ifs at htotal with hdash hall
    · have hfinal := List.all_eq_true.1 hall.2
      rw [hfilter hfinal] at htotal
      exact ⟨hfinal, StudentTotal.final.inj htotal⟩
  · rintro ⟨hall, hsum⟩
    have hdash : ¬ problems.any ProblemState.auditPending = true := by
      rw [List.any_eq_true]
      rintro ⟨p, hp, hpending⟩
      rw [haudit p hp (hall p hp)] at hpending
      cases hpending
    simp only [aggregateStudentTotal]
    rw [if_neg hdash, hfilter hall, hsum]
    refine if_pos ⟨?_, List.all_eq_true.2 hall⟩
    rw [List.filter_eq_nil_iff]
    intro ordinal hordinal
    rw [← hordinals] at hordinal
    obtain ⟨p, hp, rfl⟩ := List.mem_map.1 hordinal
    have hget : (OrderedMap.ofList (problems.map fun p => (p.ordinal, p))).get? p.ordinal =
        some p := by
      apply OrderedMap.get?_ofList_of_nodup
      · rw [List.map_map]
        exact hordinals ▸ hnd
      · exact List.mem_map_of_mem (f := fun p : ProblemState => (p.ordinal, p)) hp
    rw [hget]
    simpa using isFinal_ne_blank (hall p hp)

theorem filterMap_joinedResults (p : ProblemRow) :
    (db.joinedResults sessionId mssv p).filterMap id = db.resultsFor sessionId mssv p := by
  unfold Db.joinedResults Db.resultsFor
  cases db.submissionsOf sessionId mssv with
  | nil => rfl
  | cons s l =>
    show ((List.map some (s :: l)).flatMap _).filterMap id = _
    rw [List.flatMap_map, List.filterMap_flatMap]
    refine congrArg (fun f => List.flatMap f (s :: l)) (funext fun s => ?_)
    exact filterMap_leftJoin _

theorem joinedResults_ne_nil (p : ProblemRow) : db.joinedResults sessionId mssv p ≠ [] := by
  unfold Db.joinedResults
  intro hnil
  obtain ⟨first, rest, hjoin⟩ := List.exists_cons_of_ne_nil
    (leftJoin_ne_nil (db.submissionsOf sessionId mssv))
  rw [hjoin, List.flatMap_cons, List.append_eq_nil_iff] at hnil
  cases first with
  | none => cases hnil.1
  | some s => exact leftJoin_ne_nil _ hnil.1

theorem rowsOfProblem_results (r : RosterRow) (p : ProblemRow) :
    (db.rowsOfProblem sessionId r p).filterMap RosterProblemRow.result =
      (db.resultsFor sessionId r.mssv p).map db.scoreColumns := by
  rw [Db.rowsOfProblem, List.filterMap_map, ← filterMap_joinedResults, List.map_filterMap]
  rfl

theorem mem_orderedProblems {p : ProblemRow} :
    p ∈ db.orderedProblems sessionId ↔ p ∈ db.problems ∧ p.sessionId = sessionId := by
  rw [Db.orderedProblems, mem_sortByKey, List.mem_filter, decide_eq_true_iff]

theorem nodup_ordinals (hsound : t.Sound db sessionId) :
    ((db.orderedProblems sessionId).map ProblemRow.ordinal).Nodup :=
  nodup_sortByKey hsound.ordinals

/-- The rows of one student, question by question. -/
def blocksOf (db : Db K) (sessionId : String) (r : RosterRow) :
    List (Nat × List RosterProblemRow) :=
  (db.orderedProblems sessionId).map fun p => (p.ordinal, db.rowsOfProblem sessionId r p)

theorem groupBy_ordinal (hsound : t.Sound db sessionId) (r : RosterRow) :
    (OrderedMap.groupBy RosterProblemRow.ordinal
      ((db.orderedProblems sessionId).flatMap (db.rowsOfProblem sessionId r))).entries =
        blocksOf db sessionId r := by
  have hflat : (db.orderedProblems sessionId).flatMap (db.rowsOfProblem sessionId r) =
      (blocksOf db sessionId r).flatMap Prod.snd := by
    rw [blocksOf, List.flatMap_map]
  rw [hflat]
  apply OrderedMap.entries_groupBy
  · rw [blocksOf, List.map_map]
    exact nodup_ordinals hsound
  · intro b hb hnil
    obtain ⟨p, _, rfl⟩ := List.mem_map.1 hb
    exact joinedResults_ne_nil p (List.map_eq_nil_iff.1 hnil)
  · intro b hb row hrow
    obtain ⟨p, _, rfl⟩ := List.mem_map.1 hb
    obtain ⟨g, _, rfl⟩ := List.mem_map.1 hrow
    rfl

def questionState (db : Db K) (sessionId : String) (r : RosterRow) (p : ProblemRow) :
    ProblemState :=
  stateOf p.ordinal p.pointsHundredths (db.rowsOfProblem sessionId r p)

theorem boardRow_states (hsound : t.Sound db sessionId) (expectedOrdinals : List Nat)
    (r : RosterRow) :
    (Db.boardRow expectedOrdinals r
      ((db.orderedProblems sessionId).flatMap (db.rowsOfProblem sessionId r))).total =
      aggregateStudentTotal ((db.orderedProblems sessionId).map (questionState db sessionId r))
        expectedOrdinals := by
  simp only [Db.boardRow, groupBy_ordinal hsound, blocksOf, List.map_map]
  congr 1
  refine List.map_congr_left fun p _ => ?_
  have hne : db.joinedResults sessionId r.mssv p ≠ [] := joinedResults_ne_nil p
  obtain ⟨row, rest, hrows⟩ := List.exists_cons_of_ne_nil hne
  show stateOf p.ordinal _ (db.rowsOfProblem sessionId r p) = _
  rw [questionState]
  have hhead : (db.rowsOfProblem sessionId r p).head?.map RosterProblemRow.pointsHundredths =
      some p.pointsHundredths := by
    rw [Db.rowsOfProblem, hrows]
    rfl
  rw [hhead, Option.getD_some]

theorem boardRow_final_iff (hsound : t.Sound db sessionId) (r : RosterRow) :
    (Db.boardRow ((db.orderedProblems sessionId).map ProblemRow.ordinal) r
      ((db.orderedProblems sessionId).flatMap (db.rowsOfProblem sessionId r))).total = .final h ↔
      db.FinalTotal sessionId r.mssv h := by
  have hresults (p : ProblemRow) : (db.rowsOfProblem sessionId r p).filterMap
      RosterProblemRow.result = (db.resultsFor sessionId r.mssv p).map db.scoreColumns :=
    rowsOfProblem_results r p
  have hcases (p : ProblemRow) := stateOf_cases (hresults p) p.ordinal p.pointsHundredths
  rw [boardRow_states hsound, aggregate_final_iff]
  · constructor
    · rintro ⟨hall, hsum⟩
      refine ⟨fun p => (questionState db sessionId r p).scoreHundredths.getD 0, ?_, ?_⟩
      · intro p hp
        rcases hcases p with ⟨g, x, hg, hscore, _, hx, _⟩ | ⟨hnot, _⟩
        · refine ⟨g, hg, ?_⟩
          show db.HasPublishedScore g ((questionState db sessionId r p).scoreHundredths.getD 0)
          rw [questionState, hx]
          exact hscore
        · have := hall _ (List.mem_map_of_mem hp)
          rw [questionState, hnot] at this
          cases this
      · rw [← hsum, List.map_map]
        rfl
    · rintro ⟨score, hscore, hsum⟩
      have hstate (p : ProblemRow) (hp : p ∈ db.orderedProblems sessionId) :
          (questionState db sessionId r p).isFinal = true ∧
            (questionState db sessionId r p).scoreHundredths = some (score p) := by
        obtain ⟨g, hg, hpub⟩ := hscore p hp
        rcases hcases p with ⟨g', x, hg', hscore', hfinal, hx, _⟩ | ⟨_, hnot⟩
        · refine ⟨hfinal, hx.trans ?_⟩
          have heq : g = g' := (List.cons.inj (hg.symm.trans hg')).1
          rw [heq] at hpub
          exact hscore'.2.symm.trans hpub.2
        · exact absurd hpub (hnot g _ hg)
      refine ⟨?_, ?_⟩
      · intro state hstate'
        obtain ⟨p, hp, rfl⟩ := List.mem_map.1 hstate'
        exact (hstate p hp).1
      · rw [← hsum, List.map_map]
        refine congrArg List.sum (List.map_congr_left fun p hp => ?_)
        rw [Function.comp_apply, (hstate p hp).2, Option.getD_some]
  · rw [List.map_map]
    exact List.map_congr_left fun p _ => stateOf_ordinal _ _ _
  · exact nodup_ordinals hsound
  · intro state hstate hfinal
    obtain ⟨p, _, rfl⟩ := List.mem_map.1 hstate
    rcases hcases p with ⟨_, _, _, _, _, _, haudit⟩ | ⟨hnot, _⟩
    · exact haudit
    · rw [questionState, hnot] at hfinal
      cases hfinal

theorem mem_rosterOf :
    r ∈ Db.rosterOf t.roster sessionId ↔ r ∈ t.roster ∧ r.sessionId = sessionId := by
  rw [Db.rosterOf, mem_sortByKey, List.mem_filter, decide_eq_true_iff]

theorem nodup_roster (hsound : t.Sound db sessionId) :
    ((Db.rosterOf t.roster sessionId).map fun r => lowerCase r.mssv).Nodup :=
  nodup_sortByKey hsound.roster

theorem loadStudentBoard_eq (hsound : t.Sound db sessionId)
    (hproblems : db.orderedProblems sessionId ≠ []) :
    db.loadStudentBoard t.roster sessionId =
      (Db.rosterOf t.roster sessionId).map fun r =>
        Db.boardRow ((db.orderedProblems sessionId).map ProblemRow.ordinal) r
          ((db.orderedProblems sessionId).flatMap (db.rowsOfProblem sessionId r)) := by
  have hentries : (OrderedMap.groupBy (fun row : RosterProblemRow => lowerCase row.mssv)
      (db.rosterProblemRows t.roster sessionId)).entries =
        (Db.rosterOf t.roster sessionId).map fun r => (lowerCase r.mssv,
          (db.orderedProblems sessionId).flatMap (db.rowsOfProblem sessionId r)) := by
    have hflat : db.rosterProblemRows t.roster sessionId =
        ((Db.rosterOf t.roster sessionId).map fun r => (lowerCase r.mssv,
          (db.orderedProblems sessionId).flatMap
            (db.rowsOfProblem sessionId r))).flatMap Prod.snd := by
      rw [Db.rosterProblemRows, List.flatMap_map]
    rw [hflat]
    apply OrderedMap.entries_groupBy
    · rw [List.map_map]
      exact nodup_roster hsound
    · intro b hb hnil
      obtain ⟨r, _, rfl⟩ := List.mem_map.1 hb
      obtain ⟨p, rest, hp⟩ := List.exists_cons_of_ne_nil hproblems
      rw [hp, List.flatMap_cons, List.append_eq_nil_iff] at hnil
      exact joinedResults_ne_nil p (List.map_eq_nil_iff.1 hnil.1)
    · intro b hb row hrow
      obtain ⟨r, _, rfl⟩ := List.mem_map.1 hb
      obtain ⟨p, _, hrow⟩ := List.mem_flatMap.1 hrow
      obtain ⟨g, _, rfl⟩ := List.mem_map.1 hrow
      rfl
  unfold Db.loadStudentBoard
  dsimp only
  rw [if_neg fun h => hproblems (List.map_eq_nil_iff.1 h)]
  refine List.map_congr_left fun r hr => ?_
  rw [OrderedMap.get?_of_mem_entries (v := (db.orderedProblems sessionId).flatMap
    (db.rowsOfProblem sessionId r)), Option.getD_some]
  rw [hentries]
  exact List.mem_map_of_mem (f := fun r : RosterRow => (lowerCase r.mssv,
    (db.orderedProblems sessionId).flatMap (db.rowsOfProblem sessionId r))) hr

def rosterTotal (db : Db K) (sessionId : String) (r : RosterRow) : StudentTotal :=
  (Db.boardRow ((db.orderedProblems sessionId).map ProblemRow.ordinal) r
    ((db.orderedProblems sessionId).flatMap (db.rowsOfProblem sessionId r))).total

theorem boardTotal_eq (hsound : t.Sound db sessionId)
    (hproblems : db.orderedProblems sessionId ≠ []) (hr : r ∈ t.roster)
    (hsession : r.sessionId = sessionId) :
    db.boardTotal t sessionId r.mssv = some (rosterTotal db sessionId r) := by
  rw [Db.boardTotal, loadStudentBoard_eq hsound hproblems, List.find?_map]
  have hfound : rowOf (fun r : RosterRow => lowerCase r.mssv) (Db.rosterOf t.roster sessionId)
      (lowerCase r.mssv) = some r :=
    rowOf_of_mem (nodup_roster hsound) (mem_rosterOf.2 ⟨hr, hsession⟩)
  rw [rowOf] at hfound
  show Option.map _ (Option.map _ ((Db.rosterOf t.roster sessionId).find?
    (fun r' => lowerCase r'.mssv = lowerCase r.mssv))) = _
  rw [hfound]
  rfl

theorem loadStudentTotals_get (hsound : t.Sound db sessionId)
    (hproblems : db.orderedProblems sessionId ≠ []) (hr : r ∈ t.roster)
    (hsession : r.sessionId = sessionId) :
    (db.loadStudentTotals t.roster sessionId).get? (lowerCase r.mssv) =
      some (rosterTotal db sessionId r) := by
  rw [Db.loadStudentTotals, loadStudentBoard_eq hsound hproblems, List.map_map]
  apply OrderedMap.get?_ofList_of_nodup
  · rw [List.map_map]
    exact nodup_roster hsound
  · exact List.mem_map_of_mem (f := fun r : RosterRow => (lowerCase r.mssv,
      rosterTotal db sessionId r)) (mem_rosterOf.2 ⟨hr, hsession⟩)

theorem boardTotal_final_iff (hsound : t.Sound db sessionId)
    (hproblems : db.orderedProblems sessionId ≠ []) (hr : r ∈ t.roster)
    (hsession : r.sessionId = sessionId) :
    db.boardTotal t sessionId r.mssv = some (.final h) ↔ db.FinalTotal sessionId r.mssv h := by
  rw [boardTotal_eq hsound hproblems hr hsession, Option.some_inj]
  exact boardRow_final_iff hsound r

end Board

end Cine.Grading
