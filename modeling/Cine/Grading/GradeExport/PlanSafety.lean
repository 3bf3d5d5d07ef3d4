import Cine.Grading.GradeExport.Plan
import Cine.Lib.Transaction

/-!
# No mark on a wrong row

`planRow_cases` says once what a row of a plan can be: a row with a score
and the cells it touches, a row with a reason, or a row without edits.
From it follow, for every plan that is computed,

* that a student is written into one row at most, since two rows of one
  student are duplicates (`writtenKeys_nodup`),
* that a number is the rounded score of the student of its row
  (`number_of_edit`),
* that no edit meets a formula or the inside of a merged range
  (`cell_of_edit`), and
* that no two edits meet (`refs_nodup`).

`computePlan_safe` is the whole of it, for a plan that is computed from a
sheet.
-/

namespace Cine.Grading

open Cine.Lib

/-! ## Rounding -/

/-- `h` is the multiple of the step that is nearest to `x`, the upper one
where there are two. -/
structure RoundsHalfUp (x step h : Int) : Prop where
  multiple : step ∣ h
  low : 2 * h - step ≤ 2 * x
  high : 2 * x < 2 * h + step

theorem roundHalfUp_spec {x step h : Int} (hround : roundHalfUp x step = .ok h) :
    RoundsHalfUp x step h := by
  unfold roundHalfUp at hround
  split_ifs at hround with hx hstep
  cases hround
  have hpos : 0 < step := by
    unfold roundingSteps at hstep
    simp only [List.mem_cons, List.not_mem_nil, or_false] at hstep
    omega
  have hdiv := Int.mul_ediv_add_emod (2 * x + step) (2 * step)
  have hlow := Int.emod_nonneg (2 * x + step) (b := 2 * step) (by omega)
  have hhigh := Int.emod_lt_of_pos (2 * x + step) (b := 2 * step) (by omega)
  set q := (2 * x + step) / (2 * step)
  have hq : 2 * step * q = 2 * (q * step) := by ring
  exact ⟨Dvd.intro_left q rfl, by omega, by omega⟩

/-! ## What a row of a plan can be -/

section Row

variable {nfkc : String → String} {input : PlanInput} {file : FileRowInput} {m : MatchResult}
  {r : PlanRow}

/-- The student that a match names, with the number in lower case. -/
def PlanInput.Names (input : PlanInput) (m : MatchResult) (key : String) (s : PlanStudent) :
    Prop :=
  (∃ found note, m = .matched found note ∧ lowerCase found.mssv = key) ∧
    input.byKey.get? key = some s

/-- A row with a score: the student is the one of the match, has no second
row and a score, and the cells that are touched may be touched. -/
structure WritesScore (nfkc : String → String) (input : PlanInput) (file : FileRowInput)
    (m : MatchResult) (r : PlanRow) (key : String) (s : PlanStudent) (hundredths written : Int) :
    Prop where
  names : input.Names m key s
  single : key ∉ input.duplicated nfkc
  outcome : ∃ computationId source, s.outcome = .scored hundredths computationId source
  mssv : r.studentMssv = some s.mssv
  rounded : roundHalfUp hundredths input.roundingStep = .ok written
  score : r.writtenHundredths = some written
  scoreCell : cellProblem file.score "Ô điểm" = none
  reasonCell : r.clearsReason = true →
    ∃ cell ∈ input.reasonCell file, cellProblem cell "Ô lý do" = none

/-- A row that may get a reason: the student has no score. -/
structure WritesReason (input : PlanInput) (file : FileRowInput) (m : MatchResult)
    (r : PlanRow) (s : PlanStudent) : Prop where
  names : ∃ key, input.Names m key s
  outcome : ∃ reason, s.outcome = .blank reason
  mssv : r.studentMssv = some s.mssv
  reasonCell : r.writesReason = true →
    ∃ cell ∈ input.reasonCell file, cellProblem cell "Ô lý do" = none

theorem cellProblem_action {cell : FileCell} {label : String} {p : RowAction × String}
    (h : cellProblem cell label = some p) : p.1 = .skippedFormula ∨ p.1 = .skippedMerged := by
  unfold cellProblem at h
  split_ifs at h
  · cases h
    exact Or.inl rfl
  · cases h
    exact Or.inr rfl

theorem cellProblem_eq_none {cell : FileCell} {label : String} :
    cellProblem cell label = none ↔ cell.hasFormula = false ∧ cell.mergedNonMaster = false := by
  unfold cellProblem
  cases cell.hasFormula <;> cases cell.mergedNonMaster <;> simp

def RowAction.isEdited (a : RowAction) : Bool := a = .write ∨ a = .blank ∨ a = .kept

theorem scoredRow_cases {known : PlanRow} {previous : Option Int} {hundredths : Int}
    {computationId : Option String} {source : OutcomeSource}
    (h : input.scoredRow file known previous hundredths computationId source = .ok r) :
    r.row = known.row ∧
      (r.action.isEdited = false ∨
        ∃ written, roundHalfUp hundredths input.roundingStep = .ok written ∧
          r.action = .write ∧ r.studentMssv = known.studentMssv ∧
          r.writtenHundredths = some written ∧ cellProblem file.score "Ô điểm" = none ∧
          (r.clearsReason = true →
            ∃ cell ∈ input.reasonCell file, cellProblem cell "Ô lý do" = none)) := by
  unfold PlanInput.scoredRow at h
  dsimp only at h
  cases hscore : cellProblem file.score "Ô điểm" with
  | some p =>
    rw [hscore, Option.some_or] at h
    obtain ⟨action, note⟩ := p
    cases h
    refine ⟨rfl, Or.inl ?_⟩
    rcases cellProblem_action hscore with rfl | rfl <;> rfl
  | none =>
    rw [hscore, Option.none_or] at h
    cases hreason : (if input.clearsReason file then
        (input.reasonCell file).bind (cellProblem · "Ô lý do") else none) with
    | some p =>
      rw [hreason] at h
      obtain ⟨action, note⟩ := p
      cases h
      refine ⟨rfl, Or.inl ?_⟩
      split_ifs at hreason
      obtain ⟨cell, _, hcell⟩ := Option.bind_eq_some_iff.1 hreason
      rcases cellProblem_action hcell with rfl | rfl <;> rfl
    | none =>
      rw [hreason] at h
      obtain ⟨written, hround, h⟩ := bind_eq_ok.1 h
      cases h
      refine ⟨rfl, Or.inr ⟨written, hround, rfl, rfl, rfl, rfl, fun hclears => ?_⟩⟩
      have hclears' : input.clearsReason file = true := hclears
      rw [if_pos hclears'] at hreason
      unfold PlanInput.clearsReason at hclears'
      cases hcell : input.reasonCell file with
      | none =>
        rw [hcell] at hclears'
        cases hclears'
      | some cell =>
        rw [hcell] at hreason
        exact ⟨cell, rfl, hreason⟩

theorem blankOutcomeRow_cases (known : PlanRow) (previous : Option Int) (reason : BlankReason) :
    (input.blankOutcomeRow file known previous reason).row = known.row ∧
      (input.blankOutcomeRow file known previous reason).action ≠ .write ∧
      ((input.blankOutcomeRow file known previous reason).action.isEdited = false ∨
        (input.blankOutcomeRow file known previous reason).studentMssv = known.studentMssv ∧
          ((input.blankOutcomeRow file known previous reason).writesReason = true →
            ∃ cell ∈ input.reasonCell file, cellProblem cell "Ô lý do" = none)) := by
  unfold PlanInput.blankOutcomeRow
  dsimp only
  cases hproblem : (input.reasonCell file).bind (cellProblem · "Ô lý do") with
  | some p =>
    obtain ⟨action, note⟩ := p
    obtain ⟨cell, _, hcell⟩ := Option.bind_eq_some_iff.1 hproblem
    dsimp only
    rcases cellProblem_action hcell with rfl | rfl
    · exact ⟨rfl, by decide, Or.inl rfl⟩
    · exact ⟨rfl, by decide, Or.inl rfl⟩
  | none =>
    refine ⟨rfl, ?_, Or.inr ⟨rfl, fun hwrites => ?_⟩⟩
    · show (if previous.isSome = true then RowAction.kept else .blank) ≠ .write
      split_ifs <;> decide
    · have hsome : (input.reasonCell file).isSome = true := hwrites
      obtain ⟨cell, hcell⟩ := Option.isSome_iff_exists.1 hsome
      rw [hcell] at hproblem
      exact ⟨cell, hcell, hproblem⟩

theorem planRow_cases (h : input.planRow nfkc file m = .ok r) :
    r.row = file.row ∧
      ((r.action = .write ∧ ∃ key s hundredths written,
          WritesScore nfkc input file m r key s hundredths written) ∨
        ((r.action = .blank ∨ r.action = .kept) ∧ ∃ s, WritesReason input file m r s) ∨
        r.action.isEdited = false) := by
  unfold PlanInput.planRow at h
  dsimp only at h
  cases m with
  | unmatched reason note =>
    cases h
    exact ⟨rfl, Or.inr (Or.inr rfl)⟩
  | matched found note =>
    dsimp only at h
    cases hs : input.byKey.get? (lowerCase found.mssv) with
    | none =>
      rw [hs] at h
      cases h
    | some s =>
      rw [hs] at h
      dsimp only at h
      have hnames : input.Names (.matched found note) (lowerCase found.mssv) s :=
        ⟨⟨found, note, rfl, rfl⟩, hs⟩
      by_cases hdup : lowerCase found.mssv ∈ input.duplicated nfkc
      · rw [if_pos hdup] at h
        cases h
        exact ⟨rfl, Or.inr (Or.inr rfl)⟩
      rw [if_neg hdup] at h
      cases houtcome : s.outcome with
      | conflict reason =>
        rw [houtcome] at h
        cases h
        exact ⟨rfl, Or.inr (Or.inr rfl)⟩
      | blank reason =>
        rw [houtcome] at h
        cases h
        obtain ⟨hrow, hwrite, hedits⟩ := @blankOutcomeRow_cases input file
          { blankRow file.row (normalizeMssv nfkc file.mssv.text) with
            studentMssv := some s.mssv, studentName := some s.name, note := note }
          (input.previous.get? (lowerCase found.mssv)) reason
        refine ⟨hrow, Or.inr ?_⟩
        rcases hedits with hnone | ⟨hmssv, hcell⟩
        · exact Or.inr hnone
        · rw [or_iff_not_imp_right]
          intro hedited
          refine ⟨?_, s, ⟨⟨_, hnames⟩, ⟨reason, houtcome⟩, hmssv, hcell⟩⟩
          rw [Bool.not_eq_false, RowAction.isEdited, decide_eq_true_iff] at hedited
          exact hedited.resolve_left hwrite
      | scored hundredths computationId source =>
        rw [houtcome] at h
        obtain ⟨hrow, hedits⟩ := scoredRow_cases h
        refine ⟨hrow, ?_⟩
        rcases hedits with hnone | ⟨written, hround, hwrite, hmssv, hscore, hcell, hreason⟩
        · exact Or.inr (Or.inr hnone)
        · exact Or.inl ⟨hwrite, _, s, hundredths, written, hnames, hdup,
            ⟨computationId, source, houtcome⟩, hmssv, hround, hscore, hcell, hreason⟩

theorem writesScore_of_action (h : input.planRow nfkc file m = .ok r)
    (hwrite : r.action = .write) :
    ∃ key s hundredths written, WritesScore nfkc input file m r key s hundredths written := by
  rcases (planRow_cases h).2 with ⟨_, hscore⟩ | ⟨hblank, _⟩ | hnone
  · exact hscore
  · rw [hwrite] at hblank
    rcases hblank with hblank | hblank <;> cases hblank
  · rw [hwrite] at hnone
    cases hnone

theorem writesReason_of_action (h : input.planRow nfkc file m = .ok r)
    (hblank : r.action = .blank ∨ r.action = .kept) : ∃ s, WritesReason input file m r s := by
  rcases (planRow_cases h).2 with ⟨hwrite, _⟩ | ⟨_, hreason⟩ | hnone
  · rw [hwrite] at hblank
    rcases hblank with hblank | hblank <;> cases hblank
  · exact hreason
  · rcases hblank with hblank | hblank <;> rw [hblank] at hnone <;> cases hnone

end Row

/-! ## The rows of a plan -/

section Plan

variable {nfkc sha256 : String → String} {input : PlanInput} {plan : ExportPlan}

theorem rows_of_buildPlan (h : buildPlan nfkc sha256 input = .ok plan) :
    ((input.firstPass nfkc).mapM fun p => input.planRow nfkc p.1 p.2) = .ok plan.rows := by
  unfold buildPlan at h
  obtain ⟨rows, hrows, h⟩ := bind_eq_ok.1 h
  cases h
  exact hrows

theorem mem_rows_of_firstPass {p : FileRowInput × MatchResult} (h : p ∈ input.firstPass nfkc) :
    p.1 ∈ input.rows := by
  unfold PlanInput.firstPass at h
  rw [List.mem_map] at h
  obtain ⟨file, hfile, hp⟩ := h
  rw [← hp]
  exact List.mem_of_mem_filter hfile

theorem exists_file {r : PlanRow} (h : buildPlan nfkc sha256 input = .ok plan)
    (hr : r ∈ plan.rows) :
    ∃ file ∈ input.rows, ∃ m, input.planRow nfkc file m = .ok r := by
  obtain ⟨p, hp, hplan⟩ := exists_of_mapM (rows_of_buildPlan h) hr
  exact ⟨p.1, mem_rows_of_firstPass hp, p.2, hplan⟩

theorem rowNumbers_sublist (h : buildPlan nfkc sha256 input = .ok plan) :
    (plan.rows.map PlanRow.row).Sublist (input.rows.map FileRowInput.row) := by
  have hnumbers : plan.rows.map PlanRow.row = (input.firstPass nfkc).map fun p => p.1.row := by
    have hrows := forall₂_of_mapM (rows_of_buildPlan h)
    clear h
    generalize input.firstPass nfkc = first at hrows ⊢
    generalize plan.rows = rows at hrows ⊢
    induction hrows with
    | nil => rfl
    | cons hrow _ ih => rw [List.map_cons, List.map_cons, ih, (planRow_cases hrow).1]
  rw [hnumbers, PlanInput.firstPass, List.map_map]
  exact List.filter_sublist.map FileRowInput.row

/-! ### One row for a student -/

/-- The number, in lower case, of the student that a row writes a score
for. -/
def PlanRow.writtenKey (r : PlanRow) : Option String :=
  if r.action = .write then r.studentMssv.map lowerCase else none

/-- The number, in lower case, of the student that a match names. -/
def MatchResult.key : MatchResult → Option String
  | .matched s _ => some (lowerCase s.mssv)
  | .unmatched _ _ => none

variable {key : String}

theorem mem_of_byKey {s : PlanStudent} (h : input.byKey.get? key = some s) :
    s ∈ input.students ∧ lowerCase s.mssv = key := by
  obtain ⟨t, ht, hkey⟩ := List.mem_map.1 (OrderedMap.mem_of_get?_ofList h)
  cases hkey
  exact ⟨ht, rfl⟩

theorem writtenKey_eq_some {file : FileRowInput} {m : MatchResult} {r : PlanRow}
    (h : input.planRow nfkc file m = .ok r) (hkey : r.writtenKey = some key) :
    m.key = some key ∧ key ∉ input.duplicated nfkc := by
  unfold PlanRow.writtenKey at hkey
  split_ifs at hkey with hwrite
  obtain ⟨k, s, x, w, hscore⟩ := writesScore_of_action h hwrite
  rw [hscore.mssv, Option.map_some, Option.some_inj] at hkey
  obtain ⟨⟨⟨found, note, rfl, hfound⟩, hs⟩, hsingle⟩ := And.intro hscore.names hscore.single
  have hk : lowerCase s.mssv = k := (mem_of_byKey hs).2
  rw [hk] at hkey
  subst hkey
  exact ⟨congrArg some hfound, hsingle⟩

theorem count_matchedRows (h : key ∉ input.duplicated nfkc) :
    ((input.matchedRows nfkc).map Prod.fst).count key ≤ 1 := by
  have hcount : ((input.matchedRows nfkc).map Prod.fst).count key =
      (((input.rowsByStudent nfkc).get? key).getD []).length := by
    unfold PlanInput.rowsByStudent
    rw [OrderedMap.get?_groupBy, List.count, List.countP_map, List.countP_eq_length_filter]
    rfl
  rw [hcount]
  by_contra hmany
  rw [not_le] at hmany
  cases hrows : (input.rowsByStudent nfkc).get? key with
  | none =>
    rw [hrows] at hmany
    exact absurd hmany (by simp)
  | some rows =>
    rw [hrows, Option.getD_some] at hmany
    obtain ⟨e, he, rfl⟩ := Option.map_eq_some_iff.1 hrows
    have hfound := List.find?_some he
    refine h (List.mem_map.2 ⟨e, List.mem_filter.2
      ⟨List.mem_of_find?_eq_some he, decide_eq_true hmany⟩, of_decide_eq_true hfound⟩)

theorem writtenKeys_nodup (h : buildPlan nfkc sha256 input = .ok plan) :
    (plan.rows.filterMap PlanRow.writtenKey).Nodup := by
  have hrows := rows_of_buildPlan h
  have hmatched : (input.matchedRows nfkc).map Prod.fst =
      (input.firstPass nfkc).filterMap fun p => p.2.key := by
    unfold PlanInput.matchedRows
    rw [List.map_filterMap]
    refine List.filterMap_congr fun p _ => ?_
    cases p.2 <;> rfl
  have hsub : (plan.rows.filterMap PlanRow.writtenKey).Sublist
      ((input.firstPass nfkc).filterMap fun p => p.2.key) := by
    have hall := forall₂_of_mapM hrows
    clear hmatched hrows h
    generalize input.firstPass nfkc = first at hall ⊢
    generalize plan.rows = rows at hall ⊢
    induction hall with
    | nil => exact .slnil
    | @cons p r first rows hrow _ ih =>
      rw [List.filterMap_cons, List.filterMap_cons]
      cases hkey : r.writtenKey with
      | none =>
        cases p.2.key with
        | none => exact ih
        | some k => exact ih.cons k
      | some k =>
        rw [(writtenKey_eq_some hrow hkey).1]
        exact ih.cons_cons k
  rw [List.nodup_iff_count_le_one]
  intro key
  by_cases hmem : key ∈ plan.rows.filterMap PlanRow.writtenKey
  · obtain ⟨r, hr, hkey⟩ := List.mem_filterMap.1 hmem
    obtain ⟨p, _, hrow⟩ := exists_of_mapM hrows hr
    have hone := count_matchedRows (writtenKey_eq_some hrow hkey).2
    rw [hmatched] at hone
    exact (hsub.count_le key).trans hone
  · rw [List.count_eq_zero_of_not_mem hmem]
    exact Nat.zero_le 1

end Plan

/-! ## The edits of a row -/

variable {dto : PlanDto}

theorem rowEdits_cases {r : PlanRow} {e : CellEdit} (he : e ∈ rowEdits dto r) :
    (r.action = .write ∧ ∃ h, r.writtenHundredths = some h ∧
        e = .number (cellRef dto.scoreColumn.letters r.row) h) ∨
      (r.action = .write ∧ r.clearsReason = true ∧ ∃ c, dto.reasonColumn = some c ∧
        e = .clear (cellRef c.letters r.row)) ∨
      ((r.action = .blank ∨ r.action = .kept) ∧ r.writesReason = true ∧
        ∃ c reason, dto.reasonColumn = some c ∧
          e = .text (cellRef c.letters r.row) (blankLabel reason)) := by
  have hreason : ∀ {e : CellEdit}, e ∈ (if r.writesReason then
      (dto.reasonColumn.bind fun c => r.blankReason.map fun reason =>
        CellEdit.text (cellRef c.letters r.row) (blankLabel reason)).toList else []) →
      r.writesReason = true ∧ ∃ c reason, dto.reasonColumn = some c ∧
        e = .text (cellRef c.letters r.row) (blankLabel reason) := by
    intro e he
    split_ifs at he with hwrites
    · obtain ⟨c, hc, hmap⟩ := Option.bind_eq_some_iff.1 (Option.mem_toList.1 he)
      obtain ⟨reason, _, rfl⟩ := Option.map_eq_some_iff.1 hmap
      exact ⟨hwrites, c, reason, hc, rfl⟩
    · cases he
  unfold rowEdits at he
  cases haction : r.action with
  | write =>
    rw [haction] at he
    rcases List.mem_append.1 he with hscore | hclear
    · obtain ⟨h, hh, rfl⟩ := Option.map_eq_some_iff.1 (Option.mem_toList.1 hscore)
      exact Or.inl ⟨rfl, h, hh, rfl⟩
    · split_ifs at hclear with hclears
      · obtain ⟨c, hc, rfl⟩ := Option.map_eq_some_iff.1 (Option.mem_toList.1 hclear)
        exact Or.inr (Or.inl ⟨rfl, hclears, c, hc, rfl⟩)
      · cases hclear
  | blank =>
    rw [haction] at he
    exact Or.inr (Or.inr ⟨Or.inl rfl, hreason he⟩)
  | kept =>
    rw [haction] at he
    exact Or.inr (Or.inr ⟨Or.inr rfl, hreason he⟩)
  | unmatched | duplicate | conflict | skippedFormula | skippedMerged =>
    rw [haction] at he
    cases he

theorem ref_of_rowEdits {r : PlanRow} {e : CellEdit} (he : e ∈ rowEdits dto r) :
    ∃ c : Column, e.ref = cellRef c.letters r.row := by
  rcases rowEdits_cases he with ⟨_, h, _, rfl⟩ | ⟨_, _, c, _, rfl⟩ | ⟨_, _, c, reason, _, rfl⟩
  · exact ⟨dto.scoreColumn, rfl⟩
  · exact ⟨c, rfl⟩
  · exact ⟨c, rfl⟩

theorem rowEdits_refs_nodup (hcolumns : dto.columns.Nodup) (r : PlanRow) :
    ((rowEdits dto r).map CellEdit.ref).Nodup := by
  have hne : ∀ c, dto.reasonColumn = some c →
      cellRef dto.scoreColumn.letters r.row ≠ cellRef c.letters r.row := by
    intro c hc heq
    have hletters := (cellRef_inj dto.scoreColumn.shape c.shape heq).1
    unfold PlanDto.columns at hcolumns
    rw [hc] at hcolumns
    simp [hletters] at hcolumns
  unfold rowEdits
  cases r.action with
  | write =>
    cases r.writtenHundredths <;> cases r.clearsReason <;> cases hc : dto.reasonColumn
    all_goals simp [CellEdit.ref]
    exact hne _ hc
  | blank | kept =>
    cases r.writesReason <;> cases dto.reasonColumn <;> cases r.blankReason <;> simp
  | unmatched | duplicate | conflict | skippedFormula | skippedMerged => exact List.nodup_nil

/-! ## The edits of a plan -/

section Edits

variable {nfkc sha256 : String → String} {dto : PlanDto} {sheet : SheetRead}
  {students : List PlanStudent × Nat} {previous : OrderedMap String Int} {plan : ExportPlan}

theorem buildPlan_of_computePlan
    (h : computePlan nfkc sha256 dto sheet students previous = .ok plan) :
    dto.columns.Nodup ∧
      buildPlan nfkc sha256 (dto.planInput sheet students.1 previous) = .ok plan := by
  unfold computePlan at h
  obtain ⟨hcolumns, h⟩ := ite_throw_eq_ok.1 h
  cases hfar : dto.columns.find? fun c => maxColumns < colToIndex c with
  | some c =>
    rw [hfar] at h
    cases h
  | none =>
    rw [hfar] at h
    obtain ⟨_, h⟩ := ite_throw_eq_ok.1 h
    obtain ⟨_, h⟩ := ite_throw_eq_ok.1 h
    exact ⟨not_not.1 hcolumns, h⟩

theorem rowNumbers_nodup
    (h : buildPlan nfkc sha256 (dto.planInput sheet students.1 previous) = .ok plan) :
    (plan.rows.map PlanRow.row).Nodup := by
  refine List.Nodup.sublist (rowNumbers_sublist h) ?_
  have hrows : (dto.planInput sheet students.1 previous).rows.map FileRowInput.row =
      dto.rowNumbers sheet := by
    show ((dto.rowNumbers sheet).map (dto.fileRow sheet)).map FileRowInput.row = _
    rw [List.map_map]
    exact List.map_id _
  rw [hrows]
  exact List.nodup_range.map fun a b hab => Nat.add_left_cancel hab

theorem refs_nodup (h : computePlan nfkc sha256 dto sheet students previous = .ok plan) :
    ((cellEdits dto plan).map CellEdit.ref).Nodup := by
  obtain ⟨hcolumns, hbuild⟩ := buildPlan_of_computePlan h
  unfold cellEdits
  rw [List.map_flatMap, List.nodup_flatMap]
  refine ⟨fun r _ => rowEdits_refs_nodup hcolumns r, ?_⟩
  have hrows := List.pairwise_map.1 (rowNumbers_nodup hbuild)
  refine hrows.imp fun {r r'} hne => ?_
  show List.Disjoint _ _
  rw [List.disjoint_left]
  intro ref href href'
  obtain ⟨e, he, rfl⟩ := List.mem_map.1 href
  obtain ⟨e', he', heq⟩ := List.mem_map.1 href'
  obtain ⟨c, hc⟩ := ref_of_rowEdits he
  obtain ⟨c', hc'⟩ := ref_of_rowEdits he'
  rw [hc, hc'] at heq
  exact hne (cellRef_inj c'.shape c.shape heq).2.symm

structure CellEdit.IsInto (e : CellEdit) (sheet : SheetRead) (col row : Nat) : Prop where
  ref : e.ref = cellRef (indexToCol col) row
  noFormula : (sheet.cellAt col row).hasFormula = false
  notInside : sheet.isMergedNonMaster col row = false

theorem CellEdit.isInto_of_fileCell {e : CellEdit} {c : Column} {row : Nat} {label : String}
    (href : e.ref = cellRef c.letters row)
    (hcell : cellProblem (sheet.fileCell (colToIndex c.letters) row) label = none) :
    e.IsInto sheet (colToIndex c.letters) row := by
  obtain ⟨hformula, hmerged⟩ := cellProblem_eq_none.1 hcell
  refine ⟨?_, hformula, hmerged⟩
  rw [href, indexToCol_colToIndex c.shape]

theorem reasonCell_fileRow {c : Column} {cell : FileCell} {row : Nat}
    (hc : dto.reasonColumn = some c)
    (hcell : cell ∈ (dto.planInput sheet students.1 previous).reasonCell (dto.fileRow sheet row)) :
    cell = sheet.fileCell (colToIndex c.letters) row := by
  unfold PlanInput.reasonCell PlanDto.planInput PlanDto.fileRow at hcell
  rw [hc] at hcell
  exact (Option.some_inj.1 hcell).symm

theorem cell_of_edit (h : computePlan nfkc sha256 dto sheet students previous = .ok plan)
    {e : CellEdit} (he : e ∈ cellEdits dto plan) : ∃ col row, e.IsInto sheet col row := by
  obtain ⟨_, hbuild⟩ := buildPlan_of_computePlan h
  obtain ⟨r, hr, he⟩ := List.mem_flatMap.1 he
  obtain ⟨file, hfile, m, hplan⟩ := exists_file hbuild hr
  obtain ⟨row, _, rfl⟩ := List.mem_map.1 hfile
  have hrow : r.row = row := (planRow_cases hplan).1
  rcases rowEdits_cases he with
    ⟨hwrite, x, _, rfl⟩ | ⟨hwrite, hclears, c, hc, rfl⟩ | ⟨hblank, hwrites, c, reason, hc, rfl⟩
  · obtain ⟨key, s, _, _, hscore⟩ := writesScore_of_action hplan hwrite
    exact ⟨_, row, CellEdit.isInto_of_fileCell (by rw [← hrow]; rfl) hscore.scoreCell⟩
  · obtain ⟨key, s, _, _, hscore⟩ := writesScore_of_action hplan hwrite
    obtain ⟨cell, hcell, hproblem⟩ := hscore.reasonCell hclears
    rw [reasonCell_fileRow hc hcell] at hproblem
    exact ⟨_, row, CellEdit.isInto_of_fileCell (by rw [← hrow]; rfl) hproblem⟩
  · obtain ⟨s, hreason⟩ := writesReason_of_action hplan hblank
    obtain ⟨cell, hcell, hproblem⟩ := hreason.reasonCell hwrites
    rw [reasonCell_fileRow hc hcell] at hproblem
    exact ⟨_, row, CellEdit.isInto_of_fileCell (by rw [← hrow]; rfl) hproblem⟩

/-- The student that a row of the plan is about: the one that is known under
the number. -/
def PlanInput.studentOf (input : PlanInput) (r : PlanRow) : Option PlanStudent :=
  r.studentMssv.bind fun mssv => input.byKey.get? (lowerCase mssv)

/-- A number is the rounded score of the student of its row. -/
structure WritesRounded (input : PlanInput) (dto : PlanDto) (r : PlanRow) (s : PlanStudent)
    (ref : String) (h : Int) : Prop where
  action : r.action = .write
  ref : ref = cellRef dto.scoreColumn.letters r.row
  student : input.studentOf r = some s
  listed : s ∈ input.students
  scored : ∃ hundredths computationId source, s.outcome = .scored hundredths computationId source ∧
    RoundsHalfUp hundredths input.roundingStep h

theorem number_of_edit {r : PlanRow} {ref : String} {x : Int}
    (h : buildPlan nfkc sha256 (dto.planInput sheet students.1 previous) = .ok plan)
    (hr : r ∈ plan.rows) (he : CellEdit.number ref x ∈ rowEdits dto r) :
    ∃ s, WritesRounded (dto.planInput sheet students.1 previous) dto r s ref x := by
  obtain ⟨file, _, m, hplan⟩ := exists_file h hr
  rcases rowEdits_cases he with ⟨hwrite, x', hx', heq⟩ | ⟨_, _, _, _, heq⟩ | ⟨_, _, _, _, _, heq⟩
  · obtain ⟨key, s, hundredths, written, hscore⟩ := writesScore_of_action hplan hwrite
    obtain ⟨rfl, rfl⟩ := CellEdit.number.inj heq
    obtain rfl : x = written := Option.some_inj.1 (hx'.symm.trans hscore.score)
    obtain ⟨computationId, source, houtcome⟩ := hscore.outcome
    obtain ⟨hlisted, hkey⟩ := mem_of_byKey hscore.names.2
    refine ⟨s, hwrite, rfl, ?_, hlisted, hundredths, computationId, source, houtcome,
      roundHalfUp_spec hscore.rounded⟩
    rw [PlanInput.studentOf, hscore.mssv, Option.bind_some, hkey]
    exact hscore.names.2
  · cases heq
  · cases heq

/-- No mark of a plan is on a wrong row: a student is written into one row,
a row is about one student, the numbers are the rounded scores, and no edit
meets another edit, a formula or the inside of a merged range. -/
structure PlanSafe (dto : PlanDto) (sheet : SheetRead) (input : PlanInput) (plan : ExportPlan) :
    Prop where
  oneRow : (plan.rows.filterMap PlanRow.writtenKey).Nodup
  rows : (plan.rows.map PlanRow.row).Nodup
  numbers : ∀ ref h, CellEdit.number ref h ∈ cellEdits dto plan →
    ∃ r ∈ plan.rows, ∃ s, WritesRounded input dto r s ref h
  unscored : ∀ s ∈ input.students,
    ((∃ reason, s.outcome = .blank reason) ∨ ∃ reason, s.outcome = .conflict reason) →
      ∀ r ∈ plan.rows, input.studentOf r = some s →
        ∀ ref h, CellEdit.number ref h ∉ rowEdits dto r
  cells : ∀ e ∈ cellEdits dto plan, ∃ col row, e.IsInto sheet col row
  refs : ((cellEdits dto plan).map CellEdit.ref).Nodup

theorem scored_of_number
    (h : buildPlan nfkc sha256 (dto.planInput sheet students.1 previous) = .ok plan)
    {s : PlanStudent} {r : PlanRow} {ref : String} {x : Int} (hr : r ∈ plan.rows)
    (hs : (dto.planInput sheet students.1 previous).studentOf r = some s)
    (he : CellEdit.number ref x ∈ rowEdits dto r) :
    ∃ hundredths computationId source, s.outcome = .scored hundredths computationId source := by
  obtain ⟨t, ht⟩ := number_of_edit h hr he
  obtain rfl : t = s := Option.some_inj.1 (ht.student.symm.trans hs)
  obtain ⟨hundredths, computationId, source, houtcome, _⟩ := ht.scored
  exact ⟨hundredths, computationId, source, houtcome⟩

/-- A plan that is computed writes no mark on a wrong row. -/
theorem computePlan_safe (nfkc sha256 : String → String) (dto : PlanDto) (sheet : SheetRead)
    (students : List PlanStudent × Nat) (previous : OrderedMap String Int) (plan : ExportPlan)
    (h : computePlan nfkc sha256 dto sheet students previous = .ok plan) :
    PlanSafe dto sheet (dto.planInput sheet students.1 previous) plan := by
  obtain ⟨_, hbuild⟩ := buildPlan_of_computePlan h
  refine ⟨writtenKeys_nodup hbuild, rowNumbers_nodup hbuild, ?_, ?_, fun e => cell_of_edit h,
    refs_nodup h⟩
  · intro ref x he
    obtain ⟨r, hr, he⟩ := List.mem_flatMap.1 he
    obtain ⟨s, hs⟩ := number_of_edit hbuild hr he
    exact ⟨r, hr, s, hs⟩
  · intro s _ hunscored r hr hs ref x he
    obtain ⟨hundredths, computationId, source, houtcome⟩ := scored_of_number hbuild hr hs he
    rcases hunscored with ⟨reason, hreason⟩ | ⟨reason, hreason⟩
    · rw [hreason] at houtcome
      cases houtcome
    · rw [hreason] at houtcome
      cases houtcome

end Edits

/-! ## A column of scores with merged cells -/

def mergedDto : PlanDto where
  firstDataRow := 2
  mssvColumn := ⟨"A", by decide +kernel⟩
  scoreColumn := ⟨"C", by decide +kernel⟩
  reasonColumn := none
  roundingStepHundredths := 50

/-- The cells C2 and C3 are one merged range. -/
def mergedSheet : SheetRead where
  isProtected := false
  rowCount := 3
  cells := .ofList [("A1", ⟨"MSSV", .text, false⟩), ("A2", ⟨"20120001", .number, false⟩),
    ("A3", ⟨"20120002", .number, false⟩)]
  merges := [⟨3, 2, 3, 3⟩]

def mergedStudents : List PlanStudent :=
  [⟨"20120001", "An", .scored 725 none .total⟩, ⟨"20120002", "Bình", .scored 800 none .total⟩]

/-- The hash of the one text that is hashed here. -/
def mergedSha256 (_ : String) : String :=
  "2143fc43f07f34529c013331790529e0435a6f07e63a2468a3b98772317822a8"

def mergedPlan : Except String ExportPlan :=
  computePlan id mergedSha256 mergedDto mergedSheet (mergedStudents, 2) (.ofList [])

theorem mergedPlan_safe :
    ∃ plan, mergedPlan = .ok plan ∧ cellEdits mergedDto plan = [.number "C2" 750] ∧
      PlanSafe mergedDto mergedSheet
        (mergedDto.planInput mergedSheet mergedStudents (.ofList [])) plan := by
  have hedits : mergedPlan.toOption.map (cellEdits mergedDto) = some [.number "C2" 750] := by
    decide
  cases hplan : mergedPlan with
  | error e =>
    rw [hplan] at hedits
    cases hedits
  | ok plan =>
    rw [hplan] at hedits
    exact ⟨plan, rfl, Option.some_inj.1 hedits,
      computePlan_safe id mergedSha256 mergedDto mergedSheet (mergedStudents, 2) (.ofList []) plan
        hplan⟩

/-- The first cell of a merged range gets a number, and nothing speaks
against the plan. -/
theorem mergedPlan_writes_merged :
    ∃ plan, mergedPlan = .ok plan ∧ plan.blockers = [] ∧
      ∃ e ∈ cellEdits mergedDto plan, e.ref = cellRef (indexToCol 3) 2 ∧
        ∃ m ∈ mergedSheet.merges, m.has 3 2 = true := by
  have hread : mergedPlan.toOption.map (fun plan => (plan.blockers, cellEdits mergedDto plan)) =
      some ([], [.number "C2" 750]) := by
    decide
  cases hplan : mergedPlan with
  | error e =>
    rw [hplan] at hread
    cases hread
  | ok plan =>
    rw [hplan] at hread
    obtain ⟨hblockers, hedits⟩ := Prod.mk.inj (Option.some_inj.1 hread)
    refine ⟨plan, rfl, hblockers, .number "C2" 750, hedits ▸ List.mem_singleton_self _, ?_⟩
    decide

end Cine.Grading
