import Cine.Grading.Rules.RuleOperations
import Cine.Grading.Scoring.RecomputedMarks
import Cine.Grading.Scoring.RenamedRule

/-!
# A rule of its own for one rubric

What `split` writes before it recomputes, as one database: `Db.splitOff`.

* `OwnCopy` collects what `split` knows of the row it moves and of the copy it
  makes.
* The table of the rubric has the copy in the place of the rule
  (`OwnCopy.table`), and the tables of the other rubrics stay.
* The exceptions for the rule on the papers of the rubric are exceptions for
  the copy as well (`OwnCopy.exceptions_own`), and other papers keep theirs.

Together a paper of the rubric is computed with the copy in the place of the
rule: `OwnCopy.replaced`.
-/

namespace Cine.Grading

open Cine.Lib

variable {K : Type}

/-- Every exception is for a rule of the table. -/
def Db.ExceptionsOfRules (db : Db K) : Prop :=
  ∀ t ∈ db.reviews, ∀ ruleId, t.errorRuleId = some ruleId →
    ruleId ∈ db.rules.map ErrorRuleRow.id

/-- The row `row` of `rubricName` with the rule `copy` in the place of
`ruleId`, and with the exceptions copied. -/
def Db.splitOff (db : Db K) (rubricName ruleId : String) (row : RubricErrorRow)
    (copy : ErrorRuleRow) (n : Nat) : Db K :=
  { db with
    rules := db.rules ++ [copy]
    rubricErrors := updateRow RubricErrorRow.id db.rubricErrors row.id fun re =>
      { re with errorRuleId := copy.id }
    reviews := db.reviews ++ db.copiedExceptions rubricName ruleId copy.id
    drawnIds := n }

/-- The row that `split` moves, and the copy of the rule. -/
structure OwnCopy (db : Db K) (rubricName ruleId : String) (rule : ErrorRuleRow)
    (row : RubricErrorRow) (copy : ErrorRuleRow) : Prop where
  rule : db.rule ruleId = some rule
  row_mem : row ∈ db.rubricErrors
  rubricName : row.rubricName = rubricName
  ruleId : row.errorRuleId = ruleId
  removed : row.removed = false
  active : copy.state = .active
  id_new : copy.id ∉ db.rules.map ErrorRuleRow.id
  key_new : copy.ruleKey ∉ db.rules.map ErrorRuleRow.ruleKey

/-! ## The edit of `split` -/

theorem insertRule_writes (env : GradingEnv K) {db : Db K} (ruleKey name description : String)
    (predicate : Option RulePredicate) :
    Ensures (insertRule env ruleKey name description predicate) db fun id db' =>
      ∃ copy n, copy.id = id ∧ copy.ruleKey = ruleKey ∧ copy.state = .active ∧
        copy.current.predicate = predicate ∧ copy.id ∉ db.rules.map ErrorRuleRow.id ∧
        db' = { db with rules := db.rules ++ [copy], drawnIds := n } := by
  rw [insertRule]
  refine (freshId_spec env _ db).bind fun id db₁ h₁ => ?_
  refine (freshId_spec env _ db₁).bind fun revisionId db₂ h₂ => ?_
  obtain ⟨hid, rfl⟩ := h₁
  obtain ⟨_, rfl⟩ := h₂
  exact ensures_bind (ensures_modify (ensures_pure ⟨_, _, rfl, rfl, rfl, rfl, hid, rfl⟩))

theorem split_spec [Number K] (env : GradingEnv K) {db : Db K}
    (hids : (db.results.map ResultRow.id).Nodup) (ruleId rubricName : String)
    (changes : RuleChanges) :
    Ensures (split env ruleId rubricName changes) db fun p db' =>
      ∃ rule row copy n, OwnCopy db rubricName ruleId rule row copy ∧
        copy.current.predicate = (changes.apply rule.current).predicate ∧
        db.freeRuleKey (env.slugifyRuleKey (changes.apply rule.current).name) =
          some copy.ruleKey ∧ p.1 = copy.id ∧
        db'.rules = db.rules ++ [copy] ∧
        ∀ id, db'.recomputed env id =
          (db.splitOff rubricName ruleId row copy n).recomputed env id := by
  rw [split]
  refine (ownedRule_spec ruleId).bind fun rule db₁ h₁ => ?_
  obtain ⟨rfl, hrule⟩ := h₁
  refine ensures_bind (ensures_get ?_)
  split
  · exact ensures_throw
  · rename_i row hrow
    refine ensures_ite (fun _ => ensures_bind ensures_throw) fun _ => ?_
    refine (uniqueRuleKey_spec _).bind fun ruleKey db₂ h₂ => ?_
    obtain ⟨rfl, hkey, hfree⟩ := h₂
    refine (insertRule_writes env _ _ _ _).bind fun newRuleId db₃ h₃ => ?_
    obtain ⟨copy, n, rfl, rfl, hactive, hpredicate, hid, rfl⟩ := h₃
    refine ensures_bind (ensures_modify (ensures_bind (ensures_modify ?_)))
    have hfound := List.find?_some hrow
    obtain ⟨hname, hruleId, hremoved⟩ := of_decide_eq_true hfound
    have hcopy : OwnCopy db₂ rubricName ruleId rule row copy :=
      ⟨hrule, List.mem_of_find?_eq_some hrow, hname, hruleId, hremoved, hactive, hid, hfree⟩
    show Ensures (recomputeForTeacher env .ruleRevision { rubricName := some rubricName } >>=
      fun _ => pure (copy.id, row.id)) (db₂.splitOff rubricName ruleId row copy n) _
    refine Ensures.bind (@recomputeForTeacher_recomputed _ _ _
      (db₂.splitOff rubricName ruleId row copy n) hids _ _) fun _ db' h' => ensures_pure ?_
    exact ⟨rule, row, copy, n, hcopy, hpredicate, hkey, rfl, h'.1, h'.2⟩

/-! ## The tables after the edit -/

namespace OwnCopy

variable {db : Db K} {rubricName ruleId : String} {rule : ErrorRuleRow} {row : RubricErrorRow}
  {copy : ErrorRuleRow}

theorem rule_of_row (htidy : Tidy db) (n : Nat) {re : RubricErrorRow}
    (hre : re ∈ db.rubricErrors) :
    (db.splitOff rubricName ruleId row copy n).rule re.errorRuleId = db.rule re.errorRuleId := by
  obtain ⟨found, hfound, _⟩ := htidy.rowRules re hre
  show rowOf ErrorRuleRow.id (db.rules ++ [copy]) re.errorRuleId = _
  rw [hfound]
  exact rowOf_append_of_some _ hfound

theorem rule_copy (h : OwnCopy db rubricName ruleId rule row copy) (n : Nat) :
    (db.splitOff rubricName ruleId row copy n).rule copy.id = some copy :=
  rule_of_newRule h.id_new

theorem tidy (h : OwnCopy db rubricName ruleId rule row copy) (htidy : Tidy db) (n : Nat) :
    Tidy (db.splitOff rubricName ruleId row copy n) := by
  have hinserted : KeepsTables db { db with rules := db.rules ++ [copy], drawnIds := n } :=
    keepsTables_newRule htidy h.key_new n
  have hstate : copy.state ≠ .proposed := by
    rw [h.active]
    decide
  have hunused : ∀ re ∈ db.rubricErrors, re.errorRuleId ≠ copy.id := by
    intro re hre heq
    obtain ⟨found, hfound, _⟩ := htidy.rowRules re hre
    refine h.id_new (List.mem_map.2 ⟨found, mem_of_rowOf hfound, ?_⟩)
    rw [← heq]
    exact rowOf_key hfound
  have hcopy : Db.rule { db with rules := db.rules ++ [copy], drawnIds := n } copy.id =
      some copy := rule_of_newRule h.id_new
  have hmoved := hinserted.tidy.splitRow row hcopy hstate hunused
  exact ⟨hmoved.ruleKeys, hmoved.rowIds, hmoved.uses, hmoved.rowRules⟩

/-- What the row that is moved adds to the table of its rubric. -/
def snapshotOn (db : Db K) (row : RubricErrorRow) (rule : ErrorRuleRow) : RuleSnapshot :=
  { ruleId := rule.id
    revisionId := rule.current.id
    ruleKey := rule.ruleKey
    criterionKey := row.criterionKey
    predicate := rule.current.predicate
    deductionHundredths := db.currentPrice row.id }

theorem rows (h : OwnCopy db rubricName ruleId rule row copy) (htidy : Tidy db) (n : Nat)
    (name : String) :
    ∃ front back, db.rubricErrors = front ++ row :: back ∧
      (db.splitOff rubricName ruleId row copy n).rubricErrors =
        front ++ { row with errorRuleId := copy.id } :: back ∧
      ∀ re ∈ front ++ back, (db.splitOff rubricName ruleId row copy n).contribution name re =
        db.contribution name re := by
  obtain ⟨front, back, hrows⟩ := List.append_of_mem h.row_mem
  have hids := htidy.rowIds
  rw [hrows, List.map_append, List.map_cons, List.nodup_middle, List.nodup_cons,
    ← List.map_append] at hids
  have hne : ∀ re ∈ front ++ back, re.id ≠ row.id :=
    fun re hre heq => hids.1 (heq ▸ List.mem_map_of_mem hre)
  refine ⟨front, back, hrows, ?_, fun re hre => ?_⟩
  · have hfront : updateRow RubricErrorRow.id front row.id (fun re =>
        { re with errorRuleId := copy.id }) = front :=
      updateRow_of_forall_ne fun re hre => hne re (List.mem_append_left _ hre)
    have hback : updateRow RubricErrorRow.id back row.id (fun re =>
        { re with errorRuleId := copy.id }) = back :=
      updateRow_of_forall_ne fun re hre => hne re (List.mem_append_right _ hre)
    show updateRow RubricErrorRow.id db.rubricErrors row.id _ = _
    rw [hrows]
    unfold updateRow at hfront hback ⊢
    rw [List.map_append, List.map_cons, hfront, hback, if_pos rfl]
  · have hmem : re ∈ db.rubricErrors := by
      rw [hrows]
      rcases List.mem_append.1 hre with hre | hre
      · exact List.mem_append_left _ hre
      · exact List.mem_append_right _ (List.mem_cons_of_mem _ hre)
    unfold Db.contribution
    split_ifs
    · exact snapshotOf_congr (rule_of_row htidy n hmem) rfl
    · rfl

theorem table_other (h : OwnCopy db rubricName ruleId rule row copy) (htidy : Tidy db) (n : Nat)
    {name : String} (hne : name ≠ rubricName) :
    (db.splitOff rubricName ruleId row copy n).snapshots name = db.snapshots name := by
  obtain ⟨front, back, hrows, hrows', hsame⟩ := h.rows htidy n name
  have hname : ¬ (row.rubricName = name ∧ row.removed = false) :=
    fun hrow => hne (hrow.1.symm.trans h.rubricName)
  have hold : db.contribution name row = none := if_neg hname
  have hnew : (db.splitOff rubricName ruleId row copy n).contribution name
      { row with errorRuleId := copy.id } = none := if_neg hname
  rw [snapshots_eq, snapshots_eq, hrows, hrows']
  congr 1
  rw [List.filterMap_append, List.filterMap_append, List.filterMap_cons_none hold,
    List.filterMap_cons_none hnew, ← List.filterMap_append, ← List.filterMap_append]
  exact List.filterMap_congr hsame

theorem table (h : OwnCopy db rubricName ruleId rule row copy) (htidy : Tidy db)
    (hactive : rule.state = .active) (n : Nat) :
    ∃ others, (db.snapshots rubricName).Perm (snapshotOn db row rule :: others) ∧
      ((db.splitOff rubricName ruleId row copy n).snapshots rubricName).Perm
        (snapshotOn db row copy :: others) := by
  obtain ⟨front, back, hrows, hrows', hsame⟩ := h.rows htidy n rubricName
  have hold : db.contribution rubricName row = some (snapshotOn db row rule) := by
    unfold Db.contribution Db.snapshotOf
    rw [if_pos ⟨h.rubricName, h.removed⟩, h.ruleId, h.rule]
    exact if_pos hactive
  have hnew : (db.splitOff rubricName ruleId row copy n).contribution rubricName
      { row with errorRuleId := copy.id } = some (snapshotOn db row copy) := by
    unfold Db.contribution Db.snapshotOf
    rw [if_pos ⟨h.rubricName, h.removed⟩, h.rule_copy n]
    exact if_pos h.active
  refine ⟨(front ++ back).filterMap (db.contribution rubricName), ?_, ?_⟩
  · rw [snapshots_eq, hrows, List.filterMap_append, List.filterMap_append,
      List.filterMap_cons_some hold]
    exact (perm_sortByKey _).trans List.perm_middle
  · rw [snapshots_eq, hrows', ← List.filterMap_congr hsame, List.filterMap_append,
      List.filterMap_append, List.filterMap_cons_some hnew]
    exact (perm_sortByKey _).trans List.perm_middle

/-! ## The exceptions after the edit -/

theorem exceptionsOf_splitOff (n : Nat) (resultId : String) :
    (db.splitOff rubricName ruleId row copy n).exceptionsOf resultId =
      .ofList (((db.reviews.filter fun t =>
          t.gradingResultId = resultId ∧ t.kind = .errorException).filterMap fun t =>
            t.errorRuleId.bind fun ruleId => t.direction.map (ruleId, ·)) ++
        ((db.copiedExceptions rubricName ruleId copy.id).filter fun t =>
          t.gradingResultId = resultId ∧ t.kind = .errorException).filterMap fun t =>
            t.errorRuleId.bind fun ruleId => t.direction.map (ruleId, ·)) := by
  unfold Db.exceptionsOf
  show OrderedMap.ofList (List.filterMap _ (List.filter _ (_ ++ _))) = _
  rw [List.filter_append, List.filterMap_append]

theorem mem_copied {g : ResultRow} (hg : g ∈ db.results)
    (hname : ((db.rubric g.rubricIdVersion).any fun rb => rb.name = rubricName) = true)
    (e : String × ErrorException) :
    e ∈ ((db.copiedExceptions rubricName ruleId copy.id).filter fun t =>
        t.gradingResultId = g.id ∧ t.kind = .errorException).filterMap (fun t =>
          t.errorRuleId.bind fun ruleId => t.direction.map (ruleId, ·)) ↔
      e.1 = copy.id ∧ (db.exceptionsOf g.id).get? ruleId = some e.2 := by
  rw [List.mem_filterMap]
  constructor
  · rintro ⟨t, ht, hentry⟩
    obtain ⟨ht, hmatch⟩ := List.mem_filter.1 ht
    obtain ⟨g', _, hcopied⟩ := List.mem_filterMap.1 ht
    obtain ⟨direction, hdirection, rfl⟩ := Option.map_eq_some_iff.1 hcopied
    have hid : g'.id = g.id := (of_decide_eq_true hmatch).1
    rw [hid] at hdirection
    cases hentry
    exact ⟨rfl, hdirection⟩
  · rintro ⟨hkey, hdirection⟩
    refine ⟨⟨g.id, .errorException, none, some copy.id, some e.2⟩, ?_, ?_⟩
    · refine List.mem_filter.2 ⟨List.mem_filterMap.2 ⟨g, ?_, ?_⟩, decide_eq_true ⟨rfl, rfl⟩⟩
      · exact mem_sortByKey.2 (List.mem_filter.2 ⟨hg, hname⟩)
      · rw [hdirection]
        rfl
    · rw [← hkey]
      rfl

theorem exceptions_own (h : OwnCopy db rubricName ruleId rule row copy)
    (hreviews : db.ExceptionsOfRules) (n : Nat) {g : ResultRow} (hg : g ∈ db.results)
    (hname : ((db.rubric g.rubricIdVersion).any fun rb => rb.name = rubricName) = true)
    (id : String) :
    ((db.splitOff rubricName ruleId row copy n).exceptionsOf g.id).get? id =
      if id = copy.id then (db.exceptionsOf g.id).get? ruleId
      else (db.exceptionsOf g.id).get? id := by
  rw [exceptionsOf_splitOff, OrderedMap.get?_ofList_append]
  set copied := ((db.copiedExceptions rubricName ruleId copy.id).filter fun t =>
    t.gradingResultId = g.id ∧ t.kind = .errorException).filterMap (fun t =>
      t.errorRuleId.bind fun ruleId => t.direction.map (ruleId, ·)) with hcopied
  have hmem : ∀ e, e ∈ copied ↔
      e.1 = copy.id ∧ (db.exceptionsOf g.id).get? ruleId = some e.2 := mem_copied hg hname
  show ((OrderedMap.ofList copied).get? id).or ((db.exceptionsOf g.id).get? id) = _
  have hnew : (db.exceptionsOf g.id).get? copy.id = none := by
    refine OrderedMap.get?_ofList_eq_none.2 fun hkey => h.id_new ?_
    obtain ⟨e, he, hek⟩ := List.mem_map.1 hkey
    obtain ⟨t, ht, hentry⟩ := List.mem_filterMap.1 he
    cases hid : t.errorRuleId with
    | none =>
      rw [hid] at hentry
      cases hentry
    | some ruleId' =>
      rw [hid, Option.bind_some, Option.map_eq_some_iff] at hentry
      obtain ⟨_, _, rfl⟩ := hentry
      rw [← hek]
      exact hreviews t (List.mem_filter.1 ht).1 ruleId' hid
  split_ifs with hid
  · subst hid
    rw [hnew, Option.or_none]
    cases hdirection : (db.exceptionsOf g.id).get? ruleId with
    | none =>
      refine OrderedMap.get?_ofList_eq_none.2 fun hkey => ?_
      obtain ⟨e, he, _⟩ := List.mem_map.1 hkey
      have hsome := ((hmem e).1 he).2
      rw [hdirection] at hsome
      cases hsome
    | some direction =>
      have hentry : (copy.id, direction) ∈ copied := (hmem _).2 ⟨rfl, hdirection⟩
      obtain ⟨d, hd⟩ := Option.isSome_iff_exists.1
        (OrderedMap.get?_ofList_isSome.2 (List.mem_map_of_mem (f := Prod.fst) hentry))
      have hsame := ((hmem _).1 (OrderedMap.mem_of_get?_ofList hd)).2
      rw [hdirection] at hsame
      rw [hd, hsame]
  · have hnone : (OrderedMap.ofList copied).get? id = none := by
      refine OrderedMap.get?_ofList_eq_none.2 fun hkey => ?_
      obtain ⟨e, he, hek⟩ := List.mem_map.1 hkey
      exact hid (hek.symm.trans ((hmem e).1 he).1)
    rw [hnone, Option.none_or]

theorem exceptions_other (hids : (db.results.map ResultRow.id).Nodup) (n : Nat) {g : ResultRow}
    (hg : g ∈ db.results)
    (hname : ∀ rubric, db.rubric g.rubricIdVersion = some rubric → rubric.name ≠ rubricName) :
    (db.splitOff rubricName ruleId row copy n).exceptionsOf g.id = db.exceptionsOf g.id :=
  @exceptionsOf_split _ db hids _ _ _ _ hg hname

end OwnCopy

end Cine.Grading
