import Cine.Grading.Rules.ErrorRules

/-!
# The table of rules of a rubric

What the operations on rules do to the table that a score reads,
`Db.snapshots`.

* `Tidy` is the invariant of the rule tables: one key for each rule, one row
  for each use of a rule, and no row for a rule that is only proposed.
* `ConfinedTo` says that an edit changes the table of one rubric only.
  Every operation is an edit of this kind, followed by a recomputation.
* `NewRuleIn` says that the edit of `assign` adds one rule to that table.
-/

namespace Cine.Grading

open Cine.Lib

variable {K : Type}

/-! ## The invariant of the rule tables -/

structure Tidy (db : Db K) : Prop where
  ruleKeys : (db.rules.map ErrorRuleRow.ruleKey).Nodup
  rowIds : (db.rubricErrors.map RubricErrorRow.id).Nodup
  uses : (db.rubricErrors.map fun re => (re.rubricName, re.errorRuleId)).Nodup
  rowRules : ∀ re ∈ db.rubricErrors,
    ∃ rule, db.rule re.errorRuleId = some rule ∧ rule.state ≠ .proposed

/-- What a row adds to the table of a rubric. -/
def Db.contribution (db : Db K) (rubricName : String) (re : RubricErrorRow) :
    Option RuleSnapshot :=
  if re.rubricName = rubricName ∧ re.removed = false then db.snapshotOf re else none

theorem snapshots_eq (db : Db K) (rubricName : String) :
    db.snapshots rubricName =
      sortByKey RuleSnapshot.ruleKey (db.rubricErrors.filterMap (db.contribution rubricName)) := by
  rw [Db.snapshots, Db.rubricErrorsOf, List.filterMap_filter]
  congr 1
  refine List.filterMap_congr fun re _ => ?_
  rw [Db.contribution]
  simp only [decide_eq_true_eq]

variable {db db' db'' : Db K} {re : RubricErrorRow} {s : RuleSnapshot} {rubricName : String}
    {rule : ErrorRuleRow}

theorem snapshotOf_eq_some (h : db.snapshotOf re = some s) :
    ∃ rule, db.rule re.errorRuleId = some rule ∧ rule.state = .active ∧
      s = { ruleId := rule.id
            revisionId := rule.current.id
            ruleKey := rule.ruleKey
            criterionKey := re.criterionKey
            predicate := rule.current.predicate
            deductionHundredths := db.currentPrice re.id } := by
  rw [Db.snapshotOf] at h
  split at h
  · cases h
  · rename_i rule hrule
    split_ifs at h with hactive
    exact ⟨rule, hrule, hactive, (Option.some.inj h).symm⟩

theorem contribution_eq_some (h : db.contribution rubricName re = some s) :
    re.rubricName = rubricName ∧ re.removed = false ∧ db.snapshotOf re = some s := by
  rw [Db.contribution] at h
  split_ifs at h with hrow
  exact ⟨hrow.1, hrow.2, h⟩

theorem mem_snapshots :
    s ∈ db.snapshots rubricName ↔
      ∃ re ∈ db.rubricErrors, db.contribution rubricName re = some s := by
  rw [snapshots_eq, mem_sortByKey, List.mem_filterMap]

theorem rule_of_snapshot (hs : s ∈ db.snapshots rubricName) :
    ∃ rule, db.rule s.ruleId = some rule ∧ rule.ruleKey = s.ruleKey := by
  obtain ⟨re, _, hc⟩ := mem_snapshots.1 hs
  obtain ⟨_, _, hsnap⟩ := contribution_eq_some hc
  obtain ⟨rule, hrule, _, rfl⟩ := snapshotOf_eq_some hsnap
  refine ⟨rule, ?_, rfl⟩
  show db.rule rule.id = some rule
  rw [rowOf_key hrule]
  exact hrule

theorem Tidy.row_eq (h : Tidy db) {re' : RubricErrorRow} {s' : RuleSnapshot}
    (hre : re ∈ db.rubricErrors) (hre' : re' ∈ db.rubricErrors)
    (hs : db.contribution rubricName re = some s) (hs' : db.contribution rubricName re' = some s')
    (hkey : s.ruleKey = s'.ruleKey) : re = re' := by
  obtain ⟨hname, _, hsnap⟩ := contribution_eq_some hs
  obtain ⟨hname', _, hsnap'⟩ := contribution_eq_some hs'
  obtain ⟨rule, hrule, _, rfl⟩ := snapshotOf_eq_some hsnap
  obtain ⟨rule', hrule', _, rfl⟩ := snapshotOf_eq_some hsnap'
  have hsame : rule = rule' :=
    List.inj_on_of_nodup_map h.ruleKeys (mem_of_rowOf hrule) (mem_of_rowOf hrule') hkey
  have hid : re.errorRuleId = re'.errorRuleId := by
    rw [← rowOf_key hrule, ← rowOf_key hrule', hsame]
  refine List.inj_on_of_nodup_map h.uses hre hre' ?_
  rw [hname, hname', hid]

theorem Tidy.contributions_nodup (h : Tidy db) (rubricName : String) :
    ((db.rubricErrors.filterMap (db.contribution rubricName)).map RuleSnapshot.ruleKey).Nodup := by
  have hrows : db.rubricErrors.Nodup := h.rowIds.of_map _
  rw [List.Nodup, List.pairwise_map, List.pairwise_filterMap]
  refine (List.Pairwise.and_mem.1 hrows).imp ?_
  rintro re re' ⟨hre, hre', hne⟩ s hs s' hs' hkey
  exact hne (h.row_eq hre hre' hs hs' hkey)

theorem Tidy.keys_nodup (h : Tidy db) (rubricName : String) :
    ((db.snapshots rubricName).map RuleSnapshot.ruleKey).Nodup := by
  rw [snapshots_eq]
  exact nodup_sortByKey (h.contributions_nodup rubricName)

/-! ## Edits that stay in one rubric -/

/-- The tables that no edit of the rules touches. -/
structure RulerEdit (db db' : Db K) : Prop where
  tables : db' = { db with
    rules := db'.rules
    rubricErrors := db'.rubricErrors
    priceVersions := db'.priceVersions
    waivers := db'.waivers
    sightings := db'.sightings
    reviews := db'.reviews
    drawnIds := db'.drawnIds }
  manual : ∀ id, db'.hasManualScore id = db.hasManualScore id

theorem RulerEdit.refl (db : Db K) : RulerEdit db db := ⟨rfl, fun _ => rfl⟩

theorem RulerEdit.trans (h : RulerEdit db db') (h' : RulerEdit db' db'') : RulerEdit db db'' := by
  refine ⟨?_, fun id => (h'.manual id).trans (h.manual id)⟩
  have htables := h'.tables
  rw [h.tables] at htables
  exact htables

/-- The edit changes the table of the rubric `rubricName` only. -/
structure ConfinedTo (rubricName : String) (db db' : Db K) : Prop where
  edit : RulerEdit db db'
  tidy : Tidy db'
  reviews : db'.reviews = db.reviews
  rows : ∀ re ∈ db.rubricErrors,
    ∃ re' ∈ db'.rubricErrors, re'.id = re.id ∧ re'.rubricName = re.rubricName
  others : ∀ name, name ≠ rubricName → db'.snapshots name = db.snapshots name

theorem ConfinedTo.refl (h : Tidy db) : ConfinedTo rubricName db db :=
  ⟨.refl db, h, rfl, fun re hre => ⟨re, hre, rfl, rfl⟩, fun _ _ => rfl⟩

theorem ConfinedTo.trans (h : ConfinedTo rubricName db db') (h' : ConfinedTo rubricName db' db'') :
    ConfinedTo rubricName db db'' := by
  refine ⟨h.edit.trans h'.edit, h'.tidy, h'.reviews.trans h.reviews, ?_, ?_⟩
  · intro re hre
    obtain ⟨re', hre', hid, hname⟩ := h.rows re hre
    obtain ⟨re'', hre'', hid', hname'⟩ := h'.rows re' hre'
    exact ⟨re'', hre'', hid'.trans hid, hname'.trans hname⟩
  · intro name hne
    rw [h'.others name hne, h.others name hne]

theorem snapshots_congr (hrows : db'.rubricErrors = db.rubricErrors)
    (h : ∀ re ∈ db.rubricErrors, re.rubricName = rubricName → db'.snapshotOf re = db.snapshotOf re) :
    db'.snapshots rubricName = db.snapshots rubricName := by
  rw [snapshots_eq, snapshots_eq, hrows]
  congr 1
  refine List.filterMap_congr fun re hre => ?_
  rw [Db.contribution, Db.contribution]
  split_ifs with hrow
  · exact h re hre hrow.1
  · rfl

theorem snapshotOf_congr (hrule : db'.rule re.errorRuleId = db.rule re.errorRuleId)
    (hprice : db'.currentPrice re.id = db.currentPrice re.id) :
    db'.snapshotOf re = db.snapshotOf re := by
  rw [Db.snapshotOf, Db.snapshotOf, hrule, hprice]

/-! ## Edits of one row -/

section Rows

variable {db : Db K} {id : String} {row : RubricErrorRow} {f : RubricErrorRow → RubricErrorRow}

theorem updateRubricError_edit : RulerEdit db (db.updateRubricError id f) :=
  ⟨rfl, fun _ => rfl⟩

theorem Tidy.updateRubricError (h : Tidy db) (hid : ∀ re, (f re).id = re.id)
    (hname : ∀ re, (f re).rubricName = re.rubricName)
    (hrule : ∀ re, (f re).errorRuleId = re.errorRuleId) : Tidy (db.updateRubricError id f) := by
  refine ⟨h.ruleKeys, ?_, ?_, ?_⟩
  · show ((updateRow _ _ _ _).map _).Nodup
    rw [map_updateRow hid]
    exact h.rowIds
  · show ((updateRow _ _ _ _).map _).Nodup
    rw [map_updateRow fun re => by rw [hname, hrule]]
    exact h.uses
  · intro re hre
    obtain ⟨re₀, hre₀, rfl⟩ := mem_updateRow.1 hre
    split_ifs
    · rw [hrule]
      exact h.rowRules re₀ hre₀
    · exact h.rowRules re₀ hre₀

theorem confinedTo_updateRow (h : Tidy db) (h' : Tidy (db.updateRubricError id f))
    (hrow : rowOf RubricErrorRow.id db.rubricErrors id = some row)
    (hid : ∀ re, (f re).id = re.id) (hname : ∀ re, (f re).rubricName = re.rubricName) :
    ConfinedTo row.rubricName db (db.updateRubricError id f) := by
  refine ⟨updateRubricError_edit, h', rfl, ?_, ?_⟩
  · intro re hre
    refine ⟨_, mem_updateRow.2 ⟨re, hre, rfl⟩, ?_⟩
    split_ifs
    · exact ⟨hid re, hname re⟩
    · exact ⟨rfl, rfl⟩
  · intro name hne
    rw [snapshots_eq, snapshots_eq]
    congr 1
    show (updateRow _ _ _ _).filterMap _ = _
    rw [updateRow, List.filterMap_map]
    refine List.filterMap_congr fun re hre => ?_
    rw [Function.comp_apply]
    split_ifs with hre_id
    · have hsame : re = row :=
        List.inj_on_of_nodup_map h.rowIds hre (mem_of_rowOf hrow)
          (hre_id.trans (rowOf_key hrow).symm)
      rw [Db.contribution, Db.contribution, if_neg, if_neg]
      · rw [hsame]
        exact fun hc => hne hc.1.symm
      · rw [hname, hsame]
        exact fun hc => hne hc.1.symm
    · rfl

end Rows

/-! ## New ids -/

theorem freshId_spec (env : GradingEnv K) (taken : Db K → List String) (db : Db K) :
    Ensures (freshId env taken) db fun id db' =>
      id ∉ taken db ∧ db' = { db with drawnIds := db.drawnIds + 1 } := by
  rw [freshId]
  refine ensures_bind (ensures_get ?_)
  refine ensures_ite (fun _ => ensures_bind ensures_throw) fun hfresh => ?_
  exact ensures_bind (ensures_set (ensures_pure ⟨hfresh, rfl⟩))

/-! ## Edits of the rules -/

/-- An edit that changes no table of a rubric. -/
structure KeepsTables (db db' : Db K) : Prop where
  edit : RulerEdit db db'
  tidy : Tidy db'
  reviews : db'.reviews = db.reviews
  rows : db'.rubricErrors = db.rubricErrors
  prices : db'.priceVersions = db.priceVersions
  snapshots : ∀ re ∈ db.rubricErrors, db'.snapshotOf re = db.snapshotOf re

theorem KeepsTables.refl (h : Tidy db) : KeepsTables db db :=
  ⟨.refl db, h, rfl, rfl, rfl, fun _ _ => rfl⟩

theorem KeepsTables.trans (h : KeepsTables db db') (h' : KeepsTables db' db'') :
    KeepsTables db db'' := by
  refine ⟨h.edit.trans h'.edit, h'.tidy, h'.reviews.trans h.reviews, h'.rows.trans h.rows,
    h'.prices.trans h.prices, ?_⟩
  intro re hre
  rw [h'.snapshots re (h.rows ▸ hre), h.snapshots re hre]

theorem KeepsTables.table (h : KeepsTables db db') (rubricName : String) :
    db'.snapshots rubricName = db.snapshots rubricName :=
  snapshots_congr h.rows fun re hre _ => h.snapshots re hre

theorem KeepsTables.confinedTo (h : KeepsTables db db') (rubricName : String) :
    ConfinedTo rubricName db db' :=
  ⟨h.edit, h.tidy, h.reviews, fun re hre => ⟨re, h.rows ▸ hre, rfl, rfl⟩,
    fun name _ => h.table name⟩

theorem keepsTables_newRule (h : Tidy db) (hkey : rule.ruleKey ∉ db.rules.map ErrorRuleRow.ruleKey)
    (n : Nat) : KeepsTables db { db with rules := db.rules ++ [rule], drawnIds := n } := by
  have hlookup : ∀ re ∈ db.rubricErrors,
      rowOf ErrorRuleRow.id (db.rules ++ [rule]) re.errorRuleId = db.rule re.errorRuleId := by
    intro re hre
    obtain ⟨found, hfound, _⟩ := h.rowRules re hre
    rw [hfound]
    exact rowOf_append_of_some _ hfound
  refine ⟨⟨rfl, fun _ => rfl⟩, ⟨?_, h.rowIds, h.uses, ?_⟩, rfl, rfl, rfl, ?_⟩
  · show ((db.rules ++ [rule]).map ErrorRuleRow.ruleKey).Nodup
    rw [List.map_append, List.map_singleton]
    refine List.nodup_append.2 ⟨h.ruleKeys, List.nodup_singleton _, ?_⟩
    intro key hmem key' hmem' heq
    rw [List.mem_singleton.1 hmem'] at heq
    exact hkey (heq ▸ hmem)
  · intro re hre
    obtain ⟨found, hfound, hstate⟩ := h.rowRules re hre
    exact ⟨found, (hlookup re hre).trans hfound, hstate⟩
  · intro re hre
    exact snapshotOf_congr (hlookup re hre) rfl

theorem rule_of_newRule (hid : rule.id ∉ db.rules.map ErrorRuleRow.id) :
    rowOf ErrorRuleRow.id (db.rules ++ [rule]) rule.id = some rule := by
  have hnone : rowOf ErrorRuleRow.id db.rules rule.id = none :=
    rowOf_eq_none.2 fun r hr hk => hid (hk ▸ List.mem_map_of_mem hr)
  rw [rowOf_append, hnone, Option.none_or, rowOf]
  simp

theorem keepsTables_updateRule (h : Tidy db) {id : String} {f : ErrorRuleRow → ErrorRuleRow}
    (hunused : ∀ re ∈ db.rubricErrors, re.errorRuleId ≠ id) (hid : ∀ r, (f r).id = r.id)
    (hkey : ∀ r, (f r).ruleKey = r.ruleKey) (n : Nat) :
    KeepsTables db { db.updateRule id f with drawnIds := n } := by
  have hlookup : ∀ re ∈ db.rubricErrors,
      rowOf ErrorRuleRow.id (updateRow ErrorRuleRow.id db.rules id f) re.errorRuleId =
        db.rule re.errorRuleId :=
    fun re hre => rowOf_updateRow_ne hid (hunused re hre)
  refine ⟨⟨rfl, fun _ => rfl⟩, ⟨?_, h.rowIds, h.uses, ?_⟩, rfl, rfl, rfl, ?_⟩
  · show ((updateRow _ _ _ _).map ErrorRuleRow.ruleKey).Nodup
    rw [map_updateRow hkey]
    exact h.ruleKeys
  · intro re hre
    obtain ⟨found, hfound, hstate⟩ := h.rowRules re hre
    exact ⟨found, (hlookup re hre).trans hfound, hstate⟩
  · intro re hre
    exact snapshotOf_congr (hlookup re hre) rfl

theorem Tidy.unused_of_proposed (h : Tidy db) {ruleId : String} (hrule : db.rule ruleId = some rule)
    (hstate : rule.state = .proposed) : ∀ re ∈ db.rubricErrors, re.errorRuleId ≠ ruleId := by
  intro re hre heq
  obtain ⟨found, hfound, hne⟩ := h.rowRules re hre
  rw [heq, hrule] at hfound
  exact hne (Option.some.inj hfound ▸ hstate)

/-! ## The rule that `assign` puts to use -/

/-- The key and the condition of the rule that `assign` puts to use. -/
def Db.assignedRule (env : GradingEnv K) (db : Db K) :
    AssignTarget → Option (String × Option RulePredicate)
  | .new input =>
    match input.ruleKey.filter (· ≠ "") with
    | some key => some (key, input.predicate)
    | none => (db.freeRuleKey (env.slugifyRuleKey input.name)).map (·, input.predicate)
  | .existing ruleId changes =>
    (db.rule ruleId).map fun r =>
      (r.ruleKey, (changes.bind RuleChanges.predicate).getD r.current.predicate)

/-- The rule `ruleId` is active, with the key and the condition. -/
def Db.HasRule (db : Db K) (ruleId ruleKey : String) (predicate : Option RulePredicate) : Prop :=
  ∃ rule, db.rule ruleId = some rule ∧ rule.state = .active ∧ rule.ruleKey = ruleKey ∧
    rule.current.predicate = predicate

section Assigned

variable (env : GradingEnv K) {db : Db K}

theorem insertRule_spec (h : Tidy db) {ruleKey : String} (name description : String)
    (predicate : Option RulePredicate) (hkey : ruleKey ∉ db.rules.map ErrorRuleRow.ruleKey) :
    Ensures (insertRule env ruleKey name description predicate) db fun id db' =>
      KeepsTables db db' ∧ db'.HasRule id ruleKey predicate ∧ id ∉ db.rules.map ErrorRuleRow.id := by
  rw [insertRule]
  refine (freshId_spec env _ db).bind fun id db₁ h₁ => ?_
  refine (freshId_spec env _ db₁).bind fun revisionId db₂ h₂ => ?_
  obtain ⟨hid, rfl⟩ := h₁
  obtain ⟨_, rfl⟩ := h₂
  refine ensures_bind (ensures_modify (ensures_pure ⟨?_, ?_, hid⟩))
  · exact keepsTables_newRule h hkey _
  · exact ⟨_, rule_of_newRule hid, rfl, rfl, rfl⟩

theorem uniqueRuleKey_spec (base : String) :
    Ensures (uniqueRuleKey base) db fun key db' =>
      db' = db ∧ db.freeRuleKey base = some key ∧ key ∉ db.rules.map ErrorRuleRow.ruleKey := by
  rw [uniqueRuleKey]
  refine ensures_bind (ensures_get ?_)
  split
  · rename_i key hkey
    refine ensures_pure ⟨rfl, hkey, ?_⟩
    have hfree := List.find?_some hkey
    exact of_decide_eq_true hfree
  · exact ensures_throw

theorem chooseRuleKey_spec (input : NewRuleInput) :
    Ensures (chooseRuleKey env input) db fun key db' =>
      db' = db ∧ db.assignedRule env (.new input) = some (key, input.predicate) ∧
        key ∉ db.rules.map ErrorRuleRow.ruleKey := by
  rw [chooseRuleKey, Db.assignedRule]
  refine ensures_bind (ensures_get ?_)
  cases input.ruleKey.filter (· ≠ "") with
  | some key =>
    exact ensures_ite (fun _ => ensures_throw) fun hfree => ensures_pure ⟨rfl, rfl, hfree⟩
  | none =>
    refine (uniqueRuleKey_spec _).mono fun key db' h' => ?_
    obtain ⟨rfl, hkey, hfree⟩ := h'
    exact ⟨rfl, by rw [hkey]; rfl, hfree⟩

theorem createRule_spec (h : Tidy db) (input : NewRuleInput) :
    Ensures (createRule env input) db fun p db' =>
      KeepsTables db db' ∧ ∃ key, db.assignedRule env (.new input) = some (key, p.2) ∧
        db'.HasRule p.1 key p.2 := by
  rw [createRule]
  refine (chooseRuleKey_spec env input).bind fun key db₁ h₁ => ?_
  obtain ⟨rfl, hassigned, hfree⟩ := h₁
  refine (insertRule_spec env h _ _ _ hfree).bind fun ruleId db₂ h₂ => ?_
  exact ensures_pure ⟨h₂.1, key, hassigned, h₂.2.1⟩

theorem ownedRule_spec (ruleId : String) :
    Ensures (ownedRule ruleId) db fun rule db' => db' = db ∧ db.rule ruleId = some rule := by
  rw [ownedRule]
  refine ensures_bind (ensures_get ?_)
  split
  · rename_i rule hrule
    exact ensures_pure ⟨rfl, hrule⟩
  · exact ensures_throw

theorem activate_spec (h : Tidy db) {ruleId : String} {rule : ErrorRuleRow}
    (hrule : db.rule ruleId = some rule) (hstate : rule.state = .proposed)
    {f : ErrorRuleRow → ErrorRuleRow} (hid : ∀ r, (f r).id = r.id)
    (hkey : ∀ r, (f r).ruleKey = r.ruleKey) (hactive : ∀ r, (f r).state = .active) (n : Nat) :
    KeepsTables db { db.updateRule rule.id f with drawnIds := n } ∧
      Db.HasRule { db.updateRule rule.id f with drawnIds := n } rule.id rule.ruleKey
        (f rule).current.predicate := by
  have hrule_id : rule.id = ruleId := rowOf_key hrule
  refine ⟨keepsTables_updateRule h ?_ hid hkey n, ?_⟩
  · rw [hrule_id]
    exact h.unused_of_proposed hrule hstate
  · refine ⟨f rule, ?_, hactive rule, hkey rule, rfl⟩
    rw [← hrule_id] at hrule
    exact rowOf_updateRow_self hid hrule

theorem adoptRule_spec (h : Tidy db) (ruleId : String) (changes : Option RuleChanges) :
    Ensures (adoptRule env ruleId changes) db fun p db' =>
      KeepsTables db db' ∧ ∃ key, db.assignedRule env (.existing ruleId changes) = some (key, p.2) ∧
        db'.HasRule p.1 key p.2 := by
  rw [adoptRule]
  refine (ownedRule_spec ruleId).bind fun rule db₁ h₁ => ?_
  obtain ⟨rfl, hrule⟩ := h₁
  rw [Db.assignedRule, hrule]
  refine ensures_ite (fun _ => ensures_bind ensures_throw) fun hstate => ?_
  refine ensures_ite (fun _ => ensures_bind ensures_throw) fun hchanges => ?_
  -- A change without fields sets no condition.
  have hnone : changes.filter RuleChanges.any = none →
      (changes.bind RuleChanges.predicate).getD rule.current.predicate =
        rule.current.predicate := by
    intro hempty
    cases changes with
    | none => rfl
    | some c =>
      have hany : c.any = false := by
        by_contra hc
        rw [Option.filter_some, if_pos (by simpa using hc)] at hempty
        cases hempty
      have hpredicate : c.predicate = none := by
        rw [RuleChanges.any, Bool.or_eq_false_iff] at hany
        exact Option.isNone_iff_eq_none.1 (by simpa using hany.2)
      rw [Option.bind_some, hpredicate, Option.getD_none]
  refine ensures_ite (fun hactive => ensures_pure ?_) fun hactive => ?_
  · have hempty : changes.filter RuleChanges.any = none := by
      by_contra hsome
      refine hchanges ⟨Option.isSome_iff_ne_none.2 hsome, ?_⟩
      rw [hactive]
      decide
    refine ⟨.refl h, rule.ruleKey, ?_, rule, ?_, hactive, rfl, rfl⟩
    · rw [Option.map_some, hnone hempty]
    · show rowOf _ _ rule.id = _
      rw [rowOf_key hrule]
      exact hrule
  · have hproposed : rule.state = .proposed := by
      by_contra hne
      exact hstate ⟨hactive, hne⟩
    split
    · rename_i hempty
      refine ensures_bind (ensures_modify (ensures_pure ?_))
      obtain ⟨hkeeps, hhas⟩ := activate_spec h hrule hproposed (fun _ => rfl) (fun _ => rfl)
        (f := fun r => { r with state := .active }) (fun _ => rfl) db₁.drawnIds
      refine ⟨hkeeps, rule.ruleKey, ?_, hhas⟩
      rw [Option.map_some, hnone hempty]
    · rename_i c hc
      refine (freshId_spec env _ db₁).bind fun revisionId db₂ h₂ => ?_
      obtain ⟨_, rfl⟩ := h₂
      refine ensures_bind (ensures_modify (ensures_pure ?_))
      have hsome : changes = some c := by
        cases changes with
        | none => cases hc
        | some c' =>
          rw [Option.filter_some] at hc
          split_ifs at hc
          exact hc
      obtain ⟨hkeeps, hhas⟩ := activate_spec h hrule hproposed (fun _ => rfl) (fun _ => rfl)
        (f := fun r => { r with
          state := .active
          current := { c.apply rule.current with
            id := revisionId, revision := rule.current.revision + 1 } })
        (fun _ => rfl) (db₁.drawnIds + 1)
      refine ⟨hkeeps, rule.ruleKey, ?_, hhas⟩
      rw [Option.map_some, hsome]
      rfl

theorem ruleToUse_spec (h : Tidy db) (target : AssignTarget) :
    Ensures (ruleToUse env target) db fun p db' =>
      KeepsTables db db' ∧ ∃ key, db.assignedRule env target = some (key, p.2) ∧
        db'.HasRule p.1 key p.2 := by
  cases target with
  | new input => exact createRule_spec env h input
  | existing ruleId changes => exact adoptRule_spec env h ruleId changes

end Assigned

/-! ## A rule put to use in a rubric -/

/-- The table of `rubricName` has one more rule, with the key `ruleKey`. -/
structure NewRuleIn (rubricName ruleKey criterionKey : String) (predicate : Option RulePredicate)
    (db db' : Db K) : Prop where
  old : (db'.snapshots rubricName).filter (fun s => s.ruleKey ≠ ruleKey) = db.snapshots rubricName
  new : ∀ s ∈ db'.snapshots rubricName, s.ruleKey = ruleKey →
    s.criterionKey = criterionKey ∧ s.predicate = predicate

theorem filter_snapshots (h : Tidy db) (rubricName ruleKey : String) :
    (db.snapshots rubricName).filter (fun s => s.ruleKey ≠ ruleKey) =
      sortByKey RuleSnapshot.ruleKey (db.rubricErrors.filterMap fun re =>
        (db.contribution rubricName re).filter fun s => s.ruleKey ≠ ruleKey) := by
  rw [snapshots_eq, filter_sortByKey _ (h.contributions_nodup rubricName),
    List.filter_filterMap]

theorem Tidy.errorRuleId_eq (h : Tidy db) {ruleId : String} (hrule : db.rule ruleId = some rule)
    (hs : db.contribution rubricName re = some s) (hkey : s.ruleKey = rule.ruleKey) :
    re.rubricName = rubricName ∧ re.errorRuleId = ruleId := by
  obtain ⟨hname, _, hsnap⟩ := contribution_eq_some hs
  obtain ⟨found, hfound, _, rfl⟩ := snapshotOf_eq_some hsnap
  have hsame : found = rule :=
    List.inj_on_of_nodup_map h.ruleKeys (mem_of_rowOf hfound) (mem_of_rowOf hrule) hkey
  refine ⟨hname, ?_⟩
  rw [← rowOf_key hfound, ← rowOf_key hrule, hsame]

section UseRule

variable (env : GradingEnv K) {db : Db K} {rubricName ruleId criterionKey : String}

/-- What `useRule` does when it puts the rule to use under the row `id`. -/
structure Used (rubricName ruleId criterionKey : String) (rule : ErrorRuleRow) (id : String)
    (db db' : Db K) : Prop where
  confined : ConfinedTo rubricName db db'
  new : NewRuleIn rubricName rule.ruleKey criterionKey rule.current.predicate db db'
  row : ∃ row, rowOf RubricErrorRow.id db'.rubricErrors id = some row ∧
    row.rubricName = rubricName ∧ row.errorRuleId = ruleId
  rules : db'.rules = db.rules

variable {rule : ErrorRuleRow}

theorem used_again (h : Tidy db) (hrule : db.rule ruleId = some rule) {existing : RubricErrorRow}
    (hexisting : db.rubricErrorFor rubricName ruleId = some existing)
    (hremoved : existing.removed = true) :
    Used rubricName ruleId criterionKey rule existing.id db
      (db.updateRubricError existing.id fun re =>
        { re with removed := false, criterionKey := criterionKey }) := by
  have hmem : existing ∈ db.rubricErrors := List.mem_of_find?_eq_some hexisting
  have hnames : existing.rubricName = rubricName ∧ existing.errorRuleId = ruleId := by
    have hfound := List.find?_some hexisting
    exact of_decide_eq_true hfound
  have hrow : rowOf RubricErrorRow.id db.rubricErrors existing.id = some existing :=
    rowOf_of_mem h.rowIds hmem
  have h' : Tidy (db.updateRubricError existing.id fun re =>
      { re with removed := false, criterionKey := criterionKey }) :=
    h.updateRubricError (fun _ => rfl) (fun _ => rfl) (fun _ => rfl)
  have hconfined := confinedTo_updateRow h h' hrow (fun _ => rfl) (fun _ => rfl)
  rw [hnames.1] at hconfined
  refine ⟨hconfined, ⟨?_, ?_⟩, ?_, rfl⟩
  · rw [filter_snapshots h', snapshots_eq]
    congr 1
    show (updateRow _ _ _ _).filterMap _ = _
    rw [updateRow, List.filterMap_map]
    refine List.filterMap_congr fun re hre => ?_
    rw [Function.comp_apply]
    split_ifs with hid
    · -- The row itself: not in the table before, left out of it now.
      have hsame : re = existing := List.inj_on_of_nodup_map h.rowIds hre hmem hid
      have hold : db.contribution rubricName re = none := by
        rw [Db.contribution, if_neg]
        rw [hsame, hremoved]
        simp
      rw [hold]
      refine Option.filter_eq_none_iff.2 fun s hs => ?_
      obtain ⟨_, _, hsnap⟩ := contribution_eq_some hs
      obtain ⟨found, hfound, _, rfl⟩ := snapshotOf_eq_some hsnap
      have hfound' : db.rule re.errorRuleId = some found := hfound
      rw [hsame, hnames.2, hrule] at hfound'
      rw [Option.some.inj hfound']
      simp
    · -- Any other row has another rule.
      show (db.contribution rubricName re).filter _ = _
      cases hc : db.contribution rubricName re with
      | none => rfl
      | some s =>
        rw [Option.filter_some, if_pos]
        refine decide_eq_true fun hkey => hid ?_
        obtain ⟨hname, hruleId⟩ := h.errorRuleId_eq hrule hc hkey
        have huse : re = existing := by
          refine List.inj_on_of_nodup_map h.uses hre hmem ?_
          rw [hname, hruleId, hnames.1, hnames.2]
        rw [huse]
  · intro s hs hkey
    obtain ⟨re, hre, hc⟩ := mem_snapshots.1 hs
    have hrule' : Db.rule (db.updateRubricError existing.id fun re =>
        { re with removed := false, criterionKey := criterionKey }) ruleId = some rule := hrule
    obtain ⟨hname, hruleId⟩ := h'.errorRuleId_eq hrule' hc hkey
    obtain ⟨_, _, hsnap⟩ := contribution_eq_some hc
    obtain ⟨found, hfound, _, rfl⟩ := snapshotOf_eq_some hsnap
    have hfound' : db.rule re.errorRuleId = some found := hfound
    rw [hruleId, hrule] at hfound'
    refine ⟨?_, by rw [Option.some.inj hfound']⟩
    obtain ⟨re₀, hre₀, rfl⟩ := mem_updateRow.1 hre
    split_ifs with hid
    · rfl
    · rw [if_neg hid] at hname hruleId
      refine absurd ?_ hid
      have huse : re₀ = existing := by
        refine List.inj_on_of_nodup_map h.uses hre₀ hmem ?_
        rw [hname, hruleId, hnames.1, hnames.2]
      rw [huse]
  · refine ⟨{ existing with removed := false, criterionKey := criterionKey }, ?_, hnames⟩
    exact rowOf_updateRow_self
      (f := fun re => { re with removed := false, criterionKey := criterionKey })
      (fun _ => rfl) hrow

theorem used_new (h : Tidy db) (hrule : db.rule ruleId = some rule)
    (hstate : rule.state ≠ .proposed) (hnone : db.rubricErrorFor rubricName ruleId = none)
    {id : String} (hid : id ∉ db.rubricErrors.map RubricErrorRow.id) (n : Nat) :
    Used rubricName ruleId criterionKey rule id db
      { db with
        rubricErrors := db.rubricErrors ++ [⟨id, rubricName, ruleId, criterionKey, false⟩]
        drawnIds := n } := by
  have hfree : ∀ re ∈ db.rubricErrors, ¬ (re.rubricName = rubricName ∧ re.errorRuleId = ruleId) := by
    intro re hre hnames
    have hfound := List.find?_eq_none.1 hnone re hre
    simp [hnames] at hfound
  set db' : Db K := { db with
    rubricErrors := db.rubricErrors ++ [⟨id, rubricName, ruleId, criterionKey, false⟩]
    drawnIds := n } with hdb'
  have h' : Tidy db' := by
    refine ⟨h.ruleKeys, ?_, ?_, ?_⟩
    · show ((db.rubricErrors ++ [_]).map RubricErrorRow.id).Nodup
      rw [List.map_append, List.nodup_append]
      refine ⟨h.rowIds, List.nodup_singleton _, fun x hx y hy heq => hid ?_⟩
      rw [List.map_singleton, List.mem_singleton] at hy
      rw [heq, hy] at hx
      exact hx
    · show ((db.rubricErrors ++ [_]).map _).Nodup
      rw [List.map_append, List.nodup_append]
      refine ⟨h.uses, List.nodup_singleton _, fun x hx y hy heq => ?_⟩
      rw [List.map_singleton, List.mem_singleton] at hy
      obtain ⟨re, hre, rfl⟩ := List.mem_map.1 hx
      rw [hy, Prod.mk.injEq] at heq
      exact hfree re hre heq
    · intro re hre
      rcases List.mem_append.1 hre with hre | hre
      · exact h.rowRules re hre
      · rw [List.mem_singleton.1 hre]
        exact ⟨rule, hrule, hstate⟩
  refine ⟨⟨⟨rfl, fun _ => rfl⟩, h', rfl, ?_, ?_⟩, ⟨?_, ?_⟩, ?_, rfl⟩
  · exact fun re hre => ⟨re, List.mem_append_left _ hre, rfl, rfl⟩
  · intro name hne
    rw [snapshots_eq, snapshots_eq]
    show sortByKey _ ((db.rubricErrors ++ [_]).filterMap (db.contribution name)) = _
    have hadded : db.contribution name ⟨id, rubricName, ruleId, criterionKey, false⟩ = none := by
      rw [Db.contribution, if_neg]
      exact fun hc => hne hc.1.symm
    rw [List.filterMap_append, List.filterMap_cons_none hadded, List.filterMap_nil,
      List.append_nil]
  · rw [filter_snapshots h', snapshots_eq]
    congr 1
    show (db.rubricErrors ++ [_]).filterMap (fun re => (db.contribution rubricName re).filter _) = _
    rw [List.filterMap_append]
    have hadded : (db.contribution rubricName ⟨id, rubricName, ruleId, criterionKey, false⟩).filter
        (fun s => decide (s.ruleKey ≠ rule.ruleKey)) = none := by
      refine Option.filter_eq_none_iff.2 fun s hs => ?_
      obtain ⟨_, _, hsnap⟩ := contribution_eq_some hs
      obtain ⟨found, hfound, _, rfl⟩ := snapshotOf_eq_some hsnap
      rw [hrule] at hfound
      rw [Option.some.inj hfound]
      simp
    simp only [List.filterMap_cons, hadded, List.filterMap_nil, List.append_nil]
    refine List.filterMap_congr fun re hre => ?_
    cases hc : db.contribution rubricName re with
    | none => rfl
    | some s =>
      rw [Option.filter_some, if_pos]
      exact decide_eq_true fun hkey => hfree re hre (h.errorRuleId_eq hrule hc hkey)
  · intro s hs hkey
    obtain ⟨re, hre, hc⟩ := mem_snapshots.1 hs
    have hrule' : db'.rule ruleId = some rule := hrule
    have hnames := h'.errorRuleId_eq hrule' hc hkey
    obtain ⟨_, _, hsnap⟩ := contribution_eq_some hc
    obtain ⟨found, hfound, _, rfl⟩ := snapshotOf_eq_some hsnap
    have hfound' : db.rule re.errorRuleId = some found := hfound
    rw [hnames.2, hrule] at hfound'
    rcases List.mem_append.1 hre with hre | hre
    · exact absurd hnames (hfree re hre)
    · rw [List.mem_singleton.1 hre, Option.some.inj hfound']
      exact ⟨rfl, rfl⟩
  · have hnew : rowOf RubricErrorRow.id db.rubricErrors id = none :=
      rowOf_eq_none.2 fun r hr hk => hid (hk ▸ List.mem_map_of_mem hr)
    refine ⟨⟨id, rubricName, ruleId, criterionKey, false⟩, ?_, rfl, rfl⟩
    show rowOf _ (db.rubricErrors ++ [_]) id = _
    rw [rowOf_append, hnew, Option.none_or, rowOf]
    simp

theorem useRule_spec (h : Tidy db) (hrule : db.rule ruleId = some rule)
    (hstate : rule.state ≠ .proposed) :
    Ensures (useRule env rubricName ruleId criterionKey) db fun o db' =>
      (o = none ∧ db' = db) ∨
        ∃ id, o = some id ∧ Used rubricName ruleId criterionKey rule id db db' := by
  rw [useRule]
  refine ensures_bind (ensures_get ?_)
  split
  · rename_i existing hexisting
    refine ensures_ite (fun hremoved => ?_) fun _ => ensures_pure (Or.inl ⟨rfl, rfl⟩)
    refine ensures_bind (ensures_set (ensures_pure (Or.inr ⟨_, rfl, ?_⟩)))
    exact used_again h hrule hexisting hremoved
  · rename_i hnone
    refine (freshId_spec env _ db).bind fun id db₁ h₁ => ?_
    obtain ⟨hid, rfl⟩ := h₁
    refine ensures_bind (ensures_modify (ensures_pure (Or.inr ⟨id, rfl, ?_⟩)))
    exact used_new h hrule hstate hnone hid _

end UseRule

/-! ## New prices -/

/-- A new price table with the changed prices. -/
structure PricedBy (changes : List PriceRow) (db db' : Db K) : Prop where
  tables : db' = { db with priceVersions := db'.priceVersions, drawnIds := db'.drawnIds }
  kept : ∀ id, id ∉ changes.map PriceRow.rubricErrorId → db'.currentPrice id = db.currentPrice id
  single : ∀ id deduction, changes = [⟨id, deduction⟩] → db'.currentPrice id = deduction

theorem writeNextPriceVersion_spec (env : GradingEnv K) (changes : List PriceRow) (db : Db K) :
    Ensures (writeNextPriceVersion env changes) db fun _ db' => PricedBy changes db db' := by
  rw [writeNextPriceVersion]
  refine (freshId_spec env _ db).bind fun versionId db₁ h₁ => ?_
  obtain ⟨_, rfl⟩ := h₁
  refine ensures_bind (ensures_modify (ensures_pure ⟨rfl, fun id hid => ?_, ?_⟩))
  · have hchanges : rowOf PriceRow.rubricErrorId changes id = none :=
      rowOf_eq_none.2 fun p hp hk => hid (hk ▸ List.mem_map_of_mem hp)
    have hcarried : ∀ prices : List PriceRow, rowOf PriceRow.rubricErrorId
        (prices.filter fun p => p.rubricErrorId ∉ changes.map PriceRow.rubricErrorId) id =
          rowOf PriceRow.rubricErrorId prices id := by
      intro prices
      rw [rowOf, rowOf, List.find?_filter]
      congr 1
      funext p
      by_cases hp : p.rubricErrorId = id
      · simp [hp, hid]
      · simp [hp]
    rw [Db.currentPrice, Db.currentPriceVersion, List.getLast?_append, List.getLast?_singleton,
      Option.some_or, Option.bind_some, rowOf_append, hchanges, Option.or_none, hcarried]
    show (rowOf _ ((db.currentPriceVersion.map PriceVersionRow.prices).getD []) id).bind _ = _
    rw [Db.currentPrice]
    cases db.currentPriceVersion with
    | none => rfl
    | some v => rfl
  · rintro id deduction rfl
    have hnone : ∀ prices : List PriceRow, rowOf PriceRow.rubricErrorId
        (prices.filter fun p => p.rubricErrorId ∉ [(⟨id, deduction⟩ : PriceRow)].map
          PriceRow.rubricErrorId) id = none := by
      intro prices
      refine rowOf_eq_none.2 fun p hp hk => ?_
      simp [hk] at hp
    rw [Db.currentPrice, Db.currentPriceVersion, List.getLast?_append, List.getLast?_singleton,
      Option.some_or, Option.bind_some, rowOf_append, hnone, Option.none_or, rowOf]
    simp

namespace PricedBy

variable {changes : List PriceRow} {db db' : Db K}

theorem tidy (h : PricedBy changes db db') (htidy : Tidy db) : Tidy db' := by
  rw [h.tables]
  exact ⟨htidy.ruleKeys, htidy.rowIds, htidy.uses, htidy.rowRules⟩

theorem edit (h : PricedBy changes db db') : RulerEdit db db' := by
  rw [h.tables]
  exact ⟨rfl, fun _ => rfl⟩

theorem rows (h : PricedBy changes db db') : db'.rubricErrors = db.rubricErrors := by
  rw [h.tables]

theorem snapshotOf (h : PricedBy changes db db') {re : RubricErrorRow}
    (hid : re.id ∉ changes.map PriceRow.rubricErrorId) : db'.snapshotOf re = db.snapshotOf re := by
  refine snapshotOf_congr ?_ (h.kept re.id hid)
  rw [h.tables]
  rfl

theorem snapshotOf_priced (h : PricedBy changes db db') (re : RubricErrorRow) :
    db'.snapshotOf re =
      (db.snapshotOf re).map fun s => { s with deductionHundredths := db'.currentPrice re.id } := by
  have hrule : db'.rule re.errorRuleId = db.rule re.errorRuleId := by
    rw [h.tables]
    rfl
  rw [Db.snapshotOf, Db.snapshotOf, hrule]
  cases db.rule re.errorRuleId with
  | none => rfl
  | some rule =>
    simp only
    split_ifs
    · rfl
    · rfl

theorem confinedTo (h : PricedBy changes db db') (htidy : Tidy db) {rubricName : String}
    (hrows : ∀ c ∈ changes, ∃ re ∈ db.rubricErrors,
      re.id = c.rubricErrorId ∧ re.rubricName = rubricName) : ConfinedTo rubricName db db' := by
  refine ⟨h.edit, h.tidy htidy, ?_, ?_, ?_⟩
  · rw [h.tables]
  · intro re hre
    exact ⟨re, h.rows ▸ hre, rfl, rfl⟩
  · intro name hne
    refine snapshots_congr h.rows fun re hre hname => h.snapshotOf fun hmem => ?_
    obtain ⟨c, hc, hid⟩ := List.mem_map.1 hmem
    obtain ⟨re', hre', hid', hname'⟩ := hrows c hc
    have hsame : re' = re :=
      List.inj_on_of_nodup_map htidy.rowIds hre' hre (hid'.trans hid)
    exact hne (hname.symm.trans (hsame ▸ hname'))

end PricedBy

theorem NewRuleIn.priced {db₁ db₂ : Db K} {ruleKey criterionKey : String}
    {predicate : Option RulePredicate} {id : String} {deduction : Option Int}
    (h : NewRuleIn rubricName ruleKey criterionKey predicate db db₁) (htidy : Tidy db₁)
    (hrow : ∀ re ∈ db₁.rubricErrors, re.id = id → ∀ s, db₁.snapshotOf re = some s →
      s.ruleKey = ruleKey) (hprice : PricedBy [⟨id, deduction⟩] db₁ db₂) :
    NewRuleIn rubricName ruleKey criterionKey predicate db db₂ := by
  have hid : ∀ {x : String}, x ∉ [(⟨id, deduction⟩ : PriceRow)].map PriceRow.rubricErrorId ↔
      x ≠ id := by
    intro x
    rw [List.map_singleton, List.mem_singleton]
  constructor
  · rw [← h.old, filter_snapshots (hprice.tidy htidy), filter_snapshots htidy, hprice.rows]
    congr 1
    refine List.filterMap_congr fun re hre => ?_
    rw [Db.contribution, Db.contribution]
    split_ifs with hc
    · by_cases hre_id : re.id = id
      · rw [hprice.snapshotOf_priced]
        cases hs : db₁.snapshotOf re with
        | none => rfl
        | some s =>
          have hkey := hrow re hre hre_id s hs
          simp [Option.filter_some, hkey]
      · rw [hprice.snapshotOf (hid.2 hre_id)]
    · rfl
  · intro s hs hkey
    obtain ⟨re, hre, hc⟩ := mem_snapshots.1 hs
    obtain ⟨hname, hremoved, hsnap⟩ := contribution_eq_some hc
    rw [hprice.snapshotOf_priced, Option.map_eq_some_iff] at hsnap
    obtain ⟨s₀, hs₀, rfl⟩ := hsnap
    refine h.new s₀ (mem_snapshots.2 ⟨re, hprice.rows ▸ hre, ?_⟩) hkey
    rw [Db.contribution, if_pos ⟨hname, hremoved⟩]
    exact hs₀

theorem snapshots_map {g : RuleSnapshot → RuleSnapshot} (hrows : db'.rubricErrors = db.rubricErrors)
    (hkey : ∀ s, (g s).ruleKey = s.ruleKey)
    (h : ∀ re ∈ db.rubricErrors, re.rubricName = rubricName →
      db'.snapshotOf re = (db.snapshotOf re).map g) :
    db'.snapshots rubricName = (db.snapshots rubricName).map g := by
  rw [snapshots_eq, snapshots_eq, map_sortByKey hkey, hrows, List.map_filterMap]
  congr 1
  refine List.filterMap_congr fun re hre => ?_
  rw [Db.contribution, Db.contribution]
  split_ifs with hrow
  · exact h re hre hrow.1
  · rfl

/-- The rule with the id `ruleId` at a price. -/
def RuleSnapshot.priceOnly (ruleId : String) (deduction : Option Int) (s : RuleSnapshot) :
    RuleSnapshot :=
  if s.ruleId = ruleId then { s with deductionHundredths := deduction } else s

theorem PricedBy.snapshots {row : RubricErrorRow} {deduction : Option Int}
    (h : PricedBy [⟨row.id, deduction⟩] db db') (htidy : Tidy db) (hrow : row ∈ db.rubricErrors) :
    db'.snapshots row.rubricName =
      (db.snapshots row.rubricName).map (RuleSnapshot.priceOnly row.errorRuleId deduction) := by
  refine snapshots_map h.rows (fun s => ?_) fun re hre hname => ?_
  · rw [RuleSnapshot.priceOnly]
    split_ifs
    · rfl
    · rfl
  · have hruleId : ∀ s, db.snapshotOf re = some s → s.ruleId = re.errorRuleId := by
      intro s hs
      obtain ⟨rule, hrule, _, rfl⟩ := snapshotOf_eq_some hs
      show rule.id = _
      exact rowOf_key hrule
    by_cases hid : re.id = row.id
    · have hsame : re = row := List.inj_on_of_nodup_map htidy.rowIds hre hrow hid
      rw [h.snapshotOf_priced, hid, h.single _ _ rfl]
      cases hs : db.snapshotOf re with
      | none => rfl
      | some s =>
        have hmatch := hruleId s hs
        rw [hsame] at hmatch
        simp [RuleSnapshot.priceOnly, hmatch]
    · have hkept : re.id ∉ [(⟨row.id, deduction⟩ : PriceRow)].map PriceRow.rubricErrorId := by
        rw [List.map_singleton, List.mem_singleton]
        exact hid
      rw [h.snapshotOf hkept]
      cases hs : db.snapshotOf re with
      | none => rfl
      | some s =>
        have hother : s.ruleId ≠ row.errorRuleId := by
          intro heq
          rw [hruleId s hs] at heq
          refine hid (congrArg RubricErrorRow.id ?_)
          refine List.inj_on_of_nodup_map htidy.uses hre hrow ?_
          rw [hname, heq]
        simp [RuleSnapshot.priceOnly, hother]

end Cine.Grading
