import Cine.Grading.Scoring.Recompute

/-!
# The operations on rules keep the scores up to date

Every operation is an edit of the tables followed by a recomputation of a
scope.  `Consistent.recompute_after` asks of an edit that it keeps the view of
every paper outside the scope, and each operation below answers that question
for its own edit.

`assign` recomputes nothing for a rule in words.  `AssignHarmless` is the
condition under which this leaves no paper behind.
-/

namespace Cine.Grading

open Cine.Lib

variable {K : Type} [Number K] {env : GradingEnv K} {db db' : Db K} {stale : String → Prop}

/-- No paper is left to recompute. -/
abbrev AllUpToDate (env : GradingEnv K) (db : Db K) : Prop := Consistent env (fun _ => False) db

/-! ## Edits and their recomputations -/

omit [Number K] in
theorem RulerEdit.samePaper (h : RulerEdit db db') (r : ResultRow) : SamePaper db db' r r := by
  refine ⟨.refl r, ?_, ?_, ?_, ?_, ?_, ?_, ?_⟩
  · rw [h.tables]
    rfl
  · rw [h.tables]
    rfl
  · intro hm
    rw [h.manual]
    exact hm
  · rw [h.tables]
    rfl
  · rw [h.tables]
    rfl
  · intro _ session _
    rw [h.tables]
    rfl
  · intro _ session _
    rw [h.tables]
    rfl

omit [Number K] in
theorem RulerEdit.results (h : RulerEdit db db') : db'.results = db.results := by rw [h.tables]

omit [Number K] in
theorem RulerEdit.rubric (h : RulerEdit db db') (rubricId : String) :
    db'.rubric rubricId = db.rubric rubricId := by
  rw [h.tables]
  rfl

theorem Consistent.edit (h : AllUpToDate env db) (hedit : RulerEdit db db') (htidy : Tidy db')
    (hview : ∀ r ∈ db.results, db.IsOpen r → ¬ stale r.id → KeepsView env db db' r) :
    Consistent env stale db' := by
  refine ⟨htidy, hedit.results ▸ h.ids, hedit.results ▸ h.submissions, fun r hr => ?_⟩
  rw [hedit.results] at hr
  refine (h.papers r hr).carry (hedit.samePaper r) ?_ fun hopen hstale =>
    ⟨id, hview r hr hopen hstale⟩
  intro id a _ ha _
  rw [hedit.tables]
  exact ha

omit [Number K] in
theorem scope_of_id (hids : (db.results.map ResultRow.id).Nodup) {p : ResultRow → Prop}
    {r : ResultRow} (hr : r ∈ db.results) (h : ∃ r' ∈ db.results, r'.id = r.id ∧ p r') : p r := by
  obtain ⟨r', hr', hid, hp⟩ := h
  have hsame : r' = r := List.inj_on_of_nodup_map hids hr' hr hid
  exact hsame ▸ hp

theorem Consistent.recompute_after (h : AllUpToDate env db) (hedit : RulerEdit db db')
    (htidy : Tidy db') {scope : RecomputeScope} (reason : ComputationReason)
    (hview : ∀ r ∈ db.results, db.IsOpen r → db'.inScope scope r = false →
      KeepsView env db db' r) :
    Ensures (recomputeForTeacher env reason scope) db' fun _ db'' => AllUpToDate env db'' := by
  have hstart : Consistent env (fun id => ∃ r ∈ db.results, r.id = id ∧
      db'.inScope scope r = true) db' := by
    refine h.edit hedit htidy fun r hr hopen hstale => hview r hr hopen ?_
    by_contra hscope
    exact hstale ⟨r, hr, rfl, Bool.not_eq_false _ ▸ hscope⟩
  refine recomputeForTeacher_consistent hstart (fun r hr _ hstale => ?_) reason
  rw [hedit.results] at hr
  exact scope_of_id h.ids hr hstale

omit [Number K] in
theorem inScope_rubric {rubricName : String} {r : ResultRow}
    (h : db.inScope { rubricName := some rubricName } r = false) {rubric : RubricRow}
    (hrubric : db.rubric r.rubricIdVersion = some rubric) : rubric.name ≠ rubricName := by
  intro hname
  rw [Db.inScope, decide_eq_false_iff_not] at h
  refine h ⟨rfl, ?_, rfl, rfl, fun hno => nomatch hno⟩
  rw [Option.all_some, hrubric, Option.any_some]
  exact decide_eq_true hname

theorem Consistent.confined (h : AllUpToDate env db) {rubricName : String}
    (hconfined : ConfinedTo rubricName db db') :
    Ensures (recomputeRubric env rubricName) db' fun _ db'' => AllUpToDate env db'' := by
  refine h.recompute_after hconfined.edit hconfined.tidy _ fun r _ _ hscope => ?_
  refine keepsView_of_table h.tidy hconfined.tidy (fun rubric hrubric => ?_) ?_
  · refine hconfined.others _ (inScope_rubric hscope ?_)
    rw [hconfined.edit.rubric]
    exact hrubric
  · rw [Db.exceptionsOf, Db.exceptionsOf, hconfined.reviews]

/-! ## Rows of one rubric -/

omit [Number K] in
theorem assertRubricExists_spec (rubricName : String) :
    Ensures (assertRubricExists rubricName) db fun _ db' => db' = db := by
  rw [assertRubricExists]
  refine ensures_bind (ensures_get ?_)
  split
  · exact ensures_pure rfl
  · exact ensures_throw

omit [Number K] in
theorem assertRubricCriterion_spec (rubricName criterionKey : String) :
    Ensures (assertRubricCriterion rubricName criterionKey) db fun _ db' => db' = db := by
  rw [assertRubricCriterion]
  refine (assertRubricExists_spec rubricName).bind fun rubric db' h' => ?_
  subst h'
  exact ensures_ite (fun _ => ensures_throw) fun _ => ensures_pure rfl

omit [Number K] in
theorem ownedRubricError_spec (rubricErrorId : String) :
    Ensures (ownedRubricError rubricErrorId) db fun row db' =>
      db' = db ∧ rowOf RubricErrorRow.id db.rubricErrors rubricErrorId = some row := by
  rw [ownedRubricError]
  refine ensures_bind (ensures_get ?_)
  split
  · rename_i row hrow
    exact ensures_ite (fun _ => ensures_throw) fun _ => ensures_pure ⟨rfl, hrow⟩
  · exact ensures_throw

theorem move_consistent (h : AllUpToDate env db) (rubricErrorId criterionKey : String) :
    Ensures (move env rubricErrorId criterionKey) db fun _ db' => AllUpToDate env db' := by
  rw [move]
  refine (ownedRubricError_spec rubricErrorId).bind fun row db₁ h₁ => ?_
  obtain ⟨rfl, hrow⟩ := h₁
  refine (assertRubricCriterion_spec row.rubricName criterionKey).bind fun _ db₂ h₂ => ?_
  subst h₂
  refine ensures_bind (ensures_modify (h.confined ?_))
  exact confinedTo_updateRow h.tidy
    (h.tidy.updateRubricError (fun _ => rfl) (fun _ => rfl) fun _ => rfl) hrow (fun _ => rfl)
    fun _ => rfl

theorem remove_consistent (h : AllUpToDate env db) (rubricErrorId : String) :
    Ensures (remove env rubricErrorId) db fun _ db' => AllUpToDate env db' := by
  rw [remove]
  refine (ownedRubricError_spec rubricErrorId).bind fun row db₁ h₁ => ?_
  obtain ⟨rfl, hrow⟩ := h₁
  refine ensures_bind (ensures_modify (h.confined ?_))
  exact confinedTo_updateRow h.tidy
    (h.tidy.updateRubricError (fun _ => rfl) (fun _ => rfl) fun _ => rfl) hrow (fun _ => rfl)
    fun _ => rfl

theorem copy_consistent (h : AllUpToDate env db) (fromRubricName toRubricName : String) :
    Ensures (copy env fromRubricName toRubricName) db fun _ db' => AllUpToDate env db' := by
  rw [copy]
  refine ensures_ite (fun _ => ensures_bind ensures_throw) fun _ => ?_
  refine (assertRubricExists_spec fromRubricName).bind fun _ db₁ h₁ => ?_
  subst h₁
  refine (assertRubricExists_spec toRubricName).bind fun target db₂ h₂ => ?_
  subst h₂
  refine ensures_bind (ensures_get ?_)
  refine (copyRows_spec env toRubricName _ _ h.tidy fun src hsrc =>
    copySources_rules hsrc).bind fun tally db₃ h₃ => ?_
  obtain ⟨hconfined, hnone, hrows⟩ := h₃
  refine ensures_ite (fun _ => ?_) fun hempty => ?_
  · refine (writeNextPriceVersion_spec env tally.changes db₃).bind fun _ db₄ h₄ => ?_
    have hpriced := h₄.confinedTo hconfined.tidy hrows
    exact (h.confined (hconfined.trans hpriced)).bind fun _ db₅ h₅ => ensures_pure h₅
  · rw [hnone (not_not.1 hempty)]
    exact ensures_pure h

/-! ## A rule put to use -/

/-- The rule is checked by the machine, or no open paper of the rubric has it
in its table and in its verdict. -/
def AssignHarmless (env : GradingEnv K) (db : Db K) (input : AssignInput) : Prop :=
  ∀ ruleKey predicate, db.assignedRule env input.target = some (ruleKey, predicate) →
    isMachineChecked predicate = false → ∀ r ∈ db.results, db.IsOpen r → ∀ rubric stored,
      db.rubric r.rubricIdVersion = some rubric → rubric.name = input.rubricName →
      db.gradedInvestigation r = some stored →
      input.criterionKey ∈ rubric.criteria.map RubricCriterion.key →
      ruleKey ∈ (stored.ruleTable.filter (fun t => t.checkedBy = .model)).map RuleSeen.ruleKey →
      stored.names ruleKey = false

/-- What `assign` writes before it recomputes. -/
structure Assigned (env : GradingEnv K) (input : AssignInput) (predicate : Option RulePredicate)
    (db db' : Db K) : Prop where
  confined : ConfinedTo input.rubricName db db'
  new : ∃ ruleKey, db.assignedRule env input.target = some (ruleKey, predicate) ∧
    NewRuleIn input.rubricName ruleKey input.criterionKey predicate db db'

theorem Consistent.assigned (h : AllUpToDate env db) {input : AssignInput}
    {predicate : Option RulePredicate} (hassigned : Assigned env input predicate db db')
    (hharmless : AssignHarmless env db input) (hwords : isMachineChecked predicate = false) :
    AllUpToDate env db' := by
  obtain ⟨hconfined, ruleKey, hrule, hnew⟩ := hassigned
  have hexceptions : ∀ resultId, db'.exceptionsOf resultId = db.exceptionsOf resultId := by
    intro resultId
    rw [Db.exceptionsOf, Db.exceptionsOf, hconfined.reviews]
  refine h.edit hconfined.edit hconfined.tidy fun r hr hopen _ => ?_
  by_cases hname : ∃ rubric, db.rubric r.rubricIdVersion = some rubric ∧
      rubric.name = input.rubricName
  · obtain ⟨rubric, hrubric, hname⟩ := hname
    rw [← hname] at hnew
    refine keepsView_of_new_rule hconfined.tidy hrubric hnew (hexceptions r.id) hwords ?_
    exact fun stored => hharmless ruleKey predicate hrule hwords r hr hopen rubric stored
      hrubric hname
  · refine keepsView_of_table h.tidy hconfined.tidy (fun rubric hrubric => ?_) (hexceptions r.id)
    exact hconfined.others _ fun heq => hname ⟨rubric, hrubric, heq⟩

omit [Number K] in
theorem assigned_of_used {input : AssignInput} {db₁ db₂ : Db K} {ruleId ruleKey id : String}
    {predicate : Option RulePredicate} {rule : ErrorRuleRow}
    (hkeeps : KeepsTables db db₁) (hkey : rule.ruleKey = ruleKey)
    (hpredicate : rule.current.predicate = predicate)
    (hassigned : db.assignedRule env input.target = some (ruleKey, predicate))
    (hused : Used input.rubricName ruleId input.criterionKey rule id db₁ db₂) :
    Assigned env input predicate db db₂ := by
  refine ⟨(hkeeps.confinedTo input.rubricName).trans hused.confined, ruleKey, hassigned, ?_, ?_⟩
  · rw [← hkeeps.table, ← hkey]
    exact hused.new.old
  · intro s hs hs_key
    rw [← hpredicate]
    exact hused.new.new s hs (hs_key.trans hkey.symm)

omit [Number K] in
theorem Assigned.priced {input : AssignInput} {db₁ db₂ db₃ : Db K} {ruleId id : String}
    {deduction : Option Int} {predicate : Option RulePredicate} {rule : ErrorRuleRow}
    (h : Assigned env input predicate db db₂) (hrule : db₁.rule ruleId = some rule)
    (hassigned : db.assignedRule env input.target = some (rule.ruleKey, predicate))
    (hused : Used input.rubricName ruleId input.criterionKey rule id db₁ db₂)
    (hprice : PricedBy [⟨id, deduction⟩] db₂ db₃) : Assigned env input predicate db db₃ := by
  obtain ⟨row, hrow, hname, hruleId⟩ := hused.row
  have htidy := hused.confined.tidy
  refine ⟨h.confined.trans (hprice.confinedTo htidy fun c hc => ?_), rule.ruleKey, hassigned, ?_⟩
  · rw [List.mem_singleton.1 hc]
    exact ⟨row, mem_of_rowOf hrow, rowOf_key hrow, hname⟩
  · obtain ⟨_, ruleKey, hassigned', hnew⟩ := h
    have hkey : ruleKey = rule.ruleKey := by
      rw [hassigned] at hassigned'
      exact (congrArg Prod.fst (Option.some.inj hassigned')).symm
    rw [hkey] at hnew
    refine hnew.priced htidy (fun re hre hid s hs => ?_) hprice
    have hsame : re = row :=
      List.inj_on_of_nodup_map htidy.rowIds hre (mem_of_rowOf hrow)
        (hid.trans (rowOf_key hrow).symm)
    obtain ⟨found, hfound, _, rfl⟩ := snapshotOf_eq_some hs
    rw [hsame, hruleId, Db.rule, hused.rules] at hfound
    have hfound' : db₁.rule ruleId = some found := hfound
    rw [hrule] at hfound'
    rw [Option.some.inj hfound']

theorem assign_consistent (h : AllUpToDate env db) {input : AssignInput}
    (hharmless : AssignHarmless env db input) :
    Ensures (assign env input) db fun _ db' => AllUpToDate env db' := by
  rw [assign]
  refine (assertRubricCriterion_spec _ _).bind fun _ db₀ h₀ => ?_
  subst h₀
  refine (ruleToUse_spec env h.tidy input.target).bind fun p db₁ h₁ => ?_
  obtain ⟨hkeeps, ruleKey, hassigned, rule, hrule, hactive, hkey, hpredicate⟩ := h₁
  have hstate : rule.state ≠ .proposed := by
    rw [hactive]
    decide
  refine (useRule_spec env hkeeps.tidy hrule hstate).bind fun o db₂ h₂ => ?_
  rcases h₂ with ⟨rfl, rfl⟩ | ⟨id, rfl, hused⟩
  · exact ensures_throw
  · have hedit := assigned_of_used hkeeps hkey hpredicate hassigned hused
    have hrecompute : ∀ db₃, Assigned env input p.2 db₀ db₃ →
        Ensures (do
          if isMachineChecked p.2 then recomputeRubric env input.rubricName
          return (id, p.1)) db₃ fun _ db' => AllUpToDate env db' := by
      intro db₃ h₃
      refine ensures_ite (fun _ => ?_) fun hwords => ?_
      · exact (h.confined h₃.confined).bind fun _ db' h' => ensures_pure h'
      · exact ensures_pure (h.assigned h₃ hharmless (Bool.eq_false_iff.2 hwords))
    cases hdeduction : input.deduction with
    | none => exact hrecompute db₂ hedit
    | some deduction =>
      refine (writeNextPriceVersion_spec env _ db₂).bind fun _ db₃ h₃ => hrecompute db₃ ?_
      exact hedit.priced hrule (hkey ▸ hassigned) hused h₃

/-! ## Rules and prices -/

omit [Number K] in
theorem inScope_all (r : ResultRow) : db.inScope {} r = true := rfl

omit [Number K] in
theorem updateRule_edit (id : String) (f : ErrorRuleRow → ErrorRuleRow) (n : Nat) :
    RulerEdit db { db.updateRule id f with drawnIds := n } :=
  ⟨rfl, fun _ => rfl⟩

theorem revise_consistent (h : AllUpToDate env db) (ruleId : String) (changes : RuleChanges) :
    Ensures (revise env ruleId changes) db fun _ db' => AllUpToDate env db' := by
  rw [revise]
  refine (ownedRule_spec ruleId).bind fun rule db₁ h₁ => ?_
  obtain ⟨rfl, hrule⟩ := h₁
  refine (freshId_spec env _ db₁).bind fun revisionId db₂ h₂ => ?_
  obtain ⟨_, rfl⟩ := h₂
  refine ensures_bind (ensures_modify ?_)
  set next : RuleRevision := { changes.apply rule.current with
    id := revisionId, revision := rule.current.revision + 1 } with hnext
  have htidy := h.tidy.updateRule rule.id (f := fun r => { r with current := next })
    (fun _ => rfl) (fun _ => rfl) (fun _ hne => hne) (db₁.drawnIds + 1)
  have hedit : RulerEdit db₁ { db₁.updateRule rule.id (fun r => { r with current := next }) with
      drawnIds := db₁.drawnIds + 1 } := updateRule_edit _ _ _
  refine ensures_ite (fun _ => ?_) fun hsame => ?_
  · refine (h.recompute_after hedit htidy _ fun r _ _ hscope => ?_).bind fun _ db' h' =>
      ensures_pure h'
    rw [inScope_all] at hscope
    cases hscope
  · refine ensures_pure (h.edit hedit htidy fun r _ _ _ => ?_)
    exact keepsView_of_revised h.tidy htidy
      (fun name => snapshots_revised hrule (not_not.1 hsame) _ name) rfl

theorem setState_consistent (h : AllUpToDate env db) (ruleId : String) (state : EndState) :
    Ensures (setState env ruleId state) db fun _ db' => AllUpToDate env db' := by
  rw [setState]
  refine (ownedRule_spec ruleId).bind fun rule db₁ h₁ => ?_
  obtain ⟨rfl, hrule⟩ := h₁
  refine ensures_bind (ensures_modify ?_)
  have hstate : ∀ r : ErrorRuleRow, r.state ≠ .proposed →
      ({ r with state := state.toRuleState } : ErrorRuleRow).state ≠ .proposed := by
    intro r _
    cases state with
    | dismissed => exact fun heq => nomatch heq
    | retired => exact fun heq => nomatch heq
  have htidy := h.tidy.updateRule rule.id
    (f := fun r => { r with state := state.toRuleState }) (fun _ => rfl) (fun _ => rfl) hstate
    db₁.drawnIds
  refine h.recompute_after (updateRule_edit rule.id _ db₁.drawnIds) htidy _ fun r _ _ hscope => ?_
  rw [inScope_all] at hscope
  cases hscope

theorem setPrice_consistent (h : AllUpToDate env db) (rubricErrorId : String)
    (deduction : Option Int) :
    Ensures (setPrice env rubricErrorId deduction) db fun _ db' => AllUpToDate env db' := by
  rw [setPrice]
  refine (ownedRubricError_spec rubricErrorId).bind fun row db₁ h₁ => ?_
  obtain ⟨rfl, hrow⟩ := h₁
  have hid : row.id = rubricErrorId := rowOf_key hrow
  refine (writeNextPriceVersion_spec env _ db₁).bind fun _ db₂ h₂ => ?_
  rw [← hid] at h₂
  have htidy := h₂.tidy h.tidy
  refine (h.recompute_after h₂.edit htidy _ fun r _ _ hscope => ?_).bind fun _ db' h' =>
    ensures_pure h'
  have hexceptions : db₂.exceptionsOf r.id = db₁.exceptionsOf r.id := by
    rw [h₂.tables]
    rfl
  by_cases hname : ∃ rubric, db₁.rubric r.rubricIdVersion = some rubric ∧
      rubric.name = row.rubricName
  · -- A paper of the rubric: its newest computation does not have the rule.
    obtain ⟨rubric, hrubric, hname⟩ := hname
    have htable := h₂.snapshots h.tidy (mem_of_rowOf hrow)
    rw [← hname] at htable
    refine keepsView_of_price h.tidy hrubric htable hexceptions fun c hc e he heq => ?_
    rw [Db.inScope, decide_eq_false_iff_not] at hscope
    refine hscope ⟨rfl, ?_, ?_, rfl, fun hno => nomatch hno⟩
    · rw [h₂.tables]
      show ((db₁.rubric r.rubricIdVersion).any fun rb => decide (rb.name = row.rubricName)) = true
      rw [hrubric, Option.any_some]
      exact decide_eq_true hname
    · rw [h₂.tables]
      show ((db₁.latestComputation r.id).any fun c =>
        c.breakdown.errors.any fun e => decide (e.ruleId = row.errorRuleId)) = true
      rw [hc, Option.any_some]
      exact List.any_eq_true.2 ⟨e, he, decide_eq_true heq⟩
  · refine keepsView_of_table h.tidy htidy (fun rubric hrubric => ?_) hexceptions
    have hrows : ∀ c ∈ [(⟨row.id, deduction⟩ : PriceRow)], ∃ re ∈ db₁.rubricErrors,
        re.id = c.rubricErrorId ∧ re.rubricName = row.rubricName := by
      intro c hc
      rw [List.mem_singleton.1 hc]
      exact ⟨row, mem_of_rowOf hrow, rfl, rfl⟩
    exact (h₂.confinedTo h.tidy hrows).others _ fun heq => hname ⟨rubric, hrubric, heq⟩

/-! ## A rule of its own for one rubric -/

omit [Number K] in
theorem exceptionsOf_split (hids : (db.results.map ResultRow.id).Nodup)
    {rubricName ruleId newRuleId : String} {r : ResultRow} (hr : r ∈ db.results)
    (hname : ∀ rubric, db.rubric r.rubricIdVersion = some rubric → rubric.name ≠ rubricName) :
    Db.exceptionsOf { db with
        reviews := db.reviews ++ db.copiedExceptions rubricName ruleId newRuleId } r.id =
      db.exceptionsOf r.id := by
  rw [Db.exceptionsOf, Db.exceptionsOf, List.filter_append]
  have hnone : (db.copiedExceptions rubricName ruleId newRuleId).filter
      (fun t => decide (t.gradingResultId = r.id ∧ t.kind = .errorException)) = [] := by
    refine List.filter_eq_nil_iff.2 fun t ht hmatch => ?_
    obtain ⟨g, hg, hcopied⟩ := List.mem_filterMap.1 ht
    obtain ⟨direction, _, rfl⟩ := Option.map_eq_some_iff.1 hcopied
    obtain ⟨hgr, hg_name⟩ := List.mem_filter.1 (mem_sortByKey.1 hg)
    have hgid : g.id = r.id := (of_decide_eq_true hmatch).1
    have hsame : g = r := List.inj_on_of_nodup_map hids hgr hr hgid
    rw [hsame, Option.any_eq_true] at hg_name
    obtain ⟨rubric, hrubric, hrubric_name⟩ := hg_name
    exact hname rubric hrubric (of_decide_eq_true hrubric_name)
  rw [hnone, List.append_nil]

omit [Number K] in
theorem hasManualScore_split (rubricName ruleId newRuleId : String) (id : String) :
    Db.hasManualScore { db with
        reviews := db.reviews ++ db.copiedExceptions rubricName ruleId newRuleId } id =
      db.hasManualScore id := by
  rw [Db.hasManualScore, Db.hasManualScore, List.any_append]
  have hnone : (db.copiedExceptions rubricName ruleId newRuleId).any
      (fun t => decide (t.gradingResultId = id ∧ t.kind = .manualScore)) = false := by
    refine List.any_eq_false.2 fun t ht hmatch => ?_
    obtain ⟨g, _, hcopied⟩ := List.mem_filterMap.1 ht
    obtain ⟨direction, _, rfl⟩ := Option.map_eq_some_iff.1 hcopied
    have hkind := (of_decide_eq_true hmatch).2
    cases hkind
  rw [hnone, Bool.or_false]

theorem Consistent.confined_exceptions (h : AllUpToDate env db) {rubricName : String}
    (hconfined : ConfinedTo rubricName db db') (ruleId newRuleId : String) :
    Ensures (recomputeRubric env rubricName)
      { db' with reviews := db'.reviews ++ db'.copiedExceptions rubricName ruleId newRuleId }
      fun _ db'' => AllUpToDate env db'' := by
  set after : Db K := { db' with
    reviews := db'.reviews ++ db'.copiedExceptions rubricName ruleId newRuleId } with hafter
  have hedit : RulerEdit db' after := ⟨rfl, hasManualScore_split rubricName ruleId newRuleId⟩
  have htidy : Tidy after :=
    ⟨hconfined.tidy.ruleKeys, hconfined.tidy.rowIds, hconfined.tidy.uses, hconfined.tidy.rowRules⟩
  refine h.recompute_after (hconfined.edit.trans hedit) htidy _ fun r hr _ hscope => ?_
  have hother : ∀ rubric, db.rubric r.rubricIdVersion = some rubric →
      rubric.name ≠ rubricName := by
    intro rubric hrubric
    refine inScope_rubric hscope ?_
    rw [hedit.rubric, hconfined.edit.rubric]
    exact hrubric
  refine keepsView_of_table h.tidy htidy (fun rubric hrubric => ?_) ?_
  · exact hconfined.others _ (hother rubric hrubric)
  · rw [hafter, exceptionsOf_split (hconfined.edit.results ▸ h.ids)
      (hconfined.edit.results ▸ hr) fun rubric hrubric => ?_]
    · rw [Db.exceptionsOf, Db.exceptionsOf, hconfined.reviews]
    · rw [hconfined.edit.rubric] at hrubric
      exact hother rubric hrubric

theorem split_consistent (h : AllUpToDate env db) (ruleId rubricName : String)
    (changes : RuleChanges) :
    Ensures (split env ruleId rubricName changes) db fun _ db' => AllUpToDate env db' := by
  rw [split]
  refine (ownedRule_spec ruleId).bind fun rule db₁ h₁ => ?_
  obtain ⟨rfl, hrule⟩ := h₁
  refine ensures_bind (ensures_get ?_)
  split
  · exact ensures_throw
  · rename_i assignment hassignment
    refine ensures_ite (fun _ => ensures_bind ensures_throw) fun _ => ?_
    refine (uniqueRuleKey_spec _).bind fun ruleKey db₂ h₂ => ?_
    obtain ⟨rfl, _, hfree⟩ := h₂
    refine (insertRule_spec env h.tidy _ _ _ hfree).bind fun newRuleId db₃ h₃ => ?_
    obtain ⟨hkeeps, ⟨newRule, hnewRule, hactive, _⟩, hnew⟩ := h₃
    refine ensures_bind (ensures_modify (ensures_bind (ensures_modify ?_)))
    have hmem : assignment ∈ db₂.rubricErrors := List.mem_of_find?_eq_some hassignment
    have hname : assignment.rubricName = rubricName := by
      have hfound := List.find?_some hassignment
      exact (of_decide_eq_true hfound).1
    have hstate : newRule.state ≠ .proposed := by
      rw [hactive]
      decide
    have hunused : ∀ re ∈ db₃.rubricErrors, re.errorRuleId ≠ newRuleId := by
      intro re hre heq
      rw [hkeeps.rows] at hre
      obtain ⟨found, hfound, _⟩ := h.tidy.rowRules re hre
      refine hnew (List.mem_map.2 ⟨found, mem_of_rowOf hfound, ?_⟩)
      rw [← heq]
      exact rowOf_key hfound
    have htidy := hkeeps.tidy.splitRow assignment hnewRule hstate hunused
    have hrow : rowOf RubricErrorRow.id db₃.rubricErrors assignment.id = some assignment :=
      rowOf_of_mem hkeeps.tidy.rowIds (hkeeps.rows ▸ hmem)
    have hconfined := (hkeeps.confinedTo assignment.rubricName).trans
      (confinedTo_updateRow hkeeps.tidy htidy hrow (fun _ => rfl) fun _ => rfl)
    rw [hname] at hconfined
    exact (h.confined_exceptions hconfined ruleId newRuleId).bind fun _ db' h' => ensures_pure h'

/-! ## Marked criteria -/

theorem waivers_consistent (h : AllUpToDate env db) {waivers : List WaiverRow} {n : Nat}
    {scope : RecomputeScope} (reason : ComputationReason) :
    Ensures (recomputeForTeacher env reason scope) { db with waivers := waivers, drawnIds := n }
      fun _ db' => AllUpToDate env db' := by
  have htidy : Tidy { db with waivers := waivers, drawnIds := n } :=
    ⟨h.tidy.ruleKeys, h.tidy.rowIds, h.tidy.uses, h.tidy.rowRules⟩
  have hedit : RulerEdit db { db with waivers := waivers, drawnIds := n } := ⟨rfl, fun _ => rfl⟩
  refine h.recompute_after hedit htidy reason fun r _ _ _ => ?_
  exact keepsView_of_table h.tidy htidy (fun _ _ => rfl) rfl

omit [Number K] in
theorem ownedRubric_spec (rubricId message : String) :
    Ensures (ownedRubric rubricId message) db fun _ db' => db' = db := by
  rw [ownedRubric]
  refine ensures_bind (ensures_get ?_)
  split
  · exact ensures_pure rfl
  · exact ensures_throw

theorem setWaiver_consistent (h : AllUpToDate env db) (rubricId criterionKey : String) :
    Ensures (setWaiver env rubricId criterionKey) db fun _ db' => AllUpToDate env db' := by
  rw [setWaiver]
  refine (ownedRubric_spec rubricId _).bind fun rubric db₁ h₁ => ?_
  subst h₁
  refine ensures_ite (fun _ => ensures_bind ensures_throw) fun _ => ?_
  refine ensures_bind (ensures_get ?_)
  split
  · exact ensures_pure h
  · refine (freshId_spec env _ db₁).bind fun id db₂ h₂ => ?_
    obtain ⟨_, rfl⟩ := h₂
    refine ensures_bind (ensures_modify ?_)
    exact (waivers_consistent h _).bind fun _ db' h' => ensures_pure h'

theorem revokeWaiver_consistent (h : AllUpToDate env db) (waiverId : String) :
    Ensures (revokeWaiver env waiverId) db fun _ db' => AllUpToDate env db' := by
  rw [revokeWaiver]
  refine ensures_bind (ensures_get ?_)
  split
  · exact ensures_throw
  · rename_i waiver _
    refine (ownedRubric_spec waiver.rubricId _).bind fun rubric db₁ h₁ => ?_
    subst h₁
    refine ensures_ite (fun _ => ensures_bind ensures_throw) fun _ => ?_
    exact ensures_bind (ensures_set (waivers_consistent h _))

end Cine.Grading
