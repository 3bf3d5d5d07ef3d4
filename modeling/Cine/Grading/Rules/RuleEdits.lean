import Cine.Grading.Rules.RuleTable

/-!
# The edits behind the operations on rules

What `copy`, `revise`, `setState` and `split` change in the tables of the
rubrics before they recompute.
-/

namespace Cine.Grading

open Cine.Lib

variable {K : Type}

/-! ## Copying rows -/

theorem copyRows_spec (env : GradingEnv K) (toRubricName : String) (targetKeys : List String)
    (sources : List CopySource) {db : Db K} (h : Tidy db)
    (hrules : ∀ src ∈ sources, ∃ rule, db.rule src.errorRuleId = some rule ∧
      rule.state ≠ .proposed) :
    Ensures (copyRows env toRubricName targetKeys sources) db fun tally db' =>
      ConfinedTo toRubricName db db' ∧ (tally.changes = [] → db' = db) ∧
        ∀ c ∈ tally.changes, ∃ re ∈ db'.rubricErrors,
          re.id = c.rubricErrorId ∧ re.rubricName = toRubricName := by
  induction sources generalizing db with
  | nil =>
    rw [copyRows]
    exact ensures_pure ⟨.refl h, fun _ => rfl, fun c hc => absurd hc List.not_mem_nil⟩
  | cons src rest ih =>
    have htail := ih h fun src' hsrc' => hrules src' (List.mem_cons_of_mem _ hsrc')
    rw [copyRows]
    refine ensures_ite (fun _ => htail.bind fun tally db' h' => ensures_pure h') fun _ => ?_
    obtain ⟨rule, hrule, hstate⟩ := hrules src List.mem_cons_self
    refine (useRule_spec env h hrule hstate).bind fun o db₁ h₁ => ?_
    rcases h₁ with ⟨rfl, rfl⟩ | ⟨id, rfl, hused⟩
    · exact htail.bind fun tally db' h' => ensures_pure h'
    · have hrest := ih hused.confined.tidy fun src' hsrc' => by
        obtain ⟨rule', hrule', hstate'⟩ := hrules src' (List.mem_cons_of_mem _ hsrc')
        refine ⟨rule', ?_, hstate'⟩
        show rowOf _ db₁.rules _ = _
        rw [hused.rules]
        exact hrule'
      refine hrest.bind fun tally db' h' => ensures_pure ?_
      obtain ⟨hconfined, _, hrows⟩ := h'
      refine ⟨hused.confined.trans hconfined, fun hnil => absurd hnil (List.cons_ne_nil _ _), ?_⟩
      intro c hc
      rcases List.mem_cons.1 hc with rfl | hc
      · obtain ⟨row, hrow, hname, _⟩ := hused.row
        obtain ⟨re, hre, hid, hname'⟩ := hconfined.rows row (mem_of_rowOf hrow)
        exact ⟨re, hre, hid.trans (rowOf_key hrow), hname'.trans hname⟩
      · exact hrows c hc

theorem copySources_rules {db : Db K} {rubricName : String} {src : CopySource}
    (h : src ∈ db.copySources rubricName) :
    ∃ rule, db.rule src.errorRuleId = some rule ∧ rule.state ≠ .proposed := by
  rw [Db.copySources, mem_sortByKey, mem_sortByKey, List.mem_filterMap] at h
  obtain ⟨re, _, hsrc⟩ := h
  split at hsrc
  · cases hsrc
  · rename_i rule hrule
    split_ifs at hsrc with hactive
    cases hsrc
    refine ⟨rule, hrule, ?_⟩
    rw [hactive]
    decide

/-! ## A changed rule -/

section Rules

variable {db : Db K} {f : ErrorRuleRow → ErrorRuleRow}

theorem Tidy.updateRule (h : Tidy db) (id : String) (hid : ∀ r, (f r).id = r.id)
    (hkey : ∀ r, (f r).ruleKey = r.ruleKey)
    (hstate : ∀ r, r.state ≠ .proposed → (f r).state ≠ .proposed) (n : Nat) :
    Tidy { db.updateRule id f with drawnIds := n } := by
  refine ⟨?_, h.rowIds, h.uses, fun re hre => ?_⟩
  · show ((updateRow _ _ _ _).map ErrorRuleRow.ruleKey).Nodup
    rw [map_updateRow hkey]
    exact h.ruleKeys
  · obtain ⟨rule, hrule, hne⟩ := h.rowRules re hre
    refine ⟨if rule.id = id then f rule else rule, ?_, ?_⟩
    · show rowOf _ (updateRow _ _ _ _) _ = _
      rw [rowOf_updateRow hid]
      show Option.map _ (db.rule re.errorRuleId) = _
      rw [hrule, Option.map_some]
    · split_ifs
      · exact hstate rule hne
      · exact hne

/-- The rule with the id `ruleId` in another revision. -/
def RuleSnapshot.revised (ruleId revisionId : String) (s : RuleSnapshot) : RuleSnapshot :=
  if s.ruleId = ruleId then { s with revisionId := revisionId } else s

theorem snapshots_revised {id : String} {rule : ErrorRuleRow} (hrule : db.rule id = some rule)
    {next : RuleRevision} (hpredicate : next.predicate = rule.current.predicate) (n : Nat)
    (rubricName : String) :
    Db.snapshots
        { db.updateRule rule.id (fun r => { r with current := next }) with drawnIds := n }
        rubricName =
      (db.snapshots rubricName).map (RuleSnapshot.revised rule.id next.id) := by
  refine snapshots_map rfl (fun s => ?_) fun re _ _ => ?_
  · rw [RuleSnapshot.revised]
    split_ifs
    · rfl
    · rfl
  · set db' : Db K :=
      { db.updateRule rule.id (fun r => { r with current := next }) with drawnIds := n } with hdb'
    have hlookup : db'.rule re.errorRuleId = (db.rule re.errorRuleId).map fun r =>
        if r.id = rule.id then { r with current := next } else r :=
      rowOf_updateRow (f := fun r : ErrorRuleRow => { r with current := next }) (fun _ => rfl) _
    have hprice : db'.currentPrice re.id = db.currentPrice re.id := rfl
    rw [Db.snapshotOf, Db.snapshotOf, hlookup, hprice]
    cases hfound : db.rule re.errorRuleId with
    | none => rfl
    | some found =>
      simp only [Option.map_some]
      by_cases hsame : found.id = rule.id
      · have hid : rule.id = id := rowOf_key hrule
        have hfound_id : found.id = re.errorRuleId := rowOf_key hfound
        have heq : found = rule := by
          rw [← hfound_id, hsame, hid, hrule] at hfound
          exact (Option.some.inj hfound).symm
        subst heq
        simp only [if_true]
        split_ifs
        · simp [RuleSnapshot.revised, hpredicate]
        · rfl
      · simp only [if_neg hsame]
        split_ifs
        · simp [RuleSnapshot.revised, hsame]
        · rfl

end Rules

/-! ## A rule of its own for one rubric -/

theorem Tidy.splitRow {db : Db K} (h : Tidy db) (row : RubricErrorRow) {newRule : ErrorRuleRow} {newRuleId : String}
    (hrule : db.rule newRuleId = some newRule) (hstate : newRule.state ≠ .proposed)
    (hunused : ∀ re ∈ db.rubricErrors, re.errorRuleId ≠ newRuleId) :
    Tidy (db.updateRubricError row.id fun re => { re with errorRuleId := newRuleId }) := by
  have hids : ((db.updateRubricError row.id fun re =>
      { re with errorRuleId := newRuleId }).rubricErrors.map RubricErrorRow.id).Nodup := by
    show ((updateRow _ _ _ _).map RubricErrorRow.id).Nodup
    rw [map_updateRow (f := fun re : RubricErrorRow => { re with errorRuleId := newRuleId })
      fun _ => rfl]
    exact h.rowIds
  refine ⟨h.ruleKeys, hids, ?_, ?_⟩
  · refine List.Nodup.map_on ?_ (hids.of_map _)
    intro x hx y hy huse
    obtain ⟨x₀, hx₀, rfl⟩ := mem_updateRow.1 hx
    obtain ⟨y₀, hy₀, rfl⟩ := mem_updateRow.1 hy
    rw [Prod.mk.injEq] at huse
    split_ifs at huse ⊢ with hxid hyid hyid
    · have hsame : x₀ = y₀ :=
        List.inj_on_of_nodup_map h.rowIds hx₀ hy₀ (hxid.trans hyid.symm)
      rw [hsame]
    · exact absurd huse.2.symm (hunused y₀ hy₀)
    · exact absurd huse.2 (hunused x₀ hx₀)
    · exact List.inj_on_of_nodup_map h.uses hx₀ hy₀ (Prod.ext huse.1 huse.2)
  · intro re hre
    obtain ⟨re₀, hre₀, rfl⟩ := mem_updateRow.1 hre
    split_ifs
    · exact ⟨newRule, hrule, hstate⟩
    · exact h.rowRules re₀ hre₀

end Cine.Grading
