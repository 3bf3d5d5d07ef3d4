import Cine.Grading.Rules.SplitOff
import Cine.Grading.Scoring.NoStaleScores

/-!
# The marks after a rule is split off

`split` gives one rubric a copy of a shared rule, with the prices and the
exceptions of the rule.  The copy has a key of its own, and the stored
investigations of the papers name the rule under the old key.

* `KeepsMarks`: every paper of the rubric has the marks it had, with the copy
  where the rule stood, and every other paper is computed as before.
* `SplitHarmless`: no paper of the rubric hangs on the key of the rule.  A rule
  that the machine checks is always harmless (`splitHarmless_of_machine`).
* `split_keepsMarks_iff`: the one holds exactly when the other does.
* `splitNaming_loses_error` is a split that takes the error of a rule in words
  from the paper that has it.
-/

namespace Cine.Grading

open Cine.Lib

variable {K : Type} [Number K]

/-- The outcomes have the same marks, and the copy is counted where the rule
was. -/
def SameMarks (ruleKey copyKey : String) :
    Except Failure (ScoreCoreOutput K) → Except Failure (ScoreCoreOutput K) → Prop
  | .ok out, .ok out' => out'.marks = out.marks ∧
      (copyKey ∈ countedKeys out'.breakdown.errors ↔ ruleKey ∈ countedKeys out.breakdown.errors)
  | .error e, .error e' => e' = e
  | _, _ => False

/-- Recomputing any paper gives the marks it had before. -/
structure KeepsMarks (env : GradingEnv K) (rubricName ruleKey copyKey : String)
    (db db' : Db K) : Prop where
  own : ∀ id, db.rubricNameOf id = some rubricName →
    SameMarks ruleKey copyKey (db.recomputed env id) (db'.recomputed env id)
  others : ∀ id, db.rubricNameOf id ≠ some rubricName →
    db'.recomputed env id = db.recomputed env id

/-- The marks of no graded paper of the rubric hang on the key of the rule. -/
def SplitHarmless {K : Type} (env : GradingEnv K) (db : Db K)
    (rubricName ruleId copyKey : String) : Prop :=
  ∀ id ctx stored, db.loadScoreContext id none = .ok ctx → ctx.rubricName = rubricName →
    ctx.stored = some stored → ∀ r ∈ db.snapshots rubricName, r.ruleId = ruleId →
      (db.scoreInput env ctx stored (db.snapshots rubricName)).KeyIndifferent r copyKey

variable {env : GradingEnv K} {db : Db K} {rubricName ruleId : String} {rule : ErrorRuleRow}
  {row : RubricErrorRow} {copy : ErrorRuleRow}

namespace OwnCopy

omit [Number K] in
theorem eq_snapshotOn (h : OwnCopy db rubricName ruleId rule row copy) (htidy : Tidy db)
    (hactive : rule.state = .active) {s : RuleSnapshot} (hs : s ∈ db.snapshots rubricName)
    (hid : s.ruleId = ruleId) : s = snapshotOn db row rule := by
  obtain ⟨others, hleft, _⟩ := h.table htidy hactive 0
  obtain ⟨found, hfound, hkey⟩ := rule_of_snapshot hs
  rw [hid, h.rule] at hfound
  refine List.inj_on_of_nodup_map (htidy.keys_nodup rubricName) hs
    (hleft.mem_iff.2 List.mem_cons_self) ?_
  rw [← hkey, ← Option.some.inj hfound]
  rfl

omit [Number K] in
theorem replaced (env : GradingEnv K) (h : OwnCopy db rubricName ruleId rule row copy)
    (htidy : Tidy db) (hreviews : db.ExceptionsOfRules) (hactive : rule.state = .active)
    (hpredicate : copy.current.predicate = rule.current.predicate) (n : Nat) {r : ResultRow}
    (hr : r ∈ db.results) (session : SessionRow) {rubric : RubricRow}
    (hrubric : db.rubric r.rubricIdVersion = some rubric) (hname : rubric.name = rubricName)
    (stored : StoredInvestigation K) :
    ∃ others, RuleReplaced
      (db.scoreInput env (db.contextOf r session rubric none) stored (db.snapshots rubricName))
      ((db.splitOff rubricName ruleId row copy n).scoreInput env
        ((db.splitOff rubricName ruleId row copy n).contextOf r session rubric none) stored
        ((db.splitOff rubricName ruleId row copy n).snapshots rubricName))
      (snapshotOn db row rule) (snapshotOn db row copy) others := by
  obtain ⟨others, hleft, hright⟩ := h.table htidy hactive n
  have hany : ((db.rubric r.rubricIdVersion).any fun rb => rb.name = rubricName) = true := by
    rw [hrubric, Option.any_some]
    exact decide_eq_true hname
  have hexceptions := h.exceptions_own hreviews n hr hany
  refine ⟨others, rfl, rfl, rfl, hleft, hright, rfl, hpredicate, rfl, ?_, fun s hs => ?_⟩
  · refine (hexceptions copy.id).trans ?_
    rw [if_pos rfl]
    show _ = (db.exceptionsOf r.id).get? rule.id
    rw [rowOf_key h.rule]
  · refine (hexceptions s.ruleId).trans (if_neg fun heq => h.id_new ?_)
    have hmem : s ∈ db.snapshots rubricName := hleft.mem_iff.2 (List.mem_cons_of_mem _ hs)
    obtain ⟨found, hfound, _⟩ := rule_of_snapshot hmem
    rw [← heq, ← rowOf_key hfound]
    exact List.mem_map_of_mem (mem_of_rowOf hfound)

end OwnCopy

/-! ## One paper -/

theorem recomputed_of_rows {id : String} {r : ResultRow} {session : SessionRow}
    {rubric : RubricRow} (hr : db.result id = some r) (hsession : db.sessionOf r = some session)
    (hrubric : db.rubric r.rubricIdVersion = some rubric) :
    db.recomputed env id = db.compute env (db.contextOf r session rubric none) (fun l => l) := by
  unfold Db.recomputed Db.loadScoreContext
  rw [hr]
  dsimp only
  rw [hsession, hrubric]
  rfl

theorem recomputed_congr {db' : Db K} {id : String} (hresult : db'.result id = db.result id)
    (hsession : ∀ r, db'.sessionOf r = db.sessionOf r)
    (hrubric : ∀ rubricId, db'.rubric rubricId = db.rubric rubricId)
    (hcompute : ∀ r session rubric, db.result id = some r → db.sessionOf r = some session →
      db.rubric r.rubricIdVersion = some rubric →
      db'.compute env (db'.contextOf r session rubric none) (fun l => l) =
        db.compute env (db.contextOf r session rubric none) (fun l => l)) :
    db'.recomputed env id = db.recomputed env id := by
  unfold Db.recomputed Db.loadScoreContext
  simp only [bind, Except.bind, hresult]
  -- A paper that is not found gives the same error, whatever is computed then.
  cases hr : db.result id with
  | none => dsimp only
  | some r =>
    dsimp only
    rw [hsession, hrubric]
    cases hs : db.sessionOf r with
    | none => dsimp only
    | some session =>
      cases hb : db.rubric r.rubricIdVersion with
      | none => dsimp only
      | some rubric => exact hcompute r session rubric hr hs hb

theorem compute_of_score {ctx : ScoreContext K} {stored : StoredInvestigation K}
    {out : ScoreCoreOutput K} (hstored : ctx.stored = some stored)
    (hout : (db.scoreInput env ctx stored (db.snapshots ctx.rubricName)).computeScore = .ok out) :
    db.compute env ctx (fun l => l) = .ok out := by
  unfold Db.compute
  rw [hstored]
  dsimp only
  rw [hout]

namespace OwnCopy

theorem sameMarks_iff (h : OwnCopy db rubricName ruleId rule row copy) (htidy : Tidy db)
    (hreviews : db.ExceptionsOfRules) (hactive : rule.state = .active)
    (hpredicate : copy.current.predicate = rule.current.predicate) (n : Nat) {id : String}
    {r : ResultRow} (hr : db.result id = some r) {session : SessionRow} {rubric : RubricRow}
    (hsession : db.sessionOf r = some session)
    (hrubric : db.rubric r.rubricIdVersion = some rubric) (hname : rubric.name = rubricName) :
    SameMarks rule.ruleKey copy.ruleKey (db.recomputed env id)
        ((db.splitOff rubricName ruleId row copy n).recomputed env id) ↔
      ∀ stored, (db.contextOf r session rubric none).stored = some stored →
        (db.scoreInput env (db.contextOf r session rubric none) stored
          (db.snapshots rubricName)).KeyIndifferent (snapshotOn db row rule) copy.ruleKey := by
  set db' := db.splitOff rubricName ruleId row copy n with hdb'
  rw [recomputed_of_rows hr hsession hrubric, @recomputed_of_rows _ _ _ db' _ _ _ _ hr hsession
    hrubric]
  cases hstored : (db.contextOf r session rubric none).stored with
  | none =>
    have hstored' : (db'.contextOf r session rubric none).stored = none := hstored
    unfold Db.compute
    rw [hstored, hstored']
    exact iff_of_true rfl fun _ hsome => nomatch hsome
  | some stored =>
    obtain ⟨others, hreplaced⟩ := h.replaced env htidy hreviews hactive hpredicate n
      (mem_of_rowOf hr) session hrubric hname stored
    have hkeys : ((db.snapshots rubricName).map RuleSnapshot.ruleKey).Nodup :=
      htidy.keys_nodup rubricName
    have hkeys' : ((db'.snapshots rubricName).map RuleSnapshot.ruleKey).Nodup :=
      (h.tidy htidy n).keys_nodup rubricName
    obtain ⟨out, hout⟩ : ∃ out, (db.scoreInput env (db.contextOf r session rubric none) stored
        (db.snapshots rubricName)).computeScore = .ok out := computeScore_isOk hkeys
    obtain ⟨out', hout'⟩ : ∃ out, (db'.scoreInput env (db'.contextOf r session rubric none) stored
        (db'.snapshots rubricName)).computeScore = .ok out := computeScore_isOk hkeys'
    have hmarks := hreplaced.marks_iff hkeys hkeys' hout hout'
    have hcounted := hreplaced.counted_iff hkeys hkeys' hout hout'
    have hcompute : db.compute env (db.contextOf r session rubric none) (fun l => l) = .ok out :=
      compute_of_score hstored (by rw [← hout, ← hname]; rfl)
    have hcompute' : db'.compute env (db'.contextOf r session rubric none) (fun l => l) =
        .ok out' := compute_of_score hstored (by rw [← hout', ← hname]; rfl)
    rw [hcompute, hcompute']
    constructor
    · rintro ⟨hsame, _⟩ stored' hsome
      obtain rfl := Option.some.inj hsome
      exact hmarks.1 hsame
    · intro hindifferent
      have hsame := hmarks.2 (hindifferent stored rfl)
      exact ⟨hsame, hcounted hsame⟩

theorem recomputed_other (h : OwnCopy db rubricName ruleId rule row copy) (htidy : Tidy db)
    (hids : (db.results.map ResultRow.id).Nodup) (n : Nat) {id : String}
    (hname : db.rubricNameOf id ≠ some rubricName) :
    (db.splitOff rubricName ruleId row copy n).recomputed env id = db.recomputed env id := by
  refine recomputed_congr rfl (fun _ => rfl) (fun _ => rfl) fun r session rubric hr hsession
    hrubric => ?_
  have hne : rubric.name ≠ rubricName := by
    intro heq
    refine hname ?_
    unfold Db.rubricNameOf Db.loadScoreContext
    rw [hr]
    dsimp only
    rw [hsession, hrubric]
    exact congrArg some heq
  have htable := h.table_other htidy n hne
  have hexceptions : (db.splitOff rubricName ruleId row copy n).exceptionsOf r.id =
      db.exceptionsOf r.id := by
    refine exceptions_other hids n (mem_of_rowOf hr) fun rubric' hrubric' => ?_
    rw [hrubric] at hrubric'
    exact Option.some.inj hrubric' ▸ hne
  have hinput : ∀ stored, (db.splitOff rubricName ruleId row copy n).scoreInput env
      ((db.splitOff rubricName ruleId row copy n).contextOf r session rubric none) stored
      ((db.splitOff rubricName ruleId row copy n).snapshots rubric.name) =
        db.scoreInput env (db.contextOf r session rubric none) stored
          (db.snapshots rubric.name) := by
    intro stored
    rw [htable]
    show { db.scoreInput env (db.contextOf r session rubric none) stored
        (db.snapshots rubric.name) with
      exceptions := (db.splitOff rubricName ruleId row copy n).exceptionsOf r.id } = _
    rw [hexceptions]
    rfl
  unfold Db.compute
  have hstored : ((db.splitOff rubricName ruleId row copy n).contextOf r session rubric
    none).stored = (db.contextOf r session rubric none).stored := rfl
  rw [hstored]
  cases (db.contextOf r session rubric none).stored with
  | none => rfl
  | some stored =>
    dsimp only
    rw [show ((db.splitOff rubricName ruleId row copy n).contextOf r session rubric
      none).rubricName = rubric.name from rfl, hinput stored]
    rfl

end OwnCopy

/-! ## Every paper -/

omit [Number K] in
theorem rows_of_rubricNameOf {id name : String} (h : db.rubricNameOf id = some name) :
    ∃ r session rubric, db.result id = some r ∧ db.sessionOf r = some session ∧
      db.rubric r.rubricIdVersion = some rubric ∧ rubric.name = name := by
  unfold Db.rubricNameOf at h
  cases hctx : db.loadScoreContext id none with
  | error e =>
    rw [hctx] at h
    cases h
  | ok ctx =>
    obtain ⟨r, session, rubric, hr, hsession, hrubric, rfl⟩ := rows_of_loadScoreContext hctx
    rw [hctx] at h
    exact ⟨r, session, rubric, hr, hsession, hrubric, Option.some.inj h⟩

theorem OwnCopy.keepsMarks_iff (h : OwnCopy db rubricName ruleId rule row copy) (htidy : Tidy db)
    (hids : (db.results.map ResultRow.id).Nodup) (hreviews : db.ExceptionsOfRules)
    (hactive : rule.state = .active)
    (hpredicate : copy.current.predicate = rule.current.predicate) (n : Nat) :
    KeepsMarks env rubricName rule.ruleKey copy.ruleKey db
        (db.splitOff rubricName ruleId row copy n) ↔
      SplitHarmless env db rubricName ruleId copy.ruleKey := by
  constructor
  · intro hkeeps id ctx stored hctx hname hstored s hs hid
    obtain ⟨r, session, rubric, hr, hsession, hrubric, rfl⟩ := rows_of_loadScoreContext hctx
    have hown : db.rubricNameOf id = some rubricName := by
      unfold Db.rubricNameOf
      rw [hctx]
      exact congrArg some hname
    have hsame := hkeeps.own id hown
    rw [h.sameMarks_iff htidy hreviews hactive hpredicate n hr hsession hrubric hname] at hsame
    rw [h.eq_snapshotOn htidy hactive hs hid]
    exact hsame stored hstored
  · intro hharmless
    refine ⟨fun id hown => ?_, fun id hother => h.recomputed_other htidy hids n hother⟩
    obtain ⟨r, session, rubric, hr, hsession, hrubric, hname⟩ := rows_of_rubricNameOf hown
    rw [h.sameMarks_iff htidy hreviews hactive hpredicate n hr hsession hrubric hname]
    intro stored hstored
    have hctx : db.loadScoreContext id none = .ok (db.contextOf r session rubric none) := by
      rw [← rowOf_key hr]
      refine loadScoreContext_of_rows ?_ hsession hrubric none
      rw [rowOf_key hr]
      exact hr
    obtain ⟨others, hleft, _⟩ := h.table htidy hactive 0
    have hid : rule.id = ruleId := rowOf_key h.rule
    exact hharmless id _ stored hctx hname hstored _ (hleft.mem_iff.2 List.mem_cons_self) hid

/-- A split of a rule of the library that leaves its condition alone keeps the
marks of every paper exactly when the marks of no paper of the rubric hang on
the key of the rule. -/
theorem split_keepsMarks_iff (env : GradingEnv K) {db db' : Db K}
    {ruleId rubricName copyId rowId : String} {changes : RuleChanges} {rule : ErrorRuleRow}
    (htidy : Tidy db) (hids : (db.results.map ResultRow.id).Nodup)
    (hreviews : db.ExceptionsOfRules) (hrule : db.rule ruleId = some rule)
    (hactive : rule.state = .active)
    (hpredicate : (changes.apply rule.current).predicate = rule.current.predicate)
    (hsplit : split env ruleId rubricName changes db = .ok ((copyId, rowId), db')) :
    ∃ copyKey,
      db.freeRuleKey (env.slugifyRuleKey (changes.apply rule.current).name) = some copyKey ∧
      (db'.rule copyId).map ErrorRuleRow.ruleKey = some copyKey ∧
      (KeepsMarks env rubricName rule.ruleKey copyKey db db' ↔
        SplitHarmless env db rubricName ruleId copyKey) := by
  obtain ⟨rule', row, copy, n, hcopy, hcopied, hkey, hid, hrules, hsame⟩ :=
    split_spec env hids ruleId rubricName changes _ _ hsplit
  have heq : rule' = rule := by
    have hfound := hcopy.rule
    rw [hrule] at hfound
    exact (Option.some.inj hfound).symm
  subst heq
  refine ⟨copy.ruleKey, hkey, ?_, ?_⟩
  · have hid : copyId = copy.id := hid
    have hfound : db'.rule copyId = some copy := by
      unfold Db.rule
      rw [hrules, hid]
      exact rule_of_newRule hcopy.id_new
    rw [hfound]
    rfl
  · rw [← hcopy.keepsMarks_iff htidy hids hreviews hactive (hcopied.trans hpredicate) n]
    constructor
    · intro hkeeps
      refine ⟨fun id hown => ?_, fun id hother => ?_⟩
      · rw [← hsame id]
        exact hkeeps.own id hown
      · rw [← hsame id]
        exact hkeeps.others id hother
    · intro hkeeps
      refine ⟨fun id hown => ?_, fun id hother => ?_⟩
      · rw [hsame id]
        exact hkeeps.own id hown
      · rw [hsame id]
        exact hkeeps.others id hother

/-- A rule in words that two rubrics use, and a graded paper of the first one
with its error. -/
def sharedNaming : Db ℚ :=
  { wordsRubric with
    rubrics := [introRubric, ⟨"rb2", "Nâng cao", 1, [⟨"correctness", 100⟩]⟩]
    rubricErrors :=
      [⟨"row", "Nhập môn", "rule", "correctness", false⟩,
        ⟨"row2", "Nâng cao", "rule", "correctness", false⟩]
    results := [{ secondPaper with problemId := some "q1", status := .flaggedForReview }]
    attempts := [⟨"a2", "r2", 1, some .graded, none, some namingInvestigation⟩] }

theorem sharedNaming_tidy : Tidy sharedNaming := by
  refine ⟨by decide, by decide, by decide, fun re hre => ?_⟩
  rcases List.mem_cons.1 hre with rfl | hre
  · exact ⟨_, rfl, by decide⟩
  · rw [List.mem_singleton.1 hre]
    exact ⟨_, rfl, by decide⟩

theorem sharedNaming_split : ∃ copyId rowId db',
    split plainEnv "rule" "Nhập môn" {} sharedNaming = .ok ((copyId, rowId), db') := by
  have hok : (split plainEnv "rule" "Nhập môn" {} sharedNaming).toBool = true := by
    decide +kernel
  cases hrun : split plainEnv "rule" "Nhập môn" {} sharedNaming with
  | error e =>
    rw [hrun] at hok
    cases hok
  | ok p => exact ⟨p.1.1, p.1.2, p.2, rfl⟩

theorem splitNaming_keepsMarks_iff :
    ∃ copyId rowId db' copyKey,
      split plainEnv "rule" "Nhập môn" {} sharedNaming = .ok ((copyId, rowId), db') ∧
        (KeepsMarks plainEnv "Nhập môn" "naming" copyKey sharedNaming db' ↔
          SplitHarmless plainEnv sharedNaming "Nhập môn" "rule" copyKey) := by
  obtain ⟨copyId, rowId, db', hsplit⟩ := sharedNaming_split
  have hreviews : sharedNaming.ExceptionsOfRules := fun t ht => absurd ht List.not_mem_nil
  obtain ⟨copyKey, _, _, hiff⟩ := split_keepsMarks_iff plainEnv sharedNaming_tidy (by decide)
    hreviews rfl rfl rfl hsplit
  exact ⟨copyId, rowId, db', copyKey, hsplit, hiff⟩

/-- The paper loses its error with the split, and gains the price of it. -/
theorem splitNaming_loses_error :
    (sharedNaming.recomputed plainEnv "r2").toOption.map ScoreCoreOutput.marks =
        some ⟨some 80, [⟨"correctness", 100, 20, false⟩], 1⟩ ∧
      ((split plainEnv "rule" "Nhập môn" {} sharedNaming).toOption.bind fun p =>
        (p.2.recomputed plainEnv "r2").toOption.map ScoreCoreOutput.marks) =
          some ⟨some 100, [⟨"correctness", 100, 0, false⟩], 0⟩ ∧
      ¬ ∀ (env : GradingEnv ℚ) (db db' : Db ℚ) (ruleId rubricName copyId rowId : String)
          (changes : RuleChanges) (rule : ErrorRuleRow), Tidy db →
          (db.results.map ResultRow.id).Nodup → db.ExceptionsOfRules →
          db.rule ruleId = some rule → rule.state = .active →
          (changes.apply rule.current).predicate = rule.current.predicate →
          split env ruleId rubricName changes db = .ok ((copyId, rowId), db') →
          ∀ copyKey, (db'.rule copyId).map ErrorRuleRow.ruleKey = some copyKey →
            KeepsMarks env rubricName rule.ruleKey copyKey db db' := by
  have hbefore : (sharedNaming.recomputed plainEnv "r2").toOption.map ScoreCoreOutput.marks =
      some ⟨some 80, [⟨"correctness", 100, 20, false⟩], 1⟩ := by decide +kernel
  have hafter : ((split plainEnv "rule" "Nhập môn" {} sharedNaming).toOption.bind fun p =>
      (p.2.recomputed plainEnv "r2").toOption.map ScoreCoreOutput.marks) =
        some ⟨some 100, [⟨"correctness", 100, 0, false⟩], 0⟩ := by decide +kernel
  refine ⟨hbefore, hafter, fun hall => ?_⟩
  have hcopied : ((split plainEnv "rule" "Nhập môn" {} sharedNaming).toOption.bind fun p =>
      (p.2.rule p.1.1).map ErrorRuleRow.ruleKey) = some "Đặt tên" := by decide +kernel
  obtain ⟨copyId, rowId, db', hsplit⟩ := sharedNaming_split
  rw [hsplit] at hafter hcopied
  have hkeeps := hall plainEnv sharedNaming db' "rule" "Nhập môn" copyId rowId {} _
    sharedNaming_tidy (by decide) (fun t ht => absurd ht List.not_mem_nil) rfl rfl rfl hsplit
    "Đặt tên" hcopied
  have hsame := hkeeps.own "r2" rfl
  have hafter : (db'.recomputed plainEnv "r2").toOption.map ScoreCoreOutput.marks =
      some ⟨some 100, [⟨"correctness", 100, 0, false⟩], 0⟩ := hafter
  cases hold : sharedNaming.recomputed plainEnv "r2" with
  | error e =>
    rw [hold] at hbefore
    cases hbefore
  | ok out =>
    cases hnew : db'.recomputed plainEnv "r2" with
    | error e =>
      rw [hnew] at hafter
      cases hafter
    | ok out' =>
      rw [hold, hnew] at hsame
      rw [hold] at hbefore
      rw [hnew] at hafter
      have hmarks := hsame.1
      rw [Option.some.inj hbefore, Option.some.inj hafter] at hmarks
      exact absurd hmarks (by decide)

end Cine.Grading
