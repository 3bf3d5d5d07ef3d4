import Cine.Grading.OneShot.EnforceScoring
import Cine.Lib.OrderedMap
import Cine.Lib.Utf16
import Mathlib.Algebra.Order.BigOperators.Group.List

/-!
# The report of a rehearsal

`eval/rehearsal/score-run.ts`: every paper of a scenario that has a result is
checked against what the scenario expects, and the summary adds the checks up.
A paper is one student and one question.

* `sumOf_recallByRule`: what the figures of all rules add up to, paper by paper.
* `adds_up_iff` is the result.  The errors of a paper are looked up by its
  student alone, so the figures are right when the first paper of the student
  expects the same errors.
* `secondQuestion_lost` is a run where they are not.

A price is kept in the hundredths that `parseHundredths` reads.
-/

namespace Cine.Eval.Rehearsal

open Cine.Grading
open Cine.Lib

/-! ## The scenario and the results -/

structure RehearsalRule where
  ruleKey : String
  criterionKey : String
  /-- The rule is checked by a machine. -/
  hasPredicate : Bool
  price : Nat

inductive ExpectedDecision
  | auto
  | review
deriving DecidableEq, Repr

inductive Decision
  | auto
  | review
  | ungradable
  | pending
deriving DecidableEq, Repr

structure Expectation where
  errors : List String
  optionalErrors : List String
  decision : ExpectedDecision
  suspectedLenses : List String
  optionalSuspected : List String

structure ScenarioSubmission where
  mssv : String
  label : String
  expect : Expectation
  ordinal : Option Nat
  missing : Bool

/-- `s.ordinal ?? 1`. -/
def ScenarioSubmission.question (s : ScenarioSubmission) : Nat := s.ordinal.getD 1

structure RubricCriterion where
  key : String
  maxPoints : ℚ

structure RehearsalScenario where
  criteria : List RubricCriterion
  rules : List RehearsalRule
  submissions : List ScenarioSubmission
  /-- A student has one paper for a question. -/
  papers : (submissions.map fun s => (s.mssv, s.question)).Nodup

structure FoundError where
  ruleKey : String
  counted : String

structure LensVerdict where
  lens : String
  ruleKey : String
  status : String

structure CaseNote where
  lens : String
  suspected : Bool
  note : String

structure ActualSubmission where
  mssv : String
  ordinal : Option Nat
  status : String
  score : Option ℚ
  model : Option String
  errors : List FoundError
  verdicts : List LensVerdict
  caseNotes : List CaseNote
  finishedAtSec : Option ℚ

def unitKey (mssv : String) (ordinal : Nat) : String := mssv ++ "#" ++ toString ordinal

/-! ## The check of one paper -/

structure SubmissionCheck where
  mssv : String
  ordinal : Nat
  label : String
  expectedScore : ℚ
  actualScore : Option ℚ
  scoreOk : Bool
  auditHidden : Bool
  missedErrors : List String
  extraErrors : List String
  refuted : List String
  expectedDecision : ExpectedDecision
  actualDecision : Decision
  decisionOk : Bool
  wrongAuto : Bool
  falseFlags : List String
  missedFlags : List String
  lensFailures : List String
  finishedAtSec : Option ℚ

/-- `DECISION`, and `pending` for any other status. -/
def decisionOf (status : String) : Decision :=
  if status = "auto_approved" then .auto
  else if status = "flagged_for_review" then .review
  else if status = "ungradable" then .ungradable
  else if status = "audit_pending" then .auto
  else .pending

def ExpectedDecision.toDecision : ExpectedDecision → Decision
  | .auto => .auto
  | .review => .review

/-- `NOT_CONCLUDED`. -/
def notConcluded (note : String) : Bool :=
  "không kết luận được".toList.isPrefixOf note.toList ||
    "không đọc được".toList.isPrefixOf note.toList

def expectedScoreHundredths (scenario : RehearsalScenario) (deducted : List String) : ℚ :=
  let perCriterion (key : String) : ℚ :=
    ((scenario.rules.filter fun rule => rule.ruleKey ∈ deducted ∧ rule.criterionKey = key).map
      fun rule => (rule.price : ℚ)).sum
  (scenario.criteria.map fun c =>
    let max : ℚ := mathRound (c.maxPoints * 100)
    max - min max (perCriterion c.key)).sum

/-- The rules that a result has found. -/
def foundErrors (errors : List FoundError) : List String :=
  ((errors.filter fun e => e.counted ≠ "refuted" ∧ e.counted ≠ "excluded").map
    FoundError.ruleKey).eraseDups

def missedErrors (expect : Expectation) (errors : List FoundError) : List String :=
  expect.errors.eraseDups.filter fun k => k ∉ foundErrors errors

def checkOne (scenario : RehearsalScenario) (sub : ScenarioSubmission)
    (act : Option ActualSubmission) : SubmissionCheck :=
  let required := sub.expect.errors.eraseDups
  let optional := sub.expect.optionalErrors.eraseDups
  let errors := (act.map ActualSubmission.errors).getD []
  let found := foundErrors errors
  let deducted := (required ++ optional.filter (· ∈ found)).eraseDups
  let expectedScore := expectedScoreHundredths scenario deducted / 100
  let actualDecision := (act.map fun a => decisionOf a.status).getD .pending
  let caseNotes := (act.map ActualSubmission.caseNotes).getD []
  let suspected := (caseNotes.filter CaseNote.suspected).map CaseNote.lens
  let missed := missedErrors sub.expect errors
  let modelRules := (scenario.rules.filter fun r => !r.hasPredicate).map RehearsalRule.ruleKey
  let expectedFlags := (sub.expect.suspectedLenses ++
    if missed.any (· ∈ modelRules) then ["bo_sot"] else []).eraseDups
  let allowedFlags := expectedFlags ++ sub.expect.optionalSuspected
  let score := act.bind ActualSubmission.score
  let scoreOk : Bool := score.any fun s => mathRound (s * 100) = mathRound (expectedScore * 100)
  let auditHidden : Bool := act.any fun a => a.status = "audit_pending"
  { mssv := sub.mssv
    ordinal := sub.question
    label := sub.label
    expectedScore
    actualScore := score
    scoreOk
    auditHidden
    missedErrors := missed
    extraErrors := found.filter fun k => k ∉ required ∧ k ∉ optional
    refuted := (errors.filter fun e => e.counted = "refuted").map FoundError.ruleKey
    expectedDecision := sub.expect.decision
    actualDecision
    decisionOk := actualDecision = sub.expect.decision.toDecision
    wrongAuto := actualDecision = .auto ∧
      (sub.expect.decision = .review ∨ (auditHidden = false ∧ scoreOk = false))
    falseFlags := suspected.filter fun l => l ∉ allowedFlags
    missedFlags := expectedFlags.filter fun l => l ∉ suspected
    lensFailures := (caseNotes.filter fun n => notConcluded n.note).map CaseNote.lens ++
      (((act.map ActualSubmission.verdicts).getD []).filter fun v => v.status = "unverified").map
        fun v => v.lens ++ ":" ++ v.ruleKey
    finishedAtSec := act.bind ActualSubmission.finishedAtSec }

/-! ## The summary -/

structure Figures where
  caught : Nat
  expected : Nat
deriving DecidableEq, Repr

structure RunSummary where
  recallByRule : OrderedMap String Figures
  visibleSubmissions : Nat
  submissions : Nat
  missingTotal : Nat
  missingOk : Nat
  unitsWithoutResult : Nat
  scoreOk : Nat
  auditHidden : Nat
  decisionOk : Nat
  autoApproved : Nat
  expectedAuto : Nat
  wrongAuto : Nat
  errorsExpected : Nat
  errorsCaught : Int
  extraErrors : Nat
  falseFlags : Nat
  missedFlags : Nat
  lensFailures : Nat
  maxSubmissionSec : Option ℚ
  models : List String

/-- The names that every object of the script has: an object that is used as a
table never gets an entry of its own under one of them by `??=`. -/
def inheritedNames : List String :=
  ["constructor", "__defineGetter__", "__defineSetter__", "hasOwnProperty", "__lookupGetter__",
    "__lookupSetter__", "isPrototypeOf", "propertyIsEnumerable", "toString", "valueOf", "__proto__",
    "toLocaleString"]

/-- One expected error of a check goes into the figures of its rule. -/
def tally (c : SubmissionCheck) (m : OrderedMap String Figures) (key : String) :
    OrderedMap String Figures :=
  if key ∈ inheritedNames then m
  else
    let r := (m.get? key).getD ⟨0, 0⟩
    m.set key ⟨if key ∈ c.missedErrors then r.caught else r.caught + 1, r.expected + 1⟩

section Run

variable (scenario : RehearsalScenario) (actuals : List ActualSubmission)

def byUnit : OrderedMap String ActualSubmission :=
  OrderedMap.ofList (actuals.map fun a => (unitKey a.mssv (a.ordinal.getD 1), a))

/-- `byUnit.get(unitKey(s.mssv, s.ordinal ?? 1))`. -/
def resultOf (s : ScenarioSubmission) : Option ActualSubmission :=
  (byUnit actuals).get? (unitKey s.mssv s.question)

def hasResult (s : ScenarioSubmission) : Bool := (resultOf actuals s).isSome

def submitted : List ScenarioSubmission := scenario.submissions.filter fun s => !s.missing

def checkedPapers : List ScenarioSubmission := (submitted scenario).filter (hasResult actuals)

def checks : List SubmissionCheck :=
  (checkedPapers scenario actuals).map fun s => checkOne scenario s (resultOf actuals s)

/-- `scenario.submissions.find((s) => s.mssv === c.mssv)!.expect.errors`. -/
def errorsOfStudent (mssv : String) : List String :=
  ((scenario.submissions.find? fun s => s.mssv = mssv).map fun s => s.expect.errors).getD []

def expectedErrors (c : SubmissionCheck) : Nat :=
  let expectedOf := OrderedMap.ofList
    (scenario.submissions.map fun s => (unitKey s.mssv s.question, s))
  ((expectedOf.get? (unitKey c.mssv c.ordinal)).map fun s => s.expect.errors.length).getD 0

def recallByRule (visible : List SubmissionCheck) : OrderedMap String Figures :=
  visible.foldl (fun m c => (errorsOfStudent scenario c.mssv).foldl (tally c) m) OrderedMap.empty

/-- `evaluateRun`: the summary. -/
def evaluateRun : RunSummary :=
  let missing := scenario.submissions.filter ScenarioSubmission.missing
  let checks := checks scenario actuals
  let visible := checks.filter fun c => !c.auditHidden
  let times := checks.filterMap SubmissionCheck.finishedAtSec
  let sum (f : SubmissionCheck → Nat) := (checks.map f).sum
  { recallByRule := recallByRule scenario visible
    visibleSubmissions := visible.length
    submissions := checks.length
    missingTotal := missing.length
    missingOk := (missing.filter fun s => !hasResult actuals s).length
    unitsWithoutResult := ((submitted scenario).filter fun s => !hasResult actuals s).length
    scoreOk := checks.countP SubmissionCheck.scoreOk
    auditHidden := checks.countP SubmissionCheck.auditHidden
    decisionOk := checks.countP SubmissionCheck.decisionOk
    autoApproved := checks.countP fun c => c.actualDecision = .auto
    expectedAuto := checks.countP fun c => c.expectedDecision = .auto
    wrongAuto := checks.countP SubmissionCheck.wrongAuto
    errorsExpected := sum (expectedErrors scenario)
    errorsCaught :=
      (checks.map fun c => (expectedErrors scenario c : Int) - c.missedErrors.length).sum
    extraErrors := sum fun c => c.extraErrors.length
    falseFlags := sum fun c => c.falseFlags.length
    missedFlags := sum fun c => c.missedFlags.length
    lensFailures := sum fun c => c.lensFailures.length
    maxSubmissionSec := times.max?
    models := sortStrings ((checks.filterMap fun c =>
      (((byUnit actuals).get? (unitKey c.mssv c.ordinal)).bind ActualSubmission.model).filter
        (· ≠ "")).eraseDups) }

end Run

/-! ## What the figures add up to -/

/-- The sum of one figure over all rules. -/
def total (f : Figures → Nat) (m : OrderedMap String Figures) : Nat := (m.values.map f).sum

theorem total_tally {f : Figures → Nat} {c : SubmissionCheck} {key : String} {more : Nat}
    (hzero : f ⟨0, 0⟩ = 0)
    (hf : ∀ r : Figures,
      f ⟨if key ∈ c.missedErrors then r.caught else r.caught + 1, r.expected + 1⟩ = f r + more)
    (hkey : key ∉ inheritedNames) (m : OrderedMap String Figures) :
    total f (tally c m key) = total f m + more := by
  have hold : ((m.get? key).map f).getD 0 = f ((m.get? key).getD ⟨0, 0⟩) := by
    cases m.get? key with
    | none => exact hzero.symm
    | some r => rfl
  have hset := m.sum_values_set key
    ⟨if key ∈ c.missedErrors then ((m.get? key).getD ⟨0, 0⟩).caught
      else ((m.get? key).getD ⟨0, 0⟩).caught + 1, ((m.get? key).getD ⟨0, 0⟩).expected + 1⟩ f
  rw [hf, hold] at hset
  unfold total tally
  rw [if_neg hkey]
  dsimp only
  omega

theorem total_expected (c : SubmissionCheck) (keys : List String)
    (m : OrderedMap String Figures) :
    total Figures.expected (keys.foldl (tally c) m) =
      total Figures.expected m + keys.countP (· ∉ inheritedNames) := by
  induction keys generalizing m with
  | nil => rfl
  | cons key keys ih =>
    rw [List.foldl_cons, ih]
    by_cases hkey : key ∈ inheritedNames
    · rw [tally, if_pos hkey, List.countP_cons_of_neg (by simpa using hkey)]
    · rw [total_tally rfl (fun _ => rfl) hkey, List.countP_cons_of_pos (by simpa using hkey)]
      omega

theorem total_caught (c : SubmissionCheck) (keys : List String)
    (m : OrderedMap String Figures) :
    total Figures.caught (keys.foldl (tally c) m) =
      total Figures.caught m +
        keys.countP fun k => k ∉ inheritedNames ∧ k ∉ c.missedErrors := by
  induction keys generalizing m with
  | nil => rfl
  | cons key keys ih =>
    rw [List.foldl_cons, ih]
    by_cases hkey : key ∈ inheritedNames
    · rw [tally, if_pos hkey, List.countP_cons_of_neg (by simp [hkey])]
    · by_cases hmissed : key ∈ c.missedErrors
      · rw [@total_tally Figures.caught c key 0 rfl (fun _ => if_pos hmissed) hkey,
          List.countP_cons_of_neg (by simp [hmissed])]
        rfl
      · rw [@total_tally Figures.caught c key 1 rfl (fun _ => if_neg hmissed) hkey,
          List.countP_cons_of_pos (by simp [hkey, hmissed])]
        omega

theorem sumOf_recallByRule (scenario : RehearsalScenario) (visible : List SubmissionCheck) :
    total Figures.expected (recallByRule scenario visible) =
        (visible.map fun c =>
          (errorsOfStudent scenario c.mssv).countP (· ∉ inheritedNames)).sum ∧
      total Figures.caught (recallByRule scenario visible) =
        (visible.map fun c => (errorsOfStudent scenario c.mssv).countP fun k =>
          k ∉ inheritedNames ∧ k ∉ c.missedErrors).sum := by
  induction visible using List.reverseRecOn with
  | nil => exact ⟨rfl, rfl⟩
  | append_singleton visible c ih =>
    unfold recallByRule at ih ⊢
    rw [List.foldl_append, List.foldl_cons, List.foldl_nil, total_expected, total_caught, ih.1,
      ih.2, List.map_append, List.map_append, List.sum_append, List.sum_append]
    exact ⟨rfl, rfl⟩

/-! ## Counting -/

theorem sum_eq_sum_iff {α : Type*} {l : List α} {f g : α → Nat} (hle : ∀ a ∈ l, f a ≤ g a) :
    (l.map f).sum = (l.map g).sum ↔ ∀ a ∈ l, f a = g a := by
  induction l with
  | nil => exact iff_of_true rfl fun a ha => absurd ha List.not_mem_nil
  | cons a l ih =>
    obtain ⟨hhead, htail⟩ := List.forall_mem_cons.1 hle
    have hsum : (l.map f).sum ≤ (l.map g).sum := List.sum_le_sum htail
    rw [List.map_cons, List.map_cons, List.sum_cons, List.sum_cons, List.forall_mem_cons,
      ← ih htail]
    constructor
    · intro h
      omega
    · intro h
      omega

theorem length_le_countP {errors missed : List String} (hnd : missed.Nodup)
    (hsub : missed ⊆ errors) :
    missed.length ≤ errors.countP (· ∈ missed) ∧
      (missed.length = errors.countP (· ∈ missed) ↔ ∀ k ∈ missed, errors.count k = 1) := by
  have hsubperm : missed.Subperm (errors.filter (· ∈ missed)) :=
    List.subperm_of_subset hnd fun k hk =>
      List.mem_filter.2 ⟨hsub hk, decide_eq_true hk⟩
  have hcount : ∀ k ∈ missed, (errors.filter (· ∈ missed)).count k = errors.count k :=
    fun k hk => List.count_filter (decide_eq_true hk)
  rw [List.countP_eq_length_filter]
  refine ⟨hsubperm.length_le, ?_, ?_⟩
  · intro hlength k hk
    have hperm := hsubperm.perm_of_length_le hlength.ge
    rw [← hcount k hk, ← hperm.count_eq, List.count_eq_one_of_mem hnd hk]
  · intro hone
    refine Nat.le_antisymm hsubperm.length_le (List.Subperm.length_le ?_)
    apply List.subperm_of_subset
    · rw [List.nodup_iff_count_le_one]
      intro k
      by_cases hk : k ∈ missed
      · rw [hcount k hk, hone k hk]
      · rw [List.count_eq_zero_of_not_mem]
        · exact Nat.zero_le 1
        · intro hmem
          exact hk (of_decide_eq_true (List.mem_filter.1 hmem).2)
    · intro k hk
      exact of_decide_eq_true (List.mem_filter.1 hk).2

/-! ## The report -/

section Report

variable (scenario : RehearsalScenario) (actuals : List ActualSubmission)

/-- The errors of the result of a paper. -/
def errorsFound (s : ScenarioSubmission) : List String :=
  foundErrors (((resultOf actuals s).map ActualSubmission.errors).getD [])

/-- The papers whose score the run shows. -/
def visiblePapers : List ScenarioSubmission :=
  (checkedPapers scenario actuals).filter fun s =>
    !(resultOf actuals s).any fun a => a.status = "audit_pending"

def withoutResult : List ScenarioSubmission :=
  (submitted scenario).filter fun s => !hasResult actuals s

/-- Approved by the machine, and review was expected or the score that is shown is wrong. -/
def WronglyApproved (s : ScenarioSubmission) : Prop :=
  ∃ a, resultOf actuals s = some a ∧ (a.status = "auto_approved" ∨ a.status = "audit_pending") ∧
    (s.expect.decision = .review ∨ a.status ≠ "audit_pending" ∧
      ¬∃ x, a.score = some x ∧
        mathRound (x * 100) = mathRound ((checkOne scenario s (some a)).expectedScore * 100))

structure AddsUp : Prop where
  /-- Every visible paper counts under its own errors. -/
  own : ∀ s ∈ visiblePapers scenario actuals,
    (errorsOfStudent scenario s.mssv).Perm s.expect.errors
  expected : total Figures.expected (evaluateRun scenario actuals).recallByRule =
    ((visiblePapers scenario actuals).map fun s => s.expect.errors.length).sum
  caught : total Figures.caught (evaluateRun scenario actuals).recallByRule +
      (((checks scenario actuals).filter fun c => !c.auditHidden).map fun c =>
        c.missedErrors.length).sum =
    ((visiblePapers scenario actuals).map fun s => s.expect.errors.length).sum
  /-- Every submitted paper is checked or counted as one with no result. -/
  papers : ((checks scenario actuals).map (fun c => (c.mssv, c.ordinal)) ++
      (withoutResult scenario actuals).map fun s => (s.mssv, s.question)).Perm
    ((submitted scenario).map fun s => (s.mssv, s.question))
  counts : (evaluateRun scenario actuals).submissions = (checks scenario actuals).length ∧
    (evaluateRun scenario actuals).unitsWithoutResult = (withoutResult scenario actuals).length
  wrongAuto : ∀ s ∈ checkedPapers scenario actuals,
    (checkOne scenario s (resultOf actuals s)).wrongAuto = true ↔
      WronglyApproved scenario actuals s
  wrongAutos : (evaluateRun scenario actuals).wrongAuto =
    (checkedPapers scenario actuals).countP fun s =>
      (checkOne scenario s (resultOf actuals s)).wrongAuto

/-- The first paper of the student expects the same errors as this one, none of
them has the name of something every object has, and none that the result does
not have is listed twice. -/
def Countable (s : ScenarioSubmission) : Prop :=
  (errorsOfStudent scenario s.mssv).Perm s.expect.errors ∧
    (∀ k ∈ s.expect.errors, k ∉ inheritedNames) ∧
    ∀ k ∈ s.expect.errors, k ∉ errorsFound actuals s → s.expect.errors.count k = 1

variable {scenario actuals}

theorem visible_checks :
    ((checks scenario actuals).filter fun c => !c.auditHidden) =
      (visiblePapers scenario actuals).map fun s => checkOne scenario s (resultOf actuals s) := by
  unfold checks visiblePapers
  rw [List.filter_map]
  rfl

theorem missedErrors_eq (s : ScenarioSubmission) :
    (checkOne scenario s (resultOf actuals s)).missedErrors =
      s.expect.errors.eraseDups.filter fun k => k ∉ errorsFound actuals s := rfl

theorem mem_missedErrors {s : ScenarioSubmission} {k : String} :
    k ∈ (checkOne scenario s (resultOf actuals s)).missedErrors ↔
      k ∈ s.expect.errors ∧ k ∉ errorsFound actuals s := by
  rw [missedErrors_eq, List.mem_filter, List.mem_eraseDups, decide_eq_true_eq]

theorem papers_perm :
    ((checks scenario actuals).map (fun c => (c.mssv, c.ordinal)) ++
      (withoutResult scenario actuals).map fun s => (s.mssv, s.question)).Perm
    ((submitted scenario).map fun s => (s.mssv, s.question)) := by
  have hchecks : (checks scenario actuals).map (fun c => (c.mssv, c.ordinal)) =
      (checkedPapers scenario actuals).map fun s => (s.mssv, s.question) := by
    unfold checks
    rw [List.map_map]
    rfl
  rw [hchecks, ← List.map_append]
  exact (List.filter_append_perm (hasResult actuals) (submitted scenario)).map _

theorem decisionOf_eq_auto {status : String} :
    decisionOf status = .auto ↔ status = "auto_approved" ∨ status = "audit_pending" := by
  unfold decisionOf
  split_ifs with happroved hflagged hungradable hpending
  · exact iff_of_true rfl (Or.inl happroved)
  · rw [hflagged]
    decide
  · rw [hungradable]
    decide
  · exact iff_of_true rfl (Or.inr hpending)
  · exact iff_of_false (by decide) (not_or.2 ⟨happroved, hpending⟩)

theorem wrongAuto_iff {s : ScenarioSubmission} (h : s ∈ checkedPapers scenario actuals) :
    (checkOne scenario s (resultOf actuals s)).wrongAuto = true ↔
      WronglyApproved scenario actuals s := by
  have hsome : (resultOf actuals s).isSome = true := (List.mem_filter.1 h).2
  obtain ⟨a, ha⟩ := Option.isSome_iff_exists.1 hsome
  have hscore : (checkOne scenario s (some a)).scoreOk = false ↔
      ¬∃ x, a.score = some x ∧
        mathRound (x * 100) = mathRound ((checkOne scenario s (some a)).expectedScore * 100) := by
    show (a.score.any fun x => mathRound (x * 100) = _) = false ↔ _
    cases a.score with
    | none => simp
    | some x => simp [checkOne]
  have hhidden : (checkOne scenario s (some a)).auditHidden = false ↔
      a.status ≠ "audit_pending" := decide_eq_false_iff_not
  have hwrong : (checkOne scenario s (some a)).wrongAuto = true ↔
      decisionOf a.status = .auto ∧ (s.expect.decision = .review ∨
        ((checkOne scenario s (some a)).auditHidden = false ∧
          (checkOne scenario s (some a)).scoreOk = false)) := decide_eq_true_iff
  unfold WronglyApproved
  rw [ha, hwrong, decisionOf_eq_auto, hhidden, hscore]
  constructor
  · intro h
    exact ⟨a, rfl, h⟩
  · intro h
    obtain ⟨b, hb, h⟩ := h
    cases hb
    exact h

theorem total_expected_run :
    total Figures.expected (evaluateRun scenario actuals).recallByRule =
      ((visiblePapers scenario actuals).map fun s =>
        (errorsOfStudent scenario s.mssv).countP (· ∉ inheritedNames)).sum := by
  show total Figures.expected (recallByRule scenario (List.filter _ (checks scenario actuals))) = _
  rw [visible_checks, (sumOf_recallByRule scenario _).1, List.map_map]
  rfl

theorem total_caught_run :
    total Figures.caught (evaluateRun scenario actuals).recallByRule =
      ((visiblePapers scenario actuals).map fun s =>
        (errorsOfStudent scenario s.mssv).countP fun k => k ∉ inheritedNames ∧
          k ∉ (checkOne scenario s (resultOf actuals s)).missedErrors).sum := by
  show total Figures.caught (recallByRule scenario (List.filter _ (checks scenario actuals))) = _
  rw [visible_checks, (sumOf_recallByRule scenario _).2, List.map_map]
  rfl

theorem expected_iff
    (hown : ∀ s ∈ visiblePapers scenario actuals,
      (errorsOfStudent scenario s.mssv).Perm s.expect.errors) :
    total Figures.expected (evaluateRun scenario actuals).recallByRule =
        ((visiblePapers scenario actuals).map fun s => s.expect.errors.length).sum ↔
      ∀ s ∈ visiblePapers scenario actuals, ∀ k ∈ s.expect.errors, k ∉ inheritedNames := by
  have hle : ∀ s ∈ visiblePapers scenario actuals,
      (errorsOfStudent scenario s.mssv).countP (· ∉ inheritedNames) ≤ s.expect.errors.length := by
    intro s hs
    rw [(hown s hs).countP_eq]
    exact List.countP_le_length
  rw [total_expected_run, sum_eq_sum_iff hle]
  refine forall_congr' fun s => imp_congr_right fun hs => ?_
  rw [(hown s hs).countP_eq, List.countP_eq_length]
  simp only [decide_eq_true_eq]

theorem caught_iff
    (hown : ∀ s ∈ visiblePapers scenario actuals,
      (errorsOfStudent scenario s.mssv).Perm s.expect.errors)
    (hnames : ∀ s ∈ visiblePapers scenario actuals, ∀ k ∈ s.expect.errors, k ∉ inheritedNames) :
    total Figures.caught (evaluateRun scenario actuals).recallByRule +
          (((checks scenario actuals).filter fun c => !c.auditHidden).map fun c =>
            c.missedErrors.length).sum =
        ((visiblePapers scenario actuals).map fun s => s.expect.errors.length).sum ↔
      ∀ s ∈ visiblePapers scenario actuals, ∀ k ∈ s.expect.errors,
        k ∉ errorsFound actuals s → s.expect.errors.count k = 1 := by
  let missed (s : ScenarioSubmission) := (checkOne scenario s (resultOf actuals s)).missedErrors
  have hsplit : ∀ s ∈ visiblePapers scenario actuals,
      (errorsOfStudent scenario s.mssv).countP (fun k => k ∉ inheritedNames ∧ k ∉ missed s) +
        s.expect.errors.countP (· ∈ missed s) = s.expect.errors.length := by
    intro s hs
    have hcongr : s.expect.errors.countP (fun k => k ∉ inheritedNames ∧ k ∉ missed s) =
        s.expect.errors.countP fun k => decide ¬decide (k ∈ missed s) = true := by
      apply List.countP_congr
      intro k hk
      simp [hnames s hs k hk]
    rw [(hown s hs).countP_eq, hcongr, Nat.add_comm]
    exact (List.length_eq_countP_add_countP fun k => decide (k ∈ missed s)).symm
  have hnd : ∀ s, (missed s).Nodup := fun s => (nodup_eraseDups _).filter _
  have hsub : ∀ s, missed s ⊆ s.expect.errors := fun s k hk => (mem_missedErrors.1 hk).1
  have hle : ∀ s ∈ visiblePapers scenario actuals,
      (errorsOfStudent scenario s.mssv).countP (fun k => k ∉ inheritedNames ∧ k ∉ missed s) +
        (missed s).length ≤ s.expect.errors.length := by
    intro s hs
    rw [← hsplit s hs]
    exact Nat.add_le_add_left (length_le_countP (hnd s) (hsub s)).1 _
  rw [total_caught_run, visible_checks, List.map_map, ← List.sum_map_add]
  refine (sum_eq_sum_iff hle).trans ?_
  refine forall_congr' fun s => imp_congr_right fun hs => ?_
  have hcount := (length_le_countP (hnd s) (hsub s)).2
  rw [← hsplit s hs, Nat.add_left_cancel_iff]
  refine hcount.trans ?_
  constructor
  · intro h k hk hmissing
    exact h k (mem_missedErrors.2 ⟨hk, hmissing⟩)
  · intro h k hk
    obtain ⟨hk, hmissing⟩ := mem_missedErrors.1 hk
    exact h k hk hmissing

/-- The report adds up exactly when every visible paper can be counted through
its student. -/
theorem adds_up_iff (scenario : RehearsalScenario) (actuals : List ActualSubmission) :
    AddsUp scenario actuals ↔
      ∀ s ∈ visiblePapers scenario actuals, Countable scenario actuals s := by
  constructor
  · intro h
    have hnames := (expected_iff h.own).1 h.expected
    have hcaught := (caught_iff h.own hnames).1 h.caught
    exact fun s hs => ⟨h.own s hs, hnames s hs, hcaught s hs⟩
  · intro h
    have hown := fun s hs => (h s hs).1
    have hnames := fun s hs => (h s hs).2.1
    exact
      { own := hown
        expected := (expected_iff hown).2 hnames
        caught := (caught_iff hown hnames).2 fun s hs => (h s hs).2.2
        papers := papers_perm
        counts := ⟨rfl, rfl⟩
        wrongAuto := fun s hs => wrongAuto_iff hs
        wrongAutos := by
          show (checks scenario actuals).countP SubmissionCheck.wrongAuto = _
          unfold checks
          rw [List.countP_map]
          rfl }

end Report

/-! ## A student with two questions -/

/-- One student, two questions, and an error in the second one only. -/
def twoQuestions : RehearsalScenario where
  criteria := [⟨"dung_dan", 10⟩]
  rules := [⟨"sai_ca_bien", "dung_dan", true, 300⟩]
  submissions :=
    [⟨"HS1", "clean", ⟨[], [], .auto, [], []⟩, some 1, false⟩,
     ⟨"HS1", "wrong", ⟨["sai_ca_bien"], [], .auto, [], []⟩, some 2, false⟩]
  papers := by decide

def secondResult : ActualSubmission where
  mssv := "HS1"
  ordinal := some 2
  status := "auto_approved"
  score := some 7
  model := none
  errors := [⟨"sai_ca_bien", "counted"⟩]
  verdicts := []
  caseNotes := []
  finishedAtSec := some 60

/-- The error of the second question is in no figure. -/
theorem secondQuestion_lost : ¬ AddsUp twoQuestions [secondResult] := by
  intro h
  have hexpected := h.expected
  revert hexpected
  decide +kernel

end Cine.Eval.Rehearsal
