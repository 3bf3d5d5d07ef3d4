import Cine.Grading.Decision.Types
import Cine.Lib.OrderedMap

/-!
# Deduction scoring

`grading/scoring/deduction-score.ts`.  The score is the maximum minus, for
every criterion, the smaller of its maximum and what its rules deduct.  A
diagnosed key without a rule, or one whose rule points outside the rubric,
is refused with the source's message.

The loop over the diagnosed keys is `chargeAll`.  The table of the rules is
read only at the diagnosed keys, so `computeDeductionScore_congr` lets two
tables that agree there be exchanged, and `computeDeductionScore_isOk` says
when there is a score at all.
-/

namespace Cine.Grading

open Cine.Lib

/-- A rule, as far as the score needs it. -/
structure ScoringRule where
  ruleKey : String
  criterionKey : String
  deductionHundredths : Option Int
deriving DecidableEq, Repr

structure CriterionScore where
  key : String
  maxHundredths : Int
  deductedHundredths : Int
  capped : Bool
deriving DecidableEq, Repr

structure DeductionScore where
  scoreHundredths : Int
  maxHundredths : Int
  perCriterion : List CriterionScore
  unpricedRuleKeys : List String
deriving DecidableEq, Repr

/-- The state of the loop over the diagnosed keys. -/
structure Charges where
  deducted : OrderedMap String Int
  unpriced : List String

/-- The loop body for one diagnosed key. -/
def chargeOne (criteria : List RubricCriterion) (byRule : OrderedMap String ScoringRule)
    (c : Charges) (key : String) : Except String Charges :=
  match byRule.get? key with
  | none => .error s!"luật \"{key}\" không có trong bảng lỗi"
  | some rule =>
    if rule.criterionKey ∉ criteria.map RubricCriterion.key then
      .error
        s!"luật \"{key}\" trỏ tới tiêu chí \"{rule.criterionKey}\" không có trong rubric"
    else
      match rule.deductionHundredths with
      | none => .ok { c with unpriced := c.unpriced ++ [key] }
      | some d =>
        .ok
          { c with
            deducted := c.deducted.set rule.criterionKey
              ((c.deducted.get? rule.criterionKey).getD 0 + d) }

/-- The loop over the diagnosed keys. -/
def chargeAll (criteria : List RubricCriterion) (byRule : OrderedMap String ScoringRule) :
    List String → Charges → Except String Charges
  | [], c => .ok c
  | key :: keys, c =>
    match chargeOne criteria byRule c key with
    | .error e => .error e
    | .ok c' => chargeAll criteria byRule keys c'

/-- The line of one criterion, from what was deducted. -/
def criterionScore (deducted : OrderedMap String Int) (c : RubricCriterion) : CriterionScore :=
  let raw := (deducted.get? c.key).getD 0
  { key := c.key
    maxHundredths := c.maxHundredths
    deductedHundredths := min raw c.maxHundredths
    capped := decide (raw > c.maxHundredths) }

def scoreOfCharges (criteria : List RubricCriterion) (c : Charges) : DeductionScore :=
  let maxHundredths := (criteria.map RubricCriterion.maxHundredths).sum
  let perCriterion := criteria.map (criterionScore c.deducted)
  { scoreHundredths :=
      max 0 (maxHundredths - (perCriterion.map CriterionScore.deductedHundredths).sum)
    maxHundredths := maxHundredths
    perCriterion := perCriterion
    unpricedRuleKeys := c.unpriced }

/-- `byRule`: the last rule of a key wins. -/
def scoringTable (rules : List ScoringRule) : OrderedMap String ScoringRule :=
  .ofList (rules.map fun r => (r.ruleKey, r))

/-- The score of the diagnosed keys. -/
def computeDeductionScore (criteria : List RubricCriterion) (rules : List ScoringRule)
    (diagnosedRuleKeys : List String) : Except String DeductionScore :=
  (chargeAll criteria (scoringTable rules) diagnosedRuleKeys.eraseDups
    ⟨.ofList (criteria.map fun c => (c.key, 0)), []⟩).map (scoreOfCharges criteria)

/-! ## What the loop reads -/

variable {criteria : List RubricCriterion} {keys : List String} {rules : List ScoringRule}

theorem chargeAll_congr {byRule byRule' : OrderedMap String ScoringRule}
    (h : ∀ k ∈ keys, byRule.get? k = byRule'.get? k) (c : Charges) :
    chargeAll criteria byRule keys c = chargeAll criteria byRule' keys c := by
  induction keys generalizing c with
  | nil => rfl
  | cons k keys ih =>
    have hk : chargeOne criteria byRule c k = chargeOne criteria byRule' c k := by
      rw [chargeOne, chargeOne, h k List.mem_cons_self]
    rw [chargeAll, chargeAll, hk]
    cases chargeOne criteria byRule' c k with
    | error e => rfl
    | ok c' => exact ih (fun k' hk' => h k' (List.mem_cons_of_mem _ hk')) c'

theorem computeDeductionScore_congr {rules' : List ScoringRule}
    (h : ∀ k ∈ keys, (scoringTable rules).get? k = (scoringTable rules').get? k) :
    computeDeductionScore criteria rules keys = computeDeductionScore criteria rules' keys := by
  rw [computeDeductionScore, computeDeductionScore, chargeAll_congr]
  intro k hk
  exact h k (List.mem_eraseDups.1 hk)

/-- A key can be charged when it has a rule on a criterion of the rubric. -/
def Chargeable (criteria : List RubricCriterion) (byRule : OrderedMap String ScoringRule)
    (key : String) : Prop :=
  ∃ rule, byRule.get? key = some rule ∧ rule.criterionKey ∈ criteria.map RubricCriterion.key

/-- The key has a rule without a price. -/
def Unpriced (byRule : OrderedMap String ScoringRule) (key : String) : Bool :=
  (byRule.get? key).any (·.deductionHundredths.isNone)

theorem chargeOne_cases (criteria : List RubricCriterion) (byRule : OrderedMap String ScoringRule)
    (c : Charges) (key : String) :
    (¬ Chargeable criteria byRule key ∧ ∃ e, chargeOne criteria byRule c key = .error e) ∨
      (Chargeable criteria byRule key ∧ ∃ c', chargeOne criteria byRule c key = .ok c' ∧
        c'.unpriced = c.unpriced ++ if Unpriced byRule key then [key] else []) := by
  rw [chargeOne]
  cases hr : byRule.get? key with
  | none => exact Or.inl ⟨fun ⟨_, h, _⟩ => by simp [hr] at h, _, rfl⟩
  | some rule =>
    by_cases hc : rule.criterionKey ∈ criteria.map RubricCriterion.key
    · refine Or.inr ⟨⟨rule, hr, hc⟩, ?_⟩
      simp only [hc, not_true_eq_false, if_false]
      cases hd : rule.deductionHundredths with
      | none => exact ⟨_, rfl, by simp [Unpriced, hr, hd]⟩
      | some d => exact ⟨_, rfl, by simp [Unpriced, hr, hd]⟩
    · refine Or.inl ⟨?_, _, if_pos hc⟩
      rintro ⟨rule', h, hc'⟩
      rw [hr, Option.some.injEq] at h
      exact hc (h ▸ hc')

theorem chargeAll_cases (criteria : List RubricCriterion) (byRule : OrderedMap String ScoringRule)
    (keys : List String) (c : Charges) :
    ((∃ k ∈ keys, ¬ Chargeable criteria byRule k) ∧
        ∃ e, chargeAll criteria byRule keys c = .error e) ∨
      ((∀ k ∈ keys, Chargeable criteria byRule k) ∧
        ∃ c', chargeAll criteria byRule keys c = .ok c' ∧
          c'.unpriced = c.unpriced ++ keys.filter (Unpriced byRule)) := by
  induction keys generalizing c with
  | nil => exact Or.inr ⟨by simp, c, rfl, by simp⟩
  | cons k keys ih =>
    rw [chargeAll]
    rcases chargeOne_cases criteria byRule c k with ⟨hk, e, he⟩ | ⟨hk, c₁, h₁, hu₁⟩
    · rw [he]
      exact Or.inl ⟨⟨k, List.mem_cons_self, hk⟩, e, rfl⟩
    · rw [h₁]
      rcases ih c₁ with ⟨⟨k', hk', hn⟩, e, he⟩ | ⟨hall, c₂, h₂, hu₂⟩
      · exact Or.inl ⟨⟨k', List.mem_cons_of_mem _ hk', hn⟩, e, he⟩
      · refine Or.inr ⟨List.forall_mem_cons.2 ⟨hk, hall⟩, c₂, h₂, ?_⟩
        rw [hu₂, hu₁, List.append_assoc]
        by_cases hp : Unpriced byRule k
        · simp [hp]
        · simp [hp]

theorem computeDeductionScore_isOk :
    (∃ s, computeDeductionScore criteria rules keys = .ok s) ↔
      ∀ k ∈ keys, Chargeable criteria (scoringTable rules) k := by
  rw [computeDeductionScore]
  rcases chargeAll_cases criteria (scoringTable rules) keys.eraseDups
      ⟨.ofList (criteria.map fun c => (c.key, 0)), []⟩ with ⟨⟨k, hk, hn⟩, e, he⟩ | ⟨hall, c, hc, _⟩
  · rw [he]
    refine ⟨fun ⟨_, h⟩ => by simp [Except.map] at h, fun h => absurd (h k ?_) hn⟩
    exact List.mem_eraseDups.1 hk
  · rw [hc]
    exact ⟨fun _ k hk => hall k (List.mem_eraseDups.2 hk), fun _ => ⟨_, rfl⟩⟩

theorem computeDeductionScore_unpriced {s : DeductionScore}
    (h : computeDeductionScore criteria rules keys = .ok s) :
    s.unpricedRuleKeys = keys.eraseDups.filter (Unpriced (scoringTable rules)) := by
  rw [computeDeductionScore] at h
  rcases chargeAll_cases criteria (scoringTable rules) keys.eraseDups
      ⟨.ofList (criteria.map fun c => (c.key, 0)), []⟩ with ⟨_, e, he⟩ | ⟨_, c, hc, hu⟩
  · rw [he] at h
    simp [Except.map] at h
  · rw [hc, Except.map, Except.ok.injEq] at h
    rw [← h, scoreOfCharges, hu, List.nil_append]

end Cine.Grading
