import Cine.Grading.Decision.Restrict

/-!
# The deduction score is exact, bounded and monotone

The loop of `computeDeductionScore` and its clamp come down to one formula:
the sum of the maxima minus, for every criterion, the smaller of its maximum
and `chargesOf`, the prices of the distinct diagnosed rules on it.

* `perCriterion_eq` reads the line of every criterion off the charges, and
  `clamp_idle` says that the outer clamp never bites.
* `chargesOf_congr`, `chargesOf_raise` and `chargesOf_drop_unpriced` compare
  the charges of two calls: the same keys in another order or number, higher
  prices, and the same keys without one that has no price.
* The table that the score is computed on has prices from zero up and
  maxima above zero; the database checks both.  Only the upper bound and the
  growth with the keys need it.
-/

namespace Cine.Grading

open Cine.Lib

section Exact

variable {criteria : List RubricCriterion} {rules rules' : List ScoringRule}
  {keys keys' : List String} {s s' : DeductionScore}

/-! ## The lines and the total -/

theorem perCriterion_eq (hs : computeDeductionScore criteria rules keys = .ok s) :
    s.perCriterion = criteria.map fun c =>
      { key := c.key
        maxHundredths := c.maxHundredths
        deductedHundredths := min (chargesOf rules keys c.key) c.maxHundredths
        capped := decide (chargesOf rules keys c.key > c.maxHundredths) } := by
  rw [computeDeductionScore] at hs
  cases hc : chargeAll criteria (scoringTable rules) keys.eraseDups
      ⟨.ofList (criteria.map fun c => (c.key, 0)), []⟩ with
  | error e =>
    rw [hc] at hs
    cases hs
  | ok c =>
    rw [hc] at hs
    cases hs
    show criteria.map (criterionScore c.deducted) = _
    refine List.map_congr_left fun criterion _ => ?_
    have hraw : (c.deducted.get? criterion.key).getD 0 = chargesOf rules keys criterion.key := by
      rw [chargeAll_deducted hc, get?_zeroes, zero_add]
      rfl
    rw [criterionScore, hraw]

theorem lost_le_max (criteria : List RubricCriterion) (charges : String → Int) :
    (criteria.map fun c => min (charges c.key) c.maxHundredths).sum ≤
      (criteria.map RubricCriterion.maxHundredths).sum :=
  List.sum_le_sum fun _ _ => min_le_right _ _

theorem clamp_idle (hs : computeDeductionScore criteria rules keys = .ok s) :
    s.scoreHundredths = (criteria.map RubricCriterion.maxHundredths).sum -
      (criteria.map fun c => min (chargesOf rules keys c.key) c.maxHundredths).sum := by
  rw [scoreHundredths_eq hs]
  exact max_eq_right (sub_nonneg.2 (lost_le_max criteria _))

theorem chargesOf_nonneg (h : NoNegativePrice rules) (keys : List String) (criterionKey : String) :
    0 ≤ chargesOf rules keys criterionKey := by
  refine List.sum_nonneg fun d hd => ?_
  obtain ⟨k, _, rfl⟩ := List.mem_map.1 hd
  exact chargeOf_nonneg h criterionKey k

theorem score_le_max (hmax : ∀ c ∈ criteria, 0 ≤ c.maxHundredths) (hprice : NoNegativePrice rules)
    (hs : computeDeductionScore criteria rules keys = .ok s) :
    s.scoreHundredths ≤ (criteria.map RubricCriterion.maxHundredths).sum := by
  rw [clamp_idle hs]
  refine sub_le_self _ (List.sum_nonneg fun d hd => ?_)
  obtain ⟨c, hc, rfl⟩ := List.mem_map.1 hd
  exact le_min (chargesOf_nonneg hprice keys c.key) (hmax c hc)

/-! ## Keys repeated and reordered -/

theorem chargesOf_congr (h : ∀ k, k ∈ keys ↔ k ∈ keys') (criterionKey : String) :
    chargesOf rules keys criterionKey = chargesOf rules keys' criterionKey := by
  have hperm : keys.eraseDups.Perm keys'.eraseDups := by
    rw [List.perm_ext_iff_of_nodup (nodup_eraseDups _) (nodup_eraseDups _)]
    intro k
    rw [List.mem_eraseDups, List.mem_eraseDups, h k]
  exact (hperm.map _).sum_eq

theorem score_congr_keys (h : ∀ k, k ∈ keys ↔ k ∈ keys')
    (hs : computeDeductionScore criteria rules keys = .ok s) :
    ∃ s', computeDeductionScore criteria rules keys' = .ok s' ∧
      s'.scoreHundredths = s.scoreHundredths ∧ s'.perCriterion = s.perCriterion ∧
      s'.unpricedRuleKeys.Perm s.unpricedRuleKeys := by
  have hchargeable := computeDeductionScore_isOk.1 ⟨s, hs⟩
  obtain ⟨s', hs'⟩ : ∃ s', computeDeductionScore criteria rules keys' = .ok s' :=
    computeDeductionScore_isOk.2 fun k hk => hchargeable k ((h k).2 hk)
  refine ⟨s', hs', ?_, ?_, ?_⟩
  · rw [clamp_idle hs, clamp_idle hs']
    simp only [chargesOf_congr h]
  · rw [perCriterion_eq hs, perCriterion_eq hs']
    simp only [chargesOf_congr h]
  · rw [computeDeductionScore_unpriced hs, computeDeductionScore_unpriced hs']
    refine List.Perm.filter _ ?_
    rw [List.perm_ext_iff_of_nodup (nodup_eraseDups _) (nodup_eraseDups _)]
    intro k
    rw [List.mem_eraseDups, List.mem_eraseDups, h k]

/-! ## Raised prices -/

/-- The rule with its price raised; a rule without a price deducts nothing. -/
def PriceRaised (r r' : ScoringRule) : Prop :=
  r'.ruleKey = r.ruleKey ∧ r'.criterionKey = r.criterionKey ∧
    r.deductionHundredths.getD 0 ≤ r'.deductionHundredths.getD 0

/-- The second table is the first one with some prices raised. -/
def PricesRaised (rules rules' : List ScoringRule) : Prop :=
  List.Forall₂ PriceRaised rules rules'

theorem scoringTable_raise (h : PricesRaised rules rules') (key : String) :
    Option.Rel PriceRaised ((scoringTable rules).get? key) ((scoringTable rules').get? key) := by
  unfold scoringTable
  rw [OrderedMap.get?_ofList_keyed, OrderedMap.get?_ofList_keyed]
  have hfilter : List.Forall₂ PriceRaised (rules.filter fun r => r.ruleKey = key)
      (rules'.filter fun r => r.ruleKey = key) := by
    refine List.rel_filter (fun r r' hr => ?_) h
    simp [hr.1]
  -- the last rule of the key wins in both tables
  have hreverse := List.forall₂_reverse_iff.2 hfilter
  rw [List.getLast?_eq_head?_reverse, List.getLast?_eq_head?_reverse]
  generalize (rules.filter _).reverse = l at hreverse ⊢
  generalize (rules'.filter _).reverse = l' at hreverse ⊢
  cases hreverse with
  | nil => exact Option.Rel.none
  | cons hr _ => exact Option.Rel.some hr

theorem chargeOf_raise (h : PricesRaised rules rules') (criterionKey key : String) :
    chargeOf (scoringTable rules) criterionKey key ≤
      chargeOf (scoringTable rules') criterionKey key := by
  have hrule := scoringTable_raise h key
  unfold chargeOf
  generalize (scoringTable rules).get? key = o at hrule ⊢
  generalize (scoringTable rules').get? key = o' at hrule ⊢
  cases hrule with
  | none => exact le_rfl
  | some hr =>
    dsimp only
    rw [hr.2.1]
    split_ifs
    · exact hr.2.2
    · exact le_rfl

theorem score_raise (h : PricesRaised rules rules')
    (hs : computeDeductionScore criteria rules keys = .ok s)
    (hs' : computeDeductionScore criteria rules' keys = .ok s') :
    s'.scoreHundredths ≤ s.scoreHundredths := by
  rw [clamp_idle hs, clamp_idle hs']
  refine sub_le_sub_left (List.sum_le_sum fun c _ => min_le_min ?_ le_rfl) _
  exact List.sum_le_sum fun k _ => chargeOf_raise h c.key k

/-! ## Keys without a price -/

theorem chargeOf_of_unpriced {key : String} (h : Unpriced (scoringTable rules) key = true)
    (criterionKey : String) : chargeOf (scoringTable rules) criterionKey key = 0 := by
  unfold chargeOf
  unfold Unpriced at h
  cases hr : (scoringTable rules).get? key with
  | none => rfl
  | some rule =>
    rw [hr] at h
    have hnone : rule.deductionHundredths = none := by simpa using h
    dsimp only
    rw [hnone]
    split_ifs <;> rfl

theorem chargesOf_drop_unpriced {key : String} (h : Unpriced (scoringTable rules) key = true)
    (criterionKey : String) :
    chargesOf rules (keys.filter (· ≠ key)) criterionKey = chargesOf rules keys criterionKey := by
  by_cases hmem : key ∈ keys
  · have hperm : keys.eraseDups.Perm (key :: (keys.filter (· ≠ key)).eraseDups) := by
      rw [List.perm_ext_iff_of_nodup (nodup_eraseDups _)]
      · intro k
        by_cases hk : k = key
        · simp [hk, hmem]
        · simp [hk]
      · rw [List.nodup_cons]
        exact ⟨by simp, nodup_eraseDups _⟩
    unfold chargesOf
    rw [(hperm.map _).sum_eq, List.map_cons, List.sum_cons, chargeOf_of_unpriced h, zero_add]
  · have hall : ∀ k ∈ keys, decide (k ≠ key) = true := by
      intro k hk
      refine decide_eq_true fun he => hmem ?_
      rwa [← he]
    rw [List.filter_eq_self.2 hall]

theorem score_of_unpriced {key : String} (hkey : key ∈ keys)
    (h : Unpriced (scoringTable rules) key = true)
    (hs : computeDeductionScore criteria rules keys = .ok s) :
    key ∈ s.unpricedRuleKeys ∧
      ∃ s', computeDeductionScore criteria rules (keys.filter (· ≠ key)) = .ok s' ∧
        s'.scoreHundredths = s.scoreHundredths ∧ s'.perCriterion = s.perCriterion := by
  have hchargeable := computeDeductionScore_isOk.1 ⟨s, hs⟩
  obtain ⟨s', hs'⟩ :
      ∃ s', computeDeductionScore criteria rules (keys.filter (· ≠ key)) = .ok s' :=
    computeDeductionScore_isOk.2 fun k hk => hchargeable k (List.mem_filter.1 hk).1
  refine ⟨?_, s', hs', ?_, ?_⟩
  · rw [computeDeductionScore_unpriced hs, List.mem_filter]
    exact ⟨List.mem_eraseDups.2 hkey, h⟩
  · rw [clamp_idle hs, clamp_idle hs']
    simp only [chargesOf_drop_unpriced h]
  · rw [perCriterion_eq hs, perCriterion_eq hs']
    simp only [chargesOf_drop_unpriced h]

end Exact

/-- The deduction score on a table whose prices and maxima are not below
zero.  It exists exactly when every diagnosed key has a rule on a criterion of
the rubric.  It is the sum of the maxima minus the charges, each cut at the
maximum of its criterion; it lies between zero and that sum; it does not grow
with more keys or higher prices; it reads the set of the keys; and the keys
without a price are reported and deduct nothing. -/
theorem deductionScore_exact (criteria : List RubricCriterion) (rules : List ScoringRule)
    (keys : List String) (hmax : ∀ c ∈ criteria, 0 ≤ c.maxHundredths)
    (hprice : NoNegativePrice rules) :
    ((∃ s, computeDeductionScore criteria rules keys = .ok s) ↔
        ∀ k ∈ keys, Chargeable criteria (scoringTable rules) k) ∧
      ∀ s, computeDeductionScore criteria rules keys = .ok s →
        s.scoreHundredths = (criteria.map RubricCriterion.maxHundredths).sum -
            (criteria.map fun c => min c.maxHundredths (chargesOf rules keys c.key)).sum ∧
          0 ≤ s.scoreHundredths ∧
          s.scoreHundredths ≤ (criteria.map RubricCriterion.maxHundredths).sum ∧
          (∀ keys' s', keys ⊆ keys' → computeDeductionScore criteria rules keys' = .ok s' →
            s'.scoreHundredths ≤ s.scoreHundredths) ∧
          (∀ rules' s', PricesRaised rules rules' →
            computeDeductionScore criteria rules' keys = .ok s' →
            s'.scoreHundredths ≤ s.scoreHundredths) ∧
          (∀ keys', (∀ k, k ∈ keys ↔ k ∈ keys') →
            ∃ s', computeDeductionScore criteria rules keys' = .ok s' ∧
              s'.scoreHundredths = s.scoreHundredths ∧ s'.perCriterion = s.perCriterion ∧
              s'.unpricedRuleKeys.Perm s.unpricedRuleKeys) ∧
          ∀ key ∈ keys, Unpriced (scoringTable rules) key = true →
            key ∈ s.unpricedRuleKeys ∧
              ∃ s', computeDeductionScore criteria rules (keys.filter (· ≠ key)) = .ok s' ∧
                s'.scoreHundredths = s.scoreHundredths ∧ s'.perCriterion = s.perCriterion := by
  refine ⟨computeDeductionScore_isOk, fun s hs => ⟨?_, ?_, score_le_max hmax hprice hs, ?_, ?_, ?_,
    fun key hkey h => score_of_unpriced hkey h hs⟩⟩
  · simp only [clamp_idle hs, min_comm]
  · rw [clamp_idle hs]
    exact sub_nonneg.2 (lost_le_max criteria _)
  · intro keys' s' hsub hs'
    exact computeDeductionScore_mono hprice (fun k hk => hsub hk) hs' hs
  · intro rules' s' hraise hs'
    exact score_raise hraise hs hs'
  · intro keys' h
    exact score_congr_keys h hs

/-- Two rules on one criterion together deduct more than its maximum, and a
third one has no price yet. -/
def cappedRules : List ScoringRule :=
  [⟨"naming", "style", some 40⟩, ⟨"comments", "style", some 30⟩, ⟨"layout", "style", none⟩,
    ⟨"edge-cases", "correctness", some 25⟩]

def cappedRubric : List RubricCriterion := [⟨"correctness", 100⟩, ⟨"style", 50⟩]

theorem cappedRules_exact :
    ∃ s, computeDeductionScore cappedRubric cappedRules
        ["naming", "layout", "edge-cases", "comments", "naming"] = .ok s ∧
      s.scoreHundredths = 75 ∧ 0 ≤ s.scoreHundredths ∧ s.scoreHundredths ≤ 150 ∧
      "layout" ∈ s.unpricedRuleKeys := by
  obtain ⟨s, hs⟩ : ∃ s, computeDeductionScore cappedRubric cappedRules
      ["naming", "layout", "edge-cases", "comments", "naming"] = .ok s := ⟨_, rfl⟩
  obtain ⟨hexact, hnonneg, hle, _, _, _, hunpriced⟩ := (deductionScore_exact cappedRubric
    cappedRules ["naming", "layout", "edge-cases", "comments", "naming"] (by decide)
    (by unfold NoNegativePrice cappedRules; simp)).2 s hs
  refine ⟨s, hs, ?_, hnonneg, ?_, (hunpriced "layout" (by simp) (by decide)).1⟩
  · rw [hexact]
    decide
  · exact hle

end Cine.Grading
