import Cine.Lib.JoinedKey
import Cine.Lib.OrderedMap
import Cine.Lib.Utf16
import Mathlib.Algebra.BigOperators.Group.List.Lemmas
import Mathlib.Algebra.Order.Field.Rat

/-!
# The comparison of two evaluation runs

`eval/compare.ts`: the attempts at a case are one value, the cases that both
runs measured are paired, and the differences are resampled with a generator
that always starts from one seed.

There are four groups.

* The values of a case.  `get?_perCaseValues` reads one off the records, and
  nothing else of the records counts (`compareMaps_congr`).
* The resampling.  The draws do not depend on the differences, and the two
  ends of the interval stand at mirrored places of the sorted means
  (`pairedBootstrap_neg`).
* The exchange of the runs, `compareMaps_swap`.
* `compareRuns_fair` is the result.

The arithmetic is exact: the numbers are rationals.
-/

namespace Cine.Eval

open Cine.Lib

/-! ## The code -/

inductive Metric
  | absScoreError
  | outcomeAgreement
  | gradableAgreement
deriving DecidableEq, Repr

inductive Outcome
  | graded
  | flagged
  | ungradable
deriving DecidableEq, Repr

inductive AttemptStatus
  | ok
  | error
deriving DecidableEq, Repr

structure CaseRecord where
  de : String
  caseId : String
  status : AttemptStatus
  outcome : Option Outcome
  scoreHundredths : Option ℚ
  expectedOutcome : Outcome
  expectedScoreHundredths : Option ℚ
  /-- The schema of a manifest has no slash in the name of an exam. -/
  plain : '/' ∉ de.toList

inductive Verdict
  | regression
  | improvement
  | noChange
deriving DecidableEq, Repr

structure Comparison where
  metric : Metric
  cases : Nat
  onlyBase : Nat
  onlyCandidate : Nat
  delta : ℚ
  lo : ℚ
  hi : ℚ
  verdict : Verdict
  lowerIsBetter : Bool
deriving DecidableEq, Repr

def valueOf (r : CaseRecord) : Metric → Option ℚ
  | .absScoreError =>
    match r.expectedScoreHundredths, r.scoreHundredths with
    | some expected, some score => some |score - expected|
    | _, _ => none
  | .gradableAgreement =>
    some (if r.expectedOutcome ≠ .ungradable ↔ r.outcome ≠ some .ungradable then 1 else 0)
  | .outcomeAgreement =>
    some (if r.expectedOutcome = .graded ↔ r.outcome = some .graded then 1 else 0)

def CaseRecord.key (r : CaseRecord) : String := r.de ++ "/" ++ r.caseId

/-- What an attempt adds to the groups. -/
def measured (metric : Metric) (r : CaseRecord) : Option (String × ℚ) :=
  if r.status = .ok then (valueOf r metric).map fun v => (r.key, v) else none

def mean (vs : List ℚ) : ℚ := vs.sum / vs.length

def perCaseValues (records : List CaseRecord) (metric : Metric) : OrderedMap String ℚ :=
  OrderedMap.ofList ((OrderedMap.groupBy Prod.fst (records.filterMap (measured metric))).entries.map
    fun group => (group.1, mean (group.2.map Prod.snd)))

/-- One step of `rng`. -/
def nextState (x : BitVec 32) : BitVec 32 :=
  let x := x ^^^ (x <<< 13)
  let x := x ^^^ (x >>> 17)
  x ^^^ (x <<< 5)

/-- The state that `rng` starts from. -/
def startState (seed : Nat) : BitVec 32 :=
  if BitVec.ofNat 32 seed = 0 then 1 else BitVec.ofNat 32 seed

/-- `j` further draws on top of `s`. -/
def drawSum (diffs : List ℚ) : Nat → ℚ → BitVec 32 → ℚ × BitVec 32
  | 0, s, x => (s, x)
  | j + 1, s, x =>
    let x := nextState x
    drawSum diffs j (s + diffs.getD (x.toNat % diffs.length) 0) x

def drawMeans (diffs : List ℚ) : Nat → BitVec 32 → List ℚ
  | 0, _ => []
  | i + 1, x =>
    let sample := drawSum diffs diffs.length 0 x
    sample.1 / diffs.length :: drawMeans diffs i sample.2

structure Interval where
  mean : ℚ
  lo : ℚ
  hi : ℚ
deriving DecidableEq, Repr

/-- `pairedBootstrap`: `⌊0.025 n⌋` and `⌈0.975 n⌉ - 1` are the places of the ends. -/
def pairedBootstrap (diffs : List ℚ) (iterations seed : Nat) : Interval :=
  if diffs = [] then ⟨0, 0, 0⟩
  else
    let means := (drawMeans diffs iterations (startState seed)).insertionSort (· ≤ ·)
    { mean := mean diffs
      lo := means.getD (iterations * 25 / 1000) 0
      hi := means.getD ((iterations * 975 + 999) / 1000 - 1) 0 }

def verdictOf (lowerIsBetter : Bool) (interval : Interval) : Verdict :=
  let worse := if lowerIsBetter then 0 < interval.lo else interval.hi < 0
  let better := if lowerIsBetter then interval.hi < 0 else 0 < interval.lo
  if worse then .regression else if better then .improvement else .noChange

/-- `compareRuns` from the two maps on. -/
def compareMaps (a b : OrderedMap String ℚ) (metric : Metric) : Option Comparison :=
  let keysOf (m : OrderedMap String ℚ) := m.entries.map Prod.fst
  let keys := sortStrings ((keysOf a).filter b.has)
  if keys = [] then none
  else
    let diff (k : String) := (b.get? k).getD 0 - (a.get? k).getD 0
    let interval := pairedBootstrap (keys.map diff) 5000 20260924
    let lowerIsBetter : Bool := metric = .absScoreError
    some
      { metric
        cases := keys.length
        onlyBase := ((keysOf a).filter fun k => !b.has k).length
        onlyCandidate := ((keysOf b).filter fun k => !a.has k).length
        delta := interval.mean
        lo := interval.lo
        hi := interval.hi
        verdict := verdictOf lowerIsBetter interval
        lowerIsBetter }

def compareRuns (base cand : List CaseRecord) (metric : Metric) : Option Comparison :=
  compareMaps (perCaseValues base metric) (perCaseValues cand metric) metric

/-! ## The value of a case -/

/-- What the attempts of one key measured. -/
def valuesAt (records : List CaseRecord) (metric : Metric) (k : String) : List ℚ :=
  ((records.filterMap (measured metric)).filter fun e => e.1 = k).map Prod.snd

theorem get?_perCaseValues (records : List CaseRecord) (metric : Metric) (k : String) :
    (perCaseValues records metric).get? k =
      if valuesAt records metric k = [] then none else some (mean (valuesAt records metric k)) := by
  let groups := OrderedMap.groupBy Prod.fst (records.filterMap (measured metric))
  have hgroup : (groups.get? k).getD [] = _ := OrderedMap.get?_groupBy _ k
  have hne : groups.get? k ≠ some [] := OrderedMap.get?_groupBy_ne_nil _ k
  let meanOf (_ : String) (rows : List (String × ℚ)) : ℚ := mean (rows.map Prod.snd)
  have hmean : (perCaseValues records metric).get? k = (groups.get? k).map (meanOf k) :=
    (OrderedMap.get?_ofList_map meanOf groups.entries k).trans
      (congrArg _ (OrderedMap.get?_ofList_entries groups k))
  unfold valuesAt
  rw [hmean, ← hgroup]
  cases hget : groups.get? k with
  | none => rfl
  | some rows =>
    rw [hget] at hne
    have hrows : rows.map Prod.snd ≠ [] := fun hnil =>
      hne (congrArg some (List.map_eq_nil_iff.1 hnil))
    exact (if_neg hrows).symm

theorem compareMaps_congr {a a' b b' : OrderedMap String ℚ} (ha : ∀ k, a.get? k = a'.get? k)
    (hb : ∀ k, b.get? k = b'.get? k) (metric : Metric) :
    compareMaps a b metric = compareMaps a' b' metric := by
  have hhas : a.has = a'.has ∧ b.has = b'.has :=
    ⟨funext fun k => congrArg Option.isSome (ha k), funext fun k => congrArg Option.isSome (hb k)⟩
  have hkeys := OrderedMap.keys_perm ha
  have hkeys' := OrderedMap.keys_perm hb
  unfold compareMaps
  dsimp only
  rw [hhas.1, hhas.2, sortStrings_eq_of_perm (hkeys.filter _), (hkeys.filter _).length_eq,
    (hkeys'.filter _).length_eq, funext ha, funext hb]

/-! ## The resampling of mirrored differences -/

theorem getD_map_neg (diffs : List ℚ) (i : Nat) :
    (diffs.map Neg.neg).getD i 0 = -diffs.getD i 0 := by
  rw [List.getD_eq_getElem?_getD, List.getD_eq_getElem?_getD, List.getElem?_map]
  cases diffs[i]? with
  | none => exact neg_zero.symm
  | some d => rfl

theorem drawSum_neg (diffs : List ℚ) (j : Nat) (s : ℚ) (x : BitVec 32) :
    drawSum (diffs.map Neg.neg) j (-s) x = (-(drawSum diffs j s x).1, (drawSum diffs j s x).2) := by
  induction j generalizing s x with
  | zero => rfl
  | succ j ih =>
    unfold drawSum
    dsimp only
    rw [List.length_map, getD_map_neg, ← neg_add, ih]

theorem drawMeans_neg (diffs : List ℚ) (i : Nat) (x : BitVec 32) :
    drawMeans (diffs.map Neg.neg) i x = (drawMeans diffs i x).map Neg.neg := by
  induction i generalizing x with
  | zero => rfl
  | succ i ih =>
    have hsample := drawSum_neg diffs diffs.length 0 x
    rw [neg_zero] at hsample
    unfold drawMeans
    dsimp only
    rw [List.length_map, hsample, ih, List.map_cons, neg_div]

theorem length_drawMeans (diffs : List ℚ) (i : Nat) (x : BitVec 32) :
    (drawMeans diffs i x).length = i := by
  induction i generalizing x with
  | zero => rfl
  | succ i ih =>
    unfold drawMeans
    rw [List.length_cons, ih]

theorem insertionSort_neg (l : List ℚ) :
    (l.map Neg.neg).insertionSort (· ≤ ·) =
      ((l.insertionSort (· ≤ ·)).map Neg.neg).reverse := by
  have hleft := List.pairwise_insertionSort (· ≤ ·) (l.map Neg.neg)
  have hright : ((l.insertionSort (· ≤ ·)).map Neg.neg).reverse.Pairwise (· ≤ ·) := by
    rw [List.pairwise_reverse, List.pairwise_map]
    exact (List.pairwise_insertionSort (· ≤ ·) l).imp fun h => neg_le_neg h
  have hperm : ((l.map Neg.neg).insertionSort (· ≤ ·)).Perm
      ((l.insertionSort (· ≤ ·)).map Neg.neg).reverse :=
    (List.perm_insertionSort _ _).trans
      (((List.perm_insertionSort _ l).map _).symm.trans (List.reverse_perm _).symm)
  exact hperm.eq_of_pairwise (fun _ _ _ _ h h' => le_antisymm h h') hleft hright

theorem getD_reverse_map_neg {l : List ℚ} {i j : Nat} (h : i + j + 1 = l.length) :
    (l.map Neg.neg).reverse.getD i 0 = -l.getD j 0 := by
  have hi : i < (l.map Neg.neg).length := by
    rw [List.length_map]
    omega
  rw [List.getD_eq_getElem?_getD, List.getElem?_reverse hi, ← List.getD_eq_getElem?_getD,
    getD_map_neg, List.length_map]
  congr 2
  omega

def Interval.mirror (interval : Interval) : Interval :=
  ⟨-interval.mean, -interval.hi, -interval.lo⟩

theorem sum_map_neg (l : List ℚ) : (l.map Neg.neg).sum = -l.sum := by
  induction l with
  | nil => exact neg_zero.symm
  | cons a l ih => rw [List.map_cons, List.sum_cons, List.sum_cons, ih, neg_add]

theorem pairedBootstrap_neg (diffs : List ℚ) (iterations seed : Nat) :
    pairedBootstrap (diffs.map Neg.neg) iterations seed =
      (pairedBootstrap diffs iterations seed).mirror := by
  unfold pairedBootstrap
  by_cases hnil : diffs = []
  · rw [if_pos hnil, if_pos (List.map_eq_nil_iff.2 hnil)]
    simp [Interval.mirror]
  · rw [if_neg hnil, if_neg (fun h => hnil (List.map_eq_nil_iff.1 h))]
    have hmean : mean (diffs.map Neg.neg) = -mean diffs := by
      unfold mean
      rw [sum_map_neg, List.length_map, neg_div]
    have hlength : ((drawMeans diffs iterations (startState seed)).insertionSort
        (· ≤ ·)).length = iterations := by
      rw [List.length_insertionSort, length_drawMeans]
    dsimp only
    rw [drawMeans_neg, insertionSort_neg, hmean]
    unfold Interval.mirror
    by_cases hzero : iterations = 0
    · subst hzero
      simp [drawMeans]
    · have hlow : iterations * 25 / 1000 + ((iterations * 975 + 999) / 1000 - 1) + 1 =
          iterations := by
        omega
      have hhigh : (iterations * 975 + 999) / 1000 - 1 + iterations * 25 / 1000 + 1 =
          iterations := by
        omega
      rw [getD_reverse_map_neg (hlow.trans hlength.symm),
        getD_reverse_map_neg (hhigh.trans hlength.symm)]

/-! ## The exchange of the runs -/

theorem getD_le_getD {l : List ℚ} (h : l.Pairwise (· ≤ ·)) {i j : Nat} (hij : i ≤ j)
    (hj : j < l.length) : l.getD i 0 ≤ l.getD j 0 := by
  have hi := Nat.lt_of_le_of_lt hij hj
  rw [List.getD_eq_getElem?_getD, List.getD_eq_getElem?_getD, List.getElem?_eq_getElem hi,
    List.getElem?_eq_getElem hj]
  rcases Nat.lt_or_eq_of_le hij with hlt | rfl
  · exact List.pairwise_iff_getElem.1 h i j hi hj hlt
  · exact le_refl _

theorem lo_le_hi (diffs : List ℚ) (iterations seed : Nat) :
    (pairedBootstrap diffs iterations seed).lo ≤ (pairedBootstrap diffs iterations seed).hi := by
  unfold pairedBootstrap
  split_ifs with hnil
  · exact le_refl 0
  · dsimp only
    have hlength : ((drawMeans diffs iterations (startState seed)).insertionSort
        (· ≤ ·)).length = iterations := by
      rw [List.length_insertionSort, length_drawMeans]
    have hsorted := List.pairwise_insertionSort (· ≤ ·)
      (drawMeans diffs iterations (startState seed))
    by_cases hzero : iterations = 0
    · subst hzero
      exact le_refl 0
    · exact getD_le_getD hsorted (by omega) (by omega)

def Verdict.swap : Verdict → Verdict
  | .regression => .improvement
  | .improvement => .regression
  | .noChange => .noChange

/-- The same comparison, read from the other run. -/
def Comparison.swap (c : Comparison) : Comparison :=
  { c with
    onlyBase := c.onlyCandidate
    onlyCandidate := c.onlyBase
    delta := -c.delta
    lo := -c.hi
    hi := -c.lo
    verdict := c.verdict.swap }

theorem verdictOf_mirror (lowerIsBetter : Bool) {interval : Interval}
    (h : interval.lo ≤ interval.hi) :
    verdictOf lowerIsBetter interval.mirror = (verdictOf lowerIsBetter interval).swap := by
  have hboth : ¬(0 < interval.lo ∧ interval.hi < 0) := fun hboth =>
    absurd (lt_of_lt_of_le hboth.1 h) (not_lt_of_gt hboth.2)
  unfold verdictOf Interval.mirror
  cases lowerIsBetter
  all_goals
    simp only [if_true, Bool.false_eq_true, if_false, neg_pos, neg_lt_zero]
    by_cases hlo : 0 < interval.lo
    · by_cases hhi : interval.hi < 0
      · exact absurd ⟨hlo, hhi⟩ hboth
      · simp [hlo, hhi, Verdict.swap]
    · by_cases hhi : interval.hi < 0
      · simp [hlo, hhi, Verdict.swap]
      · simp [hlo, hhi, Verdict.swap]

theorem compareMaps_swap (a b : OrderedMap String ℚ) (metric : Metric) :
    compareMaps b a metric = (compareMaps a b metric).map Comparison.swap := by
  have hkeys : sortStrings ((b.entries.map Prod.fst).filter a.has) =
      sortStrings ((a.entries.map Prod.fst).filter b.has) := by
    apply sortStrings_eq_of_perm
    rw [List.perm_ext_iff_of_nodup (b.nodup.filter _) (a.nodup.filter _)]
    intro k
    rw [List.mem_filter, List.mem_filter, ← OrderedMap.isSome_get?_iff,
      ← OrderedMap.isSome_get?_iff]
    exact and_comm
  unfold compareMaps
  dsimp only
  rw [hkeys]
  generalize sortStrings ((a.entries.map Prod.fst).filter b.has) = keys
  split_ifs with hnil
  · rfl
  · have hdiffs : (keys.map fun k => (a.get? k).getD 0 - (b.get? k).getD 0) =
        (keys.map fun k => (b.get? k).getD 0 - (a.get? k).getD 0).map Neg.neg := by
      rw [List.map_map]
      exact List.map_congr_left fun k _ => (neg_sub _ _).symm
    rw [hdiffs, pairedBootstrap_neg, verdictOf_mirror _ (lo_le_hi _ _ _)]
    rfl

/-! ## The cases that both runs measured -/

theorem key_eq_iff {r r' : CaseRecord} :
    r.key = r'.key ↔ r.de = r'.de ∧ r.caseId = r'.caseId := by
  have htoList : ∀ r : CaseRecord, r.key.toList = joined '/' (r.de.toList, r.caseId.toList) := by
    intro r
    simp [CaseRecord.key, joined]
  have hplain : ∀ r r' : CaseRecord,
      ¬Continues '/' (r.de.toList, r.caseId.toList) (r'.de.toList, r'.caseId.toList) := by
    intro r r' hcontinues
    obtain ⟨middle, hde, -⟩ := hcontinues
    apply r'.plain
    rw [show r'.de.toList = r.de.toList ++ '/' :: middle from hde]
    exact List.mem_append_right _ List.mem_cons_self
  rw [← String.toList_inj, htoList, htoList, joined_eq_iff,
    or_iff_left (not_or.2 ⟨hplain r r', hplain r' r⟩), Prod.mk.injEq, String.toList_inj,
    String.toList_inj]

/-- Some attempt at the case of `r` measured something. -/
def isMeasured (metric : Metric) (records : List CaseRecord) (r : CaseRecord) : Bool :=
  records.any fun attempt =>
    attempt.de = r.de ∧ attempt.caseId = r.caseId ∧ (measured metric attempt).isSome

/-- The records of one run whose cases both runs measured. -/
def shared (metric : Metric) (base cand records : List CaseRecord) : List CaseRecord :=
  records.filter fun r => isMeasured metric base r && isMeasured metric cand r

theorem valuesAt_eq (records : List CaseRecord) (metric : Metric) (k : String) :
    valuesAt records metric k =
      (records.filter fun r => r.key = k).filterMap fun r => (measured metric r).map Prod.snd := by
  unfold valuesAt
  induction records with
  | nil => rfl
  | cons r records ih =>
    have hkey : ∀ e, measured metric r = some e → e.1 = r.key := by
      intro e he
      unfold measured at he
      split_ifs at he
      obtain ⟨v, -, rfl⟩ := Option.map_eq_some_iff.1 he
      rfl
    cases hr : measured metric r with
    | none =>
      rw [List.filterMap_cons_none hr, ih]
      by_cases hk : r.key = k
      · rw [List.filter_cons_of_pos (by simpa using hk), List.filterMap_cons_none (by rw [hr]; rfl)]
      · rw [List.filter_cons_of_neg (by simpa using hk)]
    | some e =>
      rw [List.filterMap_cons_some hr]
      by_cases hk : r.key = k
      · have he : e.1 = k := (hkey e hr).trans hk
        rw [List.filter_cons_of_pos (by simpa using he), List.filter_cons_of_pos (by simpa using hk),
          List.filterMap_cons_some (by rw [hr]; rfl), List.map_cons, ih]
      · have he : e.1 ≠ k := fun he => hk ((hkey e hr).symm.trans he)
        rw [List.filter_cons_of_neg (by simpa using he), List.filter_cons_of_neg (by simpa using hk),
          ih]

theorem isMeasured_iff {metric : Metric} {records : List CaseRecord} {r : CaseRecord} :
    isMeasured metric records r = true ↔ (perCaseValues records metric).has r.key = true := by
  have hhas : (perCaseValues records metric).has r.key = true ↔
      valuesAt records metric r.key ≠ [] := by
    unfold OrderedMap.has
    rw [get?_perCaseValues]
    split_ifs with hnil
    · exact iff_of_false Bool.false_ne_true fun hne => hne hnil
    · exact iff_of_true rfl hnil
  rw [hhas, valuesAt_eq]
  unfold isMeasured
  rw [List.any_eq_true]
  constructor
  · intro h
    obtain ⟨attempt, hattempt, hcase⟩ := h
    obtain ⟨hde, hcaseId, hsome⟩ := of_decide_eq_true hcase
    obtain ⟨e, he⟩ := Option.isSome_iff_exists.1 hsome
    have hkey : attempt ∈ records.filter fun attempt => attempt.key = r.key :=
      List.mem_filter.2 ⟨hattempt, decide_eq_true (key_eq_iff.2 ⟨hde, hcaseId⟩)⟩
    have hvalue : (measured metric attempt).map Prod.snd = some e.2 := by
      rw [he]
      rfl
    exact List.ne_nil_of_mem (List.mem_filterMap.2 ⟨attempt, hkey, hvalue⟩)
  · intro h
    obtain ⟨v, hv⟩ := List.exists_mem_of_ne_nil _ h
    obtain ⟨attempt, hattempt, hvalue⟩ := List.mem_filterMap.1 hv
    obtain ⟨hmem, hkey⟩ := List.mem_filter.1 hattempt
    obtain ⟨e, he, -⟩ := Option.map_eq_some_iff.1 hvalue
    obtain ⟨hde, hcaseId⟩ := key_eq_iff.1 (of_decide_eq_true hkey)
    exact ⟨attempt, hmem, decide_eq_true ⟨hde, hcaseId, by rw [he]; rfl⟩⟩

theorem get?_shared (metric : Metric) (base cand records : List CaseRecord) (k : String) :
    (perCaseValues (shared metric base cand records) metric).get? k =
      if (perCaseValues base metric).has k ∧ (perCaseValues cand metric).has k then
        (perCaseValues records metric).get? k
      else none := by
  have hshared : ∀ r : CaseRecord, r.key = k →
      ((isMeasured metric base r && isMeasured metric cand r) = true ↔
        (perCaseValues base metric).has k = true ∧ (perCaseValues cand metric).has k = true) := by
    intro r hkey
    rw [Bool.and_eq_true, isMeasured_iff, isMeasured_iff, hkey]
  have hvalues : valuesAt (shared metric base cand records) metric k =
      if (perCaseValues base metric).has k ∧ (perCaseValues cand metric).has k then
        valuesAt records metric k
      else [] := by
    rw [valuesAt_eq, valuesAt_eq]
    unfold shared
    rw [List.filter_filter]
    split_ifs with hboth
    · congr 1
      apply List.filter_congr
      intro r _
      by_cases hkey : r.key = k
      · rw [(hshared r hkey).2 hboth, Bool.and_true]
      · rw [decide_eq_false hkey, Bool.false_and]
    · rw [List.filter_eq_nil_iff.2, List.filterMap_nil]
      intro r _ hr
      obtain ⟨hkey, hmeasured⟩ := (Bool.and_eq_true _ _).mp hr
      exact hboth ((hshared r (of_decide_eq_true hkey)).1 hmeasured)
  rw [get?_perCaseValues, get?_perCaseValues, hvalues]
  split_ifs <;> simp_all

/-- A comparison without the cases that one run alone measured. -/
def Comparison.paired (c : Comparison) : Comparison := { c with onlyBase := 0, onlyCandidate := 0 }

theorem compareMaps_shared {a b a' b' : OrderedMap String ℚ}
    (ha : ∀ k, a'.get? k = if a.has k ∧ b.has k then a.get? k else none)
    (hb : ∀ k, b'.get? k = if a.has k ∧ b.has k then b.get? k else none) (metric : Metric) :
    (compareMaps a' b' metric).map Comparison.paired =
      (compareMaps a b metric).map Comparison.paired := by
  have hhas : ∀ k, (a'.has k = true ∧ b'.has k = true) ↔ (a.has k = true ∧ b.has k = true) := by
    intro k
    unfold OrderedMap.has at ha hb ⊢
    rw [ha k, hb k]
    split_ifs with hboth
    · rfl
    · exact iff_of_false (fun h => Bool.false_ne_true h.1) hboth
  have hkeys : sortStrings ((a'.entries.map Prod.fst).filter b'.has) =
      sortStrings ((a.entries.map Prod.fst).filter b.has) := by
    apply sortStrings_eq_of_perm
    rw [List.perm_ext_iff_of_nodup (a'.nodup.filter _) (a.nodup.filter _)]
    intro k
    rw [List.mem_filter, List.mem_filter, ← OrderedMap.isSome_get?_iff,
      ← OrderedMap.isSome_get?_iff]
    exact hhas k
  have hdiffs : (sortStrings ((a.entries.map Prod.fst).filter b.has)).map
        (fun k => (b'.get? k).getD 0 - (a'.get? k).getD 0) =
      (sortStrings ((a.entries.map Prod.fst).filter b.has)).map
        (fun k => (b.get? k).getD 0 - (a.get? k).getD 0) := by
    apply List.map_congr_left
    intro k hk
    rw [mem_sortStrings, List.mem_filter, ← OrderedMap.isSome_get?_iff] at hk
    have hboth : a.has k = true ∧ b.has k = true := hk
    rw [ha k, hb k, if_pos hboth, if_pos hboth]
  unfold compareMaps
  dsimp only
  rw [hkeys, hdiffs]
  split_ifs with hnil
  · rfl
  · rfl

/-! ## The comparison is fair -/

/-- Exchanging the runs, reordering them, adding failed attempts, and leaving
out what only one of them measured. -/
structure Fair (base cand : List CaseRecord) (metric : Metric) : Prop where
  exchanged : compareRuns cand base metric = (compareRuns base cand metric).map Comparison.swap
  permuted : ∀ base' cand', base'.Perm base → cand'.Perm cand →
    compareRuns base' cand' metric = compareRuns base cand metric
  failed : ∀ failed failed' : List CaseRecord, (∀ r ∈ failed, r.status = .error) →
    (∀ r ∈ failed', r.status = .error) →
    compareRuns (base ++ failed) (cand ++ failed') metric = compareRuns base cand metric
  sharedOnly :
    (compareRuns (shared metric base cand base) (shared metric base cand cand) metric).map
      Comparison.paired = (compareRuns base cand metric).map Comparison.paired

theorem get?_perm {records records' : List CaseRecord} (h : records'.Perm records)
    (metric : Metric) (k : String) :
    (perCaseValues records' metric).get? k = (perCaseValues records metric).get? k := by
  have hvalues : (valuesAt records' metric k).Perm (valuesAt records metric k) :=
    ((h.filterMap _).filter _).map _
  have hmean : mean (valuesAt records' metric k) = mean (valuesAt records metric k) := by
    unfold mean
    rw [hvalues.sum_eq, hvalues.length_eq]
  have hnil : valuesAt records' metric k = [] ↔ valuesAt records metric k = [] := by
    rw [← List.length_eq_zero_iff, hvalues.length_eq, List.length_eq_zero_iff]
  rw [get?_perCaseValues, get?_perCaseValues, hmean]
  exact if_congr hnil rfl rfl

theorem filterMap_failed {failed : List CaseRecord} (h : ∀ r ∈ failed, r.status = .error)
    (metric : Metric) : failed.filterMap (measured metric) = [] := by
  rw [List.filterMap_eq_nil_iff]
  intro r hr
  unfold measured
  rw [if_neg]
  rw [h r hr]
  decide

/-- A comparison of two runs is fair. -/
theorem compareRuns_fair (base cand : List CaseRecord) (metric : Metric) :
    Fair base cand metric := by
  refine ⟨compareMaps_swap _ _ _, ?_, ?_, ?_⟩
  · intro base' cand' hbase hcand
    exact compareMaps_congr (get?_perm hbase metric) (get?_perm hcand metric) metric
  · intro failed failed' hfailed hfailed'
    unfold compareRuns perCaseValues
    rw [List.filterMap_append, List.filterMap_append, filterMap_failed hfailed,
      filterMap_failed hfailed', List.append_nil, List.append_nil]
  · exact compareMaps_shared (get?_shared metric base cand base)
      (get?_shared metric base cand cand) metric

end Cine.Eval
