import Mathlib.Algebra.Order.Field.Basic
import Mathlib.Data.List.Forall2
import Mathlib.Tactic.Ring
import Mathlib.Tactic.Linarith

/-!
# The criteria of a question, scaled

`scaleCriteriaHundredths` of `grading/problem/question-rubric.ts`.  Every
criterion but the last gets its share rounded down, and the last one gets what
is left.

`Spent` is what the loop keeps: what it has given out is at most the share of
the criteria it has passed, and behind it by less than a hundredth for each of
them.
-/

namespace Cine.Grading

/-- The loop, where `used` has been given out already. -/
def scaleFrom (total target : Nat) : (used : Nat) → List Nat → List Int
  | _, [] => []
  | used, [_] => [(target : Int) - used]
  | used, h :: next :: rest =>
    let share := h * target / total
    share :: scaleFrom total target (used + share) (next :: rest)

def scaleCriteriaHundredths (sample : List Nat) (target : Nat) : Except String (List Int) :=
  if sample = [] ∨ sample.sum = 0 then .error "rubric mẫu chưa có tiêu chí có điểm"
  else .ok (scaleFrom sample.sum target 0 sample)

example : scaleCriteriaHundredths [100, 100, 100] 100 = .ok [33, 33, 34] := rfl

/-- The loop has passed `count` criteria with `passed` hundredths together. -/
structure Spent (total target passed count used : Nat) : Prop where
  le : used * total ≤ passed * target
  behind : passed * target ≤ used * total + count * total

theorem Spent.start (total target : Nat) : Spent total target 0 0 0 where
  le := by omega
  behind := by omega

variable {count h passed target total used n : Nat}

theorem Spent.share (htotal : 0 < total) (hspent : Spent total target passed count used) :
    Spent total target (passed + h) (count + 1) (used + h * target / total) := by
  have hdiv := Nat.div_add_mod (h * target) total
  have hmod := Nat.mod_lt (h * target) htotal
  have hcomm : total * (h * target / total) = h * target / total * total := Nat.mul_comm _ _
  have hle := hspent.le
  have hbehind := hspent.behind
  constructor <;> rw [Nat.add_mul, Nat.add_mul] <;> try rw [Nat.add_mul]
  · omega
  · omega

/-- A scaled criterion is non-negative, and less than `n` hundredths from its
share. -/
def NearShare (total target n h : Nat) (x : Int) : Prop :=
  0 ≤ x ∧ |x * total - h * target| < n * total

theorem nearShare_div (htotal : 0 < total) (hn : 0 < n) :
    NearShare total target n h (h * target / total : Nat) := by
  have hdiv := Nat.div_add_mod (h * target) total
  have hmod := Nat.mod_lt (h * target) htotal
  have hcomm : total * (h * target / total) = h * target / total * total := Nat.mul_comm _ _
  have hle : total ≤ n * total := Nat.le_mul_of_pos_left total hn
  refine ⟨Int.natCast_nonneg _, ?_⟩
  generalize h * target / total = share at *
  rw [abs_lt]
  constructor <;> omega

theorem nearShare_rest (htotal : 0 < total) (hspent : Spent total target passed count used)
    (hsum : passed + h = total) (hn : count < n) :
    NearShare total target n h ((target : Int) - used) := by
  have hwhole : passed * target + h * target = total * target := by
    rw [← Nat.add_mul, hsum]
  have hle := hspent.le
  have hbehind := hspent.behind
  have hcount : count * total + total ≤ n * total := by
    rw [← Nat.succ_mul]
    exact Nat.mul_le_mul_right total hn
  have hused : used ≤ target := by
    refine Nat.le_of_mul_le_mul_right ?_ htotal
    rw [Nat.mul_comm target]
    omega
  refine ⟨by omega, ?_⟩
  have hexpand : ((target : Int) - used) * total = total * target - used * total := by ring
  rw [hexpand, abs_lt]
  constructor <;> omega

theorem sum_scaleFrom {rest : List Nat} (h : rest ≠ []) :
    (scaleFrom total target used rest).sum = (target : Int) - used := by
  induction rest generalizing used with
  | nil => exact absurd rfl h
  | cons a rest ih =>
    cases rest with
    | nil => simp [scaleFrom]
    | cons b rest =>
      rw [scaleFrom, List.sum_cons, ih (List.cons_ne_nil b rest)]
      push_cast
      omega

theorem near_scaleFrom {rest : List Nat} (htotal : 0 < total)
    (hspent : Spent total target passed count used) (hsum : passed + rest.sum = total)
    (hn : count + rest.length ≤ n) :
    List.Forall₂ (NearShare total target n) rest (scaleFrom total target used rest) := by
  induction rest generalizing passed count used with
  | nil => exact .nil
  | cons a rest ih =>
    rw [List.length_cons] at hn
    rw [List.sum_cons] at hsum
    cases rest with
    | nil => exact .cons (nearShare_rest htotal hspent (by simpa using hsum) (by omega)) .nil
    | cons b rest =>
      refine .cons (nearShare_div htotal (by omega)) ?_
      exact ih (hspent.share htotal) (by omega) (by omega)

/-- A scaled criterion, with its exact share of the target. -/
def WithinShare (sample : List Nat) (target h : Nat) (x : Int) : Prop :=
  let share : ℚ := h * target / sample.sum
  0 ≤ x ∧ |(x : ℚ) - share| < sample.length

theorem NearShare.abs_sub_lt {slack : Nat} {x : Int} (hpos : 0 < total)
    (hx : NearShare total target slack h x) : |(x : ℚ) - h * target / total| < slack := by
  have htotal : (0 : ℚ) < (total : ℚ) := by exact_mod_cast hpos
  have hshare : (x : ℚ) - (h * target : ℚ) / (total : ℚ) =
      (x * total - h * target) / (total : ℚ) := by
    rw [sub_div, mul_div_cancel_right₀ _ (ne_of_gt htotal)]
  rw [hshare, abs_div, abs_of_pos htotal, div_lt_iff₀ htotal]
  exact_mod_cast hx.2

theorem WithinShare.of_near {sample : List Nat} {x : Int} (hpos : 0 < sample.sum)
    (hx : NearShare sample.sum target sample.length h x) : WithinShare sample target h x :=
  ⟨hx.1, hx.abs_sub_lt hpos⟩

/-- The scaled criteria stand in the order of the list, sum to the target, and
each is non-negative and differs from its share by less than one hundredth for
each criterion of the list. -/
theorem scaleCriteria_exact (sample : List Nat) (target : Nat) (hne : sample ≠ [])
    (hpos : 0 < sample.sum) :
    ∃ scaled, scaleCriteriaHundredths sample target = .ok scaled ∧ scaled.sum = target ∧
      List.Forall₂ (WithinShare sample target) sample scaled := by
  have hok : ¬ (sample = [] ∨ sample.sum = 0) := by
    rintro (h | h)
    · exact hne h
    · omega
  refine ⟨scaleFrom sample.sum target 0 sample, if_neg hok, ?_, ?_⟩
  · rw [sum_scaleFrom hne]
    exact Int.sub_zero _
  · have hnear : List.Forall₂ (NearShare sample.sum target sample.length) sample
        (scaleFrom sample.sum target 0 sample) :=
      near_scaleFrom hpos (Spent.start sample.sum target) (Nat.zero_add _)
        (Nat.le_of_eq (Nat.zero_add _))
    exact hnear.imp fun _ _ hx => .of_near hpos hx

theorem scaleCriteria_three :
    ∃ scaled, scaleCriteriaHundredths [250, 250, 500] 333 = .ok scaled ∧ scaled.sum = 333 ∧
      List.Forall₂ (WithinShare [250, 250, 500] 333) [250, 250, 500] scaled :=
  scaleCriteria_exact [250, 250, 500] 333 (by decide) (by decide)

end Cine.Grading
