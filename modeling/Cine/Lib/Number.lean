import Mathlib.Data.Rat.Floor

/-!
# The numbers a script computes with

A script has one number type, and its fractions are rounded.  `Number`
is what a program that only adds, multiplies, divides and compares asks of
that type: a linear order (so `NaN` is left out), the four operations,
the integers, the decimal literals and the two ways of printing.  No law
connects the operations, so a result about an arbitrary `Number` holds of
rounded arithmetic as well as of exact arithmetic.

`ℚ` is the exact instance, on which a concrete computation can be run.
`ExactIntegers` is a law that rounded arithmetic keeps: whole numbers up to
2^53 are added exactly.  `RoundedArithmetic` has the others that a mean of
such numbers rests on.
-/

namespace Cine.Lib

/-- A number type with the operations, the literals and the printing of a
script, and no law beyond the order. -/
class Number (K : Type) extends LinearOrder K, Add K, Sub K, Mul K, Div K, IntCast K,
    OfScientific K where
  /-- `n` digits after the point. -/
  toFixed : K → Nat → String
  /-- The shortest decimal text. -/
  text : K → String

/-- Whole numbers up to 2^53 are added without rounding. -/
structure ExactIntegers (K : Type) [Number K] : Prop where
  add : ∀ a b : Int, 0 ≤ a → 0 ≤ b → a + b ≤ 2 ^ 53 → (a : K) + (b : K) = ((a + b : Int) : K)
  one_mul : ∀ b : Int, ((1 : Int) : K) * (b : K) = (b : K)

/-- More laws of rounded arithmetic: a half of a whole number is exact, a
quotient that can be represented is, and rounding turns no order round. -/
structure RoundedArithmetic (K : Type) [Number K] : Prop extends ExactIntegers K where
  half_zero : (0.5 : K) * ((0 : Int) : K) = ((0 : Int) : K)
  half_add : ∀ a b : Int, 0 ≤ a → 0 ≤ b → a + b ≤ 2 ^ 53 →
    (0.5 : K) * (a : K) + (0.5 : K) * (b : K) = (0.5 : K) * ((a + b : Int) : K)
  div_self : ∀ n : Int, 0 < n → n ≤ 2 ^ 53 → (n : K) / (n : K) = ((1 : Int) : K)
  half_div : ∀ n : Int, 0 < n → n ≤ 2 ^ 53 → (0.5 : K) * (n : K) / (n : K) = 0.5
  add_mono : ∀ x y z w : K, x ≤ y → z ≤ w → x + z ≤ y + w
  mul_mono : ∀ (x y : K) (n : Int), x ≤ y → 0 ≤ n → x * (n : K) ≤ y * (n : K)
  div_mono : ∀ (x y : K) (n : Int), x ≤ y → 0 < n → x / (n : K) ≤ y / (n : K)

namespace Number

/-- The digits after the point of a remainder `r` below `d`, as far as
`fuel` reaches. -/
def fractionDigits : Nat → Nat → Nat → String
  | 0, _, _ => ""
  | fuel + 1, r, d =>
    if r = 0 then "" else toString (10 * r / d) ++ fractionDigits fuel (10 * r % d) d

/-- The decimal text of a rational number, cut after seventeen digits. -/
def ratText (q : ℚ) : String :=
  let n := q.num.natAbs
  let digits := fractionDigits 17 (n % q.den) q.den
  (if q < 0 then "-" else "") ++ toString (n / q.den) ++
    (if digits = "" then "" else "." ++ digits)

/-- A rational number with `digits` digits after the point, a tie going away
from zero. -/
def ratToFixed (q : ℚ) (digits : Nat) : String :=
  let unit := 10 ^ digits
  let n := (2 * unit * q.num.natAbs + q.den) / (2 * q.den)
  let fraction := (List.range digits).map fun i => toString (n / 10 ^ (digits - 1 - i) % 10)
  (if q < 0 then "-" else "") ++ toString (n / unit) ++ "." ++ String.join fraction

instance : Number ℚ where
  toFixed := ratToFixed
  text := ratText

theorem exactIntegers_rat : ExactIntegers ℚ where
  add a b _ _ _ := (Int.cast_add a b).symm
  one_mul b := by rw [Int.cast_one, one_mul]

theorem roundedArithmetic_rat : RoundedArithmetic ℚ where
  toExactIntegers := exactIntegers_rat
  half_zero := by simp
  half_add a b _ _ _ := by
    rw [← mul_add]
    exact congrArg _ (Int.cast_add a b).symm
  div_self n hn _ := by
    rw [Int.cast_one]
    exact div_self (Int.cast_ne_zero.2 hn.ne')
  half_div n hn _ := mul_div_cancel_right₀ _ (Int.cast_ne_zero.2 hn.ne')
  add_mono _ _ _ _ hxy hzw := add_le_add hxy hzw
  mul_mono _ _ _ hxy hn := mul_le_mul_of_nonneg_right hxy (Int.cast_nonneg hn)
  div_mono _ _ _ hxy hn := div_le_div_of_nonneg_right hxy (Int.cast_nonneg hn.le)

example : text (0.85 : ℚ) = "0.85" ∧ toFixed (0.8 : ℚ) 2 = "0.80" := by decide +kernel

end Number

end Cine.Lib
