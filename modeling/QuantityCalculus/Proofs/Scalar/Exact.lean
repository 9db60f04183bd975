/-
Module: QuantityCalculus.Proofs.Scalar.Exact
Layer: Proofs
Purpose: The powers of rational numbers that are computed digit by digit are the powers of rational
  numbers, and what it means for two of them to count as the same factor.
Imports: Mathlib.Algebra.Order.Field.Basic, Mathlib.Data.Rat.Cast.Order, Mathlib.Tactic.Linarith,
  Mathlib.Tactic.NormNum, Mathlib.Tactic.Positivity, QuantityCalculus.Scalar.Exact,
  QuantityCalculus.Units.Simplification
Trusted boundary: none
Main exports: powInt_eq_zpow, Close, sameFactor_iff_close
Open obligations: none
-/
import Mathlib.Algebra.Order.Field.Basic
import Mathlib.Data.Rat.Cast.Order
import Mathlib.Tactic.Linarith
import Mathlib.Tactic.NormNum
import Mathlib.Tactic.Positivity
import QuantityCalculus.Scalar.Exact
import QuantityCalculus.Units.Simplification

namespace QuantityCalculus

namespace Scalar

/-- Enough steps for all binary digits of the exponent lead to the power. -/
theorem powDigits_eq {fuel n : Nat} (enough : n < 2 ^ fuel) (result base : Rat) :
    powDigits fuel result base n = result * base ^ n := by
  induction fuel generalizing n result base with
  | zero =>
      have zero : n = 0 := by omega
      rw [powDigits, zero, pow_zero, mul_one]
  | succ fuel ih =>
      rw [powDigits]
      by_cases zero : n = 0
      · rw [if_pos zero, zero, pow_zero, mul_one]
      · rw [if_neg zero, ih (by omega)]
        change (if n % 2 = 1 then result * base else result) * (base * base) ^ (n / 2)
          = result * base ^ n
        have digits : n = n % 2 + 2 * (n / 2) := by omega
        have square : (base * base) ^ (n / 2) = base ^ (2 * (n / 2)) := by rw [pow_mul, pow_two]
        rw [square]
        by_cases odd : n % 2 = 1
        · rw [if_pos odd, mul_assoc, ← pow_succ']
          congr 2
          omega
        · rw [if_neg odd]
          congr 2
          omega

theorem powNat_eq (base : Rat) (n : Nat) : powNat base n = base ^ n := by
  have enough : n < 2 ^ (n.log2 + 1) := Nat.lt_log2_self
  rw [powNat, powDigits_eq enough]
  exact one_mul _

/-- The power that is computed digit by digit is the power. -/
theorem powInt_eq_zpow (base : Rat) (n : Int) : powInt base n = base ^ n := by
  rw [powInt]
  by_cases negative : n < 0
  · rw [if_pos negative, powNat_eq]
    have sign : n = -(n.natAbs : Int) := by omega
    change 1 / base ^ n.natAbs = base ^ n
    rw [one_div, ← zpow_natCast, ← zpow_neg, ← sign]
  · rw [if_neg negative, powNat_eq, ← zpow_natCast]
    congr 1
    omega

end Scalar

/-- Two numbers that differ by no more than the tolerance with which conversion factors are
compared, relative to the larger one. -/
def Close (x y : Rat) : Prop := |x - y| ≤ 1 / 10 ^ 12 * max |x| |y|

theorem Close.refl (x : Rat) : Close x x := by
  rw [Close, sub_self, abs_zero]
  positivity

theorem Close.mul_left {x y : Rat} (h : Close x y) (c : Rat) : Close (c * x) (c * y) := by
  have scaled := mul_le_mul_of_nonneg_left h (abs_nonneg c)
  rw [Close, ← mul_sub, abs_mul, abs_mul, abs_mul, ← mul_max_of_nonneg _ _ (abs_nonneg c)]
  linarith

/-- Two numbers count as the same factor exactly if they are close to each other. -/
theorem sameFactor_iff_close (x y : Rat) : sameFactor x y = true ↔ Close x y := by
  have absolute : ∀ z : Rat, Scalar.abs z = |z| := by
    intro z
    change (if z < 0 then -z else z) = |z|
    by_cases negative : z < 0
    · rw [if_pos negative, abs_of_neg negative]
    · rw [if_neg negative, abs_of_nonneg (not_lt.mp negative)]
  have larger : ∀ z w : Rat, Scalar.larger z w = max z w := by
    intro z w
    change (if z < w then w else z) = max z w
    by_cases less : z < w
    · rw [if_pos less, max_eq_right less.le]
    · rw [if_neg less, max_eq_left (not_lt.mp less)]
  have tolerance : (Scalar.ofDecimal 1 (-12) : Rat) = 1 / 10 ^ 12 := by
    change ((1 : Nat) : Rat) * (10 : Rat) ^ (-12 : Int) = 1 / 10 ^ 12
    norm_num
  rw [sameFactor, decide_eq_true_iff, absolute, absolute, absolute, larger, tolerance]
  exact Iff.rfl

end QuantityCalculus
