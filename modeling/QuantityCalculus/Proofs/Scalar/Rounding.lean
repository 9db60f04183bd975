/-
Module: QuantityCalculus.Proofs.Scalar.Rounding
Layer: Proofs
Purpose: The range of double-precision numbers, and what rounding leaves of their products.  A
  rounded product is not below any number of 53 digits that the exact product is not below, so a
  factor of at least two doubles the other one, unless the product is infinite.
Imports: Mathlib, QuantityCalculus.Proofs.Scalar.Integer, QuantityCalculus.Proofs.Scalar.Order
Trusted boundary: none
Main exports: Dyadic64.Representable, Binary64.value?_lt, Binary64.lt_zero_iff,
  Binary64.roundWithAccuracy_of_long, Binary64.le_cut, Binary64.mul_lower_bound,
  Binary64.value?_of_two_le, Binary64.twice_le_mul
Open obligations: none
-/
import Mathlib
import QuantityCalculus.Proofs.Scalar.Integer
import QuantityCalculus.Proofs.Scalar.Order

namespace QuantityCalculus

namespace Dyadic64

/-! ### The range of the parts -/

/-- The parts of a double-precision number: a significand of at most 53 binary digits, with fewer
digits only at the smallest exponent. -/
structure Representable (d : Dyadic64) : Prop where
  digits : d.significand < 2 ^ 53
  filled : minExponent < d.exponent → 2 ^ 52 ≤ d.significand
  lower : minExponent ≤ d.exponent
  upper : d.exponent ≤ 971

/-- Whatever is stored can be represented. -/
theorem representable_of_ofFloat? {x : Float} {d : Dyadic64} (parts : ofFloat? x = some d) :
    d.Representable := by
  simp only [ofFloat?, Nat.pow_eq] at parts
  generalize x.toBits.toNat = bits at parts
  split at parts
  · cases parts
  · split at parts
    all_goals
      cases parts
      constructor <;> simp only [minExponent] <;> omega

namespace Representable

variable {d : Dyadic64} (h : d.Representable)

include h

/-- A significand of 53 digits stays below the power of two that has one digit more. -/
theorem value_lt_zpow : d.value < 2 ^ (53 + d.exponent) := by
  have unit : (0 : Rat) < 2 ^ d.exponent := by positivity
  have digits : (d.significand : Rat) < 2 ^ 53 := by exact_mod_cast h.digits
  have sign : (if d.negative then -1 else 1 : Rat) * d.significand ≤ d.significand := by
    have nonneg : (0 : Rat) ≤ d.significand := Nat.cast_nonneg _
    split <;> linarith
  calc d.value
    _ ≤ d.significand * 2 ^ d.exponent := mul_le_mul_of_nonneg_right sign unit.le
    _ < 2 ^ 53 * 2 ^ d.exponent := mul_lt_mul_of_pos_right digits unit
    _ = 2 ^ (53 + d.exponent) := by rw [zpow_add₀ two_ne_zero, zpow_ofNat]

/-- No number that can be represented reaches the next power of two. -/
theorem value_lt : d.value < 2 ^ 1024 := by
  have exponent : 53 + d.exponent ≤ 1024 := by linarith [h.upper]
  calc d.value
    _ < 2 ^ (53 + d.exponent) := h.value_lt_zpow
    _ ≤ 2 ^ (1024 : Int) := zpow_le_zpow_right₀ one_le_two exponent
    _ = 2 ^ 1024 := zpow_ofNat 2 1024

/-- Numbers from one on are positive, and their exponent is not small. -/
theorem positive_of_one_le (one : 1 ≤ d.value) : d.negative = false ∧ -53 < d.exponent := by
  constructor
  · by_contra negative
    rw [Bool.not_eq_false] at negative
    rw [value, negative, if_pos rfl, mul_assoc] at one
    have nonneg : (0 : Rat) ≤ d.significand * 2 ^ d.exponent := by positivity
    linarith
  · have exponent : 0 < 53 + d.exponent :=
      (one_lt_zpow_iff_right₀ one_lt_two).mp (one.trans_lt h.value_lt_zpow)
    omega

end Representable

end Dyadic64

namespace Binary64

open Float.Model Float.Model.UnpackedFloat

/-- Finite numbers are below `2 ^ 1024`. -/
theorem value?_lt {x : Float} {v : Rat} (finite : value? x = some v) : v < 2 ^ 1024 := by
  obtain ⟨d, parts, rfl⟩ := Option.map_eq_some_iff.mp finite
  exact (Dyadic64.representable_of_ofFloat? parts).value_lt

theorem representable_of_unpack {x : Float} {s : Sign} {m : Nat} {e : Int} {pos : 0 < m}
    (unpacked : x.toModel.unpack = .finite s m e pos) :
    Dyadic64.Representable ⟨s == .negative, m, e⟩ :=
  Dyadic64.representable_of_ofFloat? (by rw [ofFloat?_eq_parts, unpacked, parts])

/-- A number with a value is a zero or has a mantissa and an exponent. -/
theorem unpack_of_value? {x : Float} {v : Rat} (finite : value? x = some v) :
    (∃ s, x.toModel.unpack = .zero s ∧ v = 0)
      ∨ ∃ s m e pos, x.toModel.unpack = .finite s m e pos
          ∧ v = Dyadic64.value ⟨s == .negative, m, e⟩ := by
  rw [value?, ofFloat?_eq_parts] at finite
  cases unpacked : x.toModel.unpack with
  | notANumber | infinity => simp [unpacked, parts] at finite
  | zero s =>
      simp only [unpacked, parts, Dyadic64.value, Option.map_some, Option.some.injEq] at finite
      exact .inl ⟨s, rfl, by simp [← finite]⟩
  | finite s m e pos =>
      simp only [unpacked, parts, Option.map_some, Option.some.injEq] at finite
      exact .inr ⟨s, m, e, pos, rfl, finite.symm⟩

/-- A number from one on has all its digits. -/
theorem unpack_of_one_le {x : Float} {v : Rat} (finite : value? x = some v) (one : 1 ≤ v) :
    ∃ m e pos, x.toModel.unpack = .finite .positive m e pos
      ∧ Normal m e ∧ -53 < e ∧ v = m * 2 ^ e := by
  rcases unpack_of_value? finite with ⟨s, -, rfl⟩ | ⟨s, m, e, pos, unpacked, rfl⟩
  · exact absurd one (not_le.mpr zero_lt_one)
  · have range := representable_of_unpack unpacked
    obtain ⟨positive, exponent⟩ := range.positive_of_one_le one
    obtain rfl : s = .positive := by cases s <;> simp_all
    have least : Dyadic64.minExponent < e := lt_trans (by decide) exponent
    have normal : Normal m e := ⟨range.filled least, range.digits, range.lower, range.upper⟩
    exact ⟨m, e, pos, unpacked, normal, exponent, by simp [Dyadic64.value]⟩

/-- A finite number is below zero if its value is. -/
theorem lt_zero_iff {x : Float} {v : Rat} (finite : value? x = some v) : x < 0 ↔ v < 0 := by
  have order : x < 0 ↔ x.toModel.unpack.compare (.zero .positive) = some .lt :=
    (lt_iff_place x 0).trans (compare_eq_lt_iff _ _).symm
  rw [order]
  rcases unpack_of_value? finite with ⟨s, unpacked, rfl⟩ | ⟨s, m, e, pos, unpacked, rfl⟩
  · simp [unpacked, UnpackedFloat.compare]
  · have size : (0 : Rat) < m * 2 ^ e := mul_pos (Nat.cast_pos.mpr pos) (by positivity)
    cases s with
    | negative => simpa [unpacked, UnpackedFloat.compare, Dyadic64.value] using size
    | positive => simpa [unpacked, UnpackedFloat.compare, Dyadic64.value] using size.le

/-! ### Rounding -/

/-- Digits that are shifted out leave the quotient. -/
theorem mantissa_shiftRight (em : ExtendedMantissa) (k : Nat) :
    (em >>> k).mantissa = em.mantissa / 2 ^ k := by
  induction k with
  | zero => exact (Nat.div_one _).symm
  | succ k ih =>
      have step : em >>> (k + 1) = (em >>> k).shiftRightOne := rfl
      rw [step, ExtendedMantissa.shiftRightOne, ih, Nat.div_div_eq_div_mul, Nat.pow_succ]

/-- Rounding to the nearest never goes below what is cut off. -/
theorem le_roundedMantissa (em : ExtendedMantissa) : em.mantissa ≤ em.roundedMantissa := by
  obtain ⟨m, _ | _, _ | _⟩ := em
  all_goals
    simp only [ExtendedMantissa.roundedMantissa, ExtendedMantissa.accuracy,
      Accuracy.roundToNearestEven]
    omega

/-- Nor does it go up by more than one. -/
theorem roundedMantissa_le (em : ExtendedMantissa) : em.roundedMantissa ≤ em.mantissa + 1 := by
  obtain ⟨m, _ | _, _ | _⟩ := em
  all_goals
    simp only [ExtendedMantissa.roundedMantissa, ExtendedMantissa.accuracy,
      Accuracy.roundToNearestEven]
    omega

section Long

/-! A mantissa of at least 53 digits is cut to 53 digits and rounded, and rounding may give it one
digit more. -/

variable {m : Nat} {e : Int}

/-- The digits beyond the first 53. -/
def excess (m : Nat) : Nat := m.log2 - 52

theorem add_excess (long : 2 ^ 52 ≤ m) : 52 + excess m = m.log2 :=
  Nat.add_sub_cancel' ((Nat.le_log2 (by omega)).mpr long)

/-- A long mantissa is shifted by the digits that it has too many. -/
theorem shiftToTargetExponent_of_long (long : 2 ^ 52 ≤ m) (lower : -1074 ≤ e + excess m) :
    shiftToTargetExponent .binary64 m e .exact
      = (ExtendedMantissa.ofMantissaAndAccuracy m .exact >>> excess m, e + excess m) := by
  have target : Format.binary64.targetExponent (totalExponent m e) = e + excess m := by
    simp only [Format.targetExponent, totalExponent, Format.mantissaBits, Format.minExponent,
      ← add_excess long]
    omega
  have shift : (e + excess m - e).toNat = excess m := by omega
  simp only [shiftToTargetExponent, shiftToExponent, target, shift]

theorem le_div_excess (long : 2 ^ 52 ≤ m) : 2 ^ 52 ≤ m / 2 ^ excess m := by
  rw [Nat.le_div_iff_mul_le (Nat.two_pow_pos _), ← Nat.pow_add, add_excess long]
  exact Nat.log2_self_le (by omega)

theorem div_excess_lt (long : 2 ^ 52 ≤ m) : m / 2 ^ excess m < 2 ^ 53 := by
  have digits : 53 + excess m = m.log2 + 1 := by rw [← add_excess long, Nat.add_right_comm]
  rw [Nat.div_lt_iff_lt_mul (Nat.two_pow_pos _), ← Nat.pow_add, digits]
  exact Nat.lt_log2_self

/-- The digit that rounding may add is a zero. -/
theorem div_excess_mul (long : 2 ^ 52 ≤ m) (short : m ≤ 2 ^ 53) :
    m / 2 ^ excess m * 2 ^ excess m = m := by
  rcases short.lt_or_eq with less | rfl
  · have digits : m.log2 < 53 := (Nat.log2_lt (by omega)).mpr less
    have none : excess m = 0 := Nat.sub_eq_zero_of_le (by omega)
    rw [none, Nat.pow_zero, Nat.div_one, Nat.mul_one]
  · rw [excess, Nat.log2_two_pow]
    norm_num

/-- What is left has 53 digits and is not below what was cut. -/
theorem roundWithAccuracy_of_long (s : Sign) (long : 2 ^ 52 ≤ m) (lower : -1074 ≤ e + excess m) :
    ∃ m' e' pos, roundWithAccuracy .binary64 s m e .exact = .finite s m' e' pos
      ∧ 2 ^ 52 ≤ m' ∧ m' < 2 ^ 53 ∧ -1074 ≤ e'
      ∧ ((m / 2 ^ excess m : Nat) : Rat) * 2 ^ (e + excess m) ≤ m' * 2 ^ e' := by
  have exact (n : Nat) : (ExtendedMantissa.ofMantissaAndAccuracy n .exact).mantissa = n := rfl
  obtain ⟨cut, shifted⟩ :
      ∃ cut, ExtendedMantissa.ofMantissaAndAccuracy m .exact >>> excess m = cut :=
    ⟨_, rfl⟩
  have quotient : cut.mantissa = m / 2 ^ excess m := shifted ▸ mantissa_shiftRight _ _
  have least : m / 2 ^ excess m ≤ cut.roundedMantissa := quotient ▸ le_roundedMantissa cut
  have greatest : cut.roundedMantissa ≤ m / 2 ^ excess m + 1 := quotient ▸ roundedMantissa_le cut
  -- Rounding up may carry into one more digit, so the result is cut once more, then without a loss.
  have again : 2 ^ 52 ≤ cut.roundedMantissa := (le_div_excess long).trans least
  have short : cut.roundedMantissa ≤ 2 ^ 53 := greatest.trans (div_excess_lt long)
  have lower' : -1074 ≤ e + excess m + excess cut.roundedMantissa := by omega
  have filled := le_div_excess again
  refine ⟨_, _, (Nat.two_pow_pos 52).trans_le filled, ?_, filled, div_excess_lt again, lower', ?_⟩
  · simp only [roundWithAccuracy, shiftToTargetExponent_of_long long lower, shifted,
      shiftToTargetExponent_of_long again lower', mantissa_shiftRight, exact]
    rw [dif_neg (by omega)]
  · calc ((m / 2 ^ excess m : Nat) : Rat) * 2 ^ (e + excess m)
      _ ≤ (cut.roundedMantissa : Rat) * 2 ^ (e + excess m) := by gcongr
      _ = (cut.roundedMantissa / 2 ^ excess cut.roundedMantissa
            * 2 ^ excess cut.roundedMantissa : Nat)
          * 2 ^ (e + excess m) := by rw [div_excess_mul again short]
      _ = (cut.roundedMantissa / 2 ^ excess cut.roundedMantissa : Nat)
          * 2 ^ (e + excess m + excess cut.roundedMantissa) := by
        rw [Nat.cast_mul, Nat.cast_pow, Nat.cast_ofNat, zpow_add₀ two_ne_zero (e + excess m),
          zpow_natCast]
        ring

/-- Cutting digits leaves a number above every one of 53 digits that was not above it. -/
theorem le_cut (long : 2 ^ 52 ≤ m) {a : Nat} {f : Int} (digits : a < 2 ^ 53)
    (below : (a : Rat) * 2 ^ f ≤ m * 2 ^ e) :
    (a : Rat) * 2 ^ f ≤ (m / 2 ^ excess m : Nat) * 2 ^ (e + excess m) := by
  -- With a smaller exponent, 53 digits do not reach what is left; with any other one the number is
  -- a multiple of the last place that is left, and the quotient is not below it.
  rcases lt_or_ge f (e + excess m) with less | more
  · have small : (a : Rat) ≤ 2 ^ 53 := by exact_mod_cast digits.le
    have filled : (2 ^ 52 : Rat) ≤ (m / 2 ^ excess m : Nat) := by exact_mod_cast le_div_excess long
    calc (a : Rat) * 2 ^ f
      _ ≤ 2 ^ 53 * 2 ^ f := by gcongr
      _ = 2 ^ 52 * 2 ^ (f + 1) := by
        rw [zpow_add₀ two_ne_zero, zpow_one]
        ring
      _ ≤ (m / 2 ^ excess m : Nat) * 2 ^ (e + excess m) :=
        mul_le_mul filled (zpow_le_zpow_right₀ one_le_two less) (by positivity) (by positivity)
  · obtain ⟨j, rfl⟩ : ∃ j : Nat, f = e + excess m + j := ⟨(f - (e + excess m)).toNat, by omega⟩
    have unit : (0 : Rat) < 2 ^ e := by positivity
    have split : (a : Rat) * 2 ^ (e + excess m + j) = (a * 2 ^ j * 2 ^ excess m : Nat) * 2 ^ e := by
      push_cast
      rw [zpow_add₀ two_ne_zero, zpow_add₀ two_ne_zero, zpow_natCast, zpow_natCast]
      ring
    rw [split, mul_le_mul_iff_left₀ unit, Nat.cast_le] at below
    have quotient : a * 2 ^ j ≤ m / 2 ^ excess m :=
      (Nat.le_div_iff_mul_le (Nat.two_pow_pos _)).mpr below
    calc (a : Rat) * 2 ^ (e + excess m + j)
      _ = (a * 2 ^ j : Nat) * 2 ^ (e + excess m) := by
        push_cast
        rw [zpow_add₀ two_ne_zero (e + excess m), zpow_natCast]
        ring
      _ ≤ (m / 2 ^ excess m : Nat) * 2 ^ (e + excess m) := by gcongr

end Long

/-! ### Products -/

/-- Beyond the largest exponent a number is infinite. -/
theorem pack_of_overflow {m : Nat} {e : Int} {pos : 0 < m} (large : 971 < e) :
    Float.Model.pack (.finite .positive m e pos) = Float.Model.pack (.infinity .positive) := by
  have overflow : 2 ^ 11 ≤ (e + (1023 : Nat) + (52 : Nat)).toNat + 1 := by omega
  have bits : UnpackedFloat.pack .binary64 (.finite .positive m e pos)
      = UnpackedFloat.pack .binary64 (.infinity .positive) := if_pos overflow
  simp only [Float.Model.pack, bits]

theorem value?_pack {m : Nat} {e : Int} (h : Normal m e) :
    value? (.ofModel (.pack (.finite .positive m e h.pos))) = some ((m : Rat) * 2 ^ e) := by
  rw [value?, ofFloat?_eq_parts, h.unpack_pack]
  simp [parts, Dyadic64.value]

theorem mul_eq_pack (x y : Float) :
    x * y = .ofModel (.pack (UnpackedFloat.mul .binary64 x.toModel.unpack y.toModel.unpack)) := rfl

/-- A product is infinite or not below any number of 53 digits that the exact product is not
below. -/
theorem mul_lower_bound {x y : Float} {v w : Rat} (left : value? x = some v) (one : 1 ≤ v)
    (right : value? y = some w) (one' : 1 ≤ w) {a : Nat} {f : Int} (digits : a < 2 ^ 53)
    (below : (a : Rat) * 2 ^ f ≤ v * w) :
    Scalar.isInfinity (x * y) = true ∨ ∃ z, value? (x * y) = some z ∧ (a : Rat) * 2 ^ f ≤ z := by
  obtain ⟨m, e, pos, unpacked, normal, small, rfl⟩ := unpack_of_one_le left one
  obtain ⟨n, e', pos', unpacked', normal', small', rfl⟩ := unpack_of_one_le right one'
  have long : 2 ^ 52 ≤ m * n := normal.least.trans (Nat.le_mul_of_pos_right m pos')
  have exact : (m : Rat) * 2 ^ e * (n * 2 ^ e') = (m * n : Nat) * 2 ^ (e + e') := by
    rw [Nat.cast_mul, zpow_add₀ two_ne_zero]
    ring
  obtain ⟨r, g, pos, rounded, least, greatest, lower, cut⟩ :=
    roundWithAccuracy_of_long .positive (e := e + e') long (by omega)
  have multiplied : UnpackedFloat.mul .binary64 (.finite .positive m e normal.pos)
      (.finite .positive n e' normal'.pos) = .finite .positive r g pos := rounded
  rw [mul_eq_pack, unpacked, unpacked', multiplied]
  rcases lt_or_ge 971 g with overflow | upper
  · left
    rw [pack_of_overflow overflow]
    rfl
  · right
    refine ⟨_, value?_pack ⟨least, greatest, lower, upper⟩, ?_⟩
    exact (le_cut long digits (exact ▸ below)).trans cut

/-- A number of at least two is infinite or has a value of at least two. -/
theorem value?_of_two_le {y : Float} (two : 1 + 1 ≤ y) :
    y.toModel.unpack = .infinity .positive ∨ ∃ w, value? y = some w ∧ 2 ≤ w := by
  have constant : (1 + 1 : Float).toModel.unpack
      = .finite .positive (2 ^ 52) (-51) (Nat.two_pow_pos 52) := rfl
  have order : ((1 + 1 : Float).toModel.unpack.compare y.toModel.unpack).any (·.isLE) = true :=
    of_decide_eq_true two
  rw [constant] at order
  rw [value?, ofFloat?_eq_parts]
  rcases unpacked : y.toModel.unpack with (_ | _) | _ | _ | ⟨_ | _, m, e, pos⟩
  case infinity.positive => exact .inl rfl
  case finite.positive =>
    rw [unpacked] at order
    have range := representable_of_unpack unpacked
    have larger : -51 < e ∨ -51 = e ∧ 2 ^ 52 ≤ m := by
      simpa [UnpackedFloat.compare, Ordering.isLE_then_iff_or, compare_lt_iff_lt, Std.isLE_compare]
        using order
    have exponent : -51 ≤ e := larger.elim le_of_lt fun same => same.1.le
    have full : 2 ^ 52 ≤ m :=
      larger.elim (fun less => range.filled (lt_trans (by decide) less)) (·.2)
    refine .inr ⟨_, rfl, ?_⟩
    have filled : (2 ^ 52 : Rat) ≤ m := by exact_mod_cast full
    calc (2 : Rat)
      _ = 2 ^ 52 * 2 ^ (-51 : Int) := by norm_num
      _ ≤ m * 2 ^ e :=
        mul_le_mul filled (zpow_le_zpow_right₀ one_le_two exponent) (by positivity) (by positivity)
      _ = Dyadic64.value ⟨false, m, e⟩ := by simp [Dyadic64.value]
  all_goals
    rw [unpacked] at order
    cases order

/-- A factor of at least two doubles a number from one on, unless the product is infinite. -/
theorem twice_le_mul {x y : Float} {v : Rat} (left : value? x = some v) (one : 1 ≤ v)
    (two : 1 + 1 ≤ y) :
    Scalar.isInfinity (x * y) = true ∨ ∃ z, value? (x * y) = some z ∧ 2 * v ≤ z := by
  obtain ⟨m, e, pos, unpacked, normal, -, rfl⟩ := unpack_of_one_le left one
  rcases value?_of_two_le two with infinite | ⟨w, right, two⟩
  · have multiplied : UnpackedFloat.mul .binary64 (.finite .positive m e pos) (.infinity .positive)
        = .infinity .positive := rfl
    left
    rw [mul_eq_pack, unpacked, infinite, multiplied]
    rfl
  · have unit : (0 : Rat) < m * 2 ^ e := one_pos.trans_le one
    have twice : 2 * ((m : Rat) * 2 ^ e) = m * 2 ^ (e + 1) := by
      rw [zpow_add₀ two_ne_zero, zpow_one]
      ring
    have below : (m : Rat) * 2 ^ (e + 1) ≤ m * 2 ^ e * w := by
      rw [← twice, mul_comm]
      exact mul_le_mul_of_nonneg_left two unit.le
    rw [twice]
    exact mul_lower_bound left one right (one_le_two.trans two) normal.greatest below

end Binary64

end QuantityCalculus
