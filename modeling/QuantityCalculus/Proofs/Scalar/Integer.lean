/-
Module: QuantityCalculus.Proofs.Scalar.Integer
Layer: Proofs
Purpose: The value of a double-precision number.  It is taken apart into the parts that its
  arithmetic is defined by, and integers of at most 53 binary digits are represented exactly.
Imports: Mathlib, QuantityCalculus.Scalar.Double
Trusted boundary: none
Main exports: Dyadic64.value, Dyadic64.toInt?_eq_some_iff, Binary64.parts,
  Binary64.ofFloat?_eq_parts, Binary64.Normal, Normal.roundWithAccuracy_scaled, Normal.unpack_pack,
  Binary64.whole, Binary64.floatOfDecimal_eq_whole, Binary64.value?, Binary64.value?_floatOfDecimal,
  Binary64.value?_neg_floatOfDecimal
Open obligations: none
-/
import Mathlib
import QuantityCalculus.Scalar.Double

namespace QuantityCalculus

namespace Dyadic64

/-! ### Values -/

/-- The number that the parts stand for. -/
def value (d : Dyadic64) : Rat := (if d.negative then -1 else 1) * d.significand * 2 ^ d.exponent

/-- A number is taken for an integer exactly if it is one. -/
theorem toInt?_eq_some_iff (d : Dyadic64) (i : Int) : d.toInt? = some i ↔ d.value = i := by
  obtain ⟨negative, m, e⟩ := d
  simp only [toInt?, value, Nat.pow_eq]
  split
  next integral =>
    obtain ⟨k, rfl⟩ := Int.eq_ofNat_of_zero_le integral
    rw [Option.some.injEq, Int.toNat_natCast, zpow_natCast]
    cases negative <;> simp [← Int.cast_inj (α := Rat)]
  next fractional =>
    obtain ⟨k, rfl⟩ := Int.exists_eq_neg_ofNat (le_of_not_ge fractional)
    have unit : (2 ^ k : Rat) ≠ 0 := by positivity
    rw [Int.neg_neg, Int.toNat_natCast, zpow_neg, zpow_natCast, ← div_eq_mul_inv, div_eq_iff unit]
    split
    next whole =>
      obtain ⟨n, rfl⟩ := Nat.dvd_of_mod_eq_zero whole
      rw [Nat.mul_div_cancel_left n (Nat.two_pow_pos k), Option.some.injEq, Nat.cast_mul,
        Nat.cast_pow,
        mul_left_comm, mul_comm, Nat.cast_ofNat, mul_left_inj' unit]
      cases negative <;> simp [← Int.cast_inj (α := Rat)]
    next broken =>
      refine iff_of_false (by simp) fun equal => broken ?_
      have integral : (if negative then -1 else 1) * (m : Int) = i * 2 ^ k := by
        exact_mod_cast equal
      have size : m = i.natAbs * 2 ^ k := by
        have sizes := congrArg Int.natAbs integral
        rw [Int.natAbs_mul, Int.natAbs_mul, Int.natAbs_pow] at sizes
        cases negative <;> simpa using sizes
      rw [size, Nat.mul_mod_left]

end Dyadic64

namespace Binary64

open Float.Model Float.Model.UnpackedFloat

/-! ### The parts of a number -/

/-- The parts of an unpacked number, unless it is infinite or undefined. -/
def parts : UnpackedFloat → Option Dyadic64
  | .notANumber => none
  | .infinity _ => none
  | .zero s => some ⟨s == .negative, 0, Dyadic64.minExponent⟩
  | .finite s m e _ => some ⟨s == .negative, m, e⟩

theorem exponentBias_eq : Format.binary64.exponentBias = 1023 := rfl

section Bits

variable (b : BitVec Format.binary64.numBits)

theorem toNat_unpackMantissa : (unpackMantissa b).toNat = b.toNat % 2 ^ 52 := by
  rw [unpackMantissa_def, BitVec.extractLsb'_toNat, Nat.shiftRight_zero]

theorem toNat_unpackExponent : (unpackExponent b).toNat = b.toNat / 2 ^ 52 % 2 ^ 11 := by
  rw [unpackExponent_def, BitVec.extractLsb'_toNat, Nat.shiftRight_eq_div_pow]

theorem unpackMantissa_eq_zero_iff : unpackMantissa b = 0#52 ↔ b.toNat % 2 ^ 52 = 0 := by
  rw [← BitVec.toNat_inj, toNat_unpackMantissa]
  rfl

theorem unpackExponent_eq_iff (e : BitVec 11) :
    unpackExponent b = e ↔ b.toNat / 2 ^ 52 % 2 ^ 11 = e.toNat := by
  rw [← BitVec.toNat_inj, toNat_unpackExponent]

/-- The sign is the highest bit. -/
theorem unpackSign_eq_negative :
    (Sign.ofBitVec (unpackSign b) == .negative) = (b.toNat / 2 ^ 63 == 1) := by
  have bound : b.toNat < 2 ^ 64 := b.isLt
  have toNat : (unpackSign b).toNat = b.toNat / 2 ^ 63 := by
    rw [unpackSign_def, BitVec.extractLsb'_toNat, Nat.shiftRight_eq_div_pow]
    exact Nat.mod_eq_of_lt (Nat.div_lt_of_lt_mul bound)
  rw [← toNat]
  generalize unpackSign b = sign
  revert sign
  decide

end Bits

/-- The leading digit of a mantissa, which is not stored. -/
theorem toNat_implicit (m : BitVec 52) : (1#1 ++ m).toNat = m.toNat + 2 ^ 52 := by
  rw [BitVec.toNat_append, ← Nat.shiftLeft_add_eq_or_of_lt m.isLt, Nat.add_comm]
  rfl

/-- A number is taken apart into the parts that its arithmetic is defined by. -/
theorem ofFloat?_eq_parts (x : Float) : Dyadic64.ofFloat? x = parts x.toModel.unpack := by
  have bits : x.toBits.toNat = x.toModel.toBits.toBitVec.toNat := rfl
  simp only [Dyadic64.ofFloat?, bits, Float.Model.unpack, UnpackedFloat.unpack, Nat.pow_eq]
  generalize (x.toModel.toBits.toBitVec : BitVec Format.binary64.numBits) = b
  have greatest := unpackExponent_eq_iff b (-1#11)
  have least := unpackExponent_eq_iff b (0#11)
  split
  next special =>
    rw [if_pos (greatest.mpr special)]
    split <;> rfl
  next finite =>
    rw [if_neg fun special => finite (greatest.mp special)]
    split
    next subnormal =>
      rw [if_pos (least.mpr subnormal)]
      split
      next zero =>
        rw [(unpackMantissa_eq_zero_iff b).mp zero]
        simp only [parts, unpackSign_eq_negative]
      next =>
        have exponent :
            ((0 : Nat) : Int) - ((1023 : Nat) + (52 : Nat)) + 1 = Dyadic64.minExponent := rfl
        simp only [parts, unpackSign_eq_negative, toNat_unpackMantissa, toNat_unpackExponent,
          subnormal,
          exponentBias_eq, exponent]
    next normal =>
      rw [if_neg fun subnormal => normal (least.mp subnormal)]
      have bias : ((1023 : Nat) : Int) + (52 : Nat) = 1075 := rfl
      simp only [parts, unpackSign_eq_negative, toNat_implicit, toNat_unpackMantissa,
        toNat_unpackExponent, exponentBias_eq, bias]

/-! ### Numbers with all binary digits -/

/-- Zeros at the end of a mantissa are shifted out without a trace. -/
theorem shiftRight_scaled (m k : Nat) :
    ExtendedMantissa.ofMantissaAndAccuracy (m * 2 ^ k) .exact >>> k = ⟨m, false, false⟩ := by
  induction k generalizing m with
  | zero => exact congrArg (ExtendedMantissa.mk · false false) (Nat.mul_one m)
  | succ k ih =>
    have twice : m * 2 ^ (k + 1) = m * 2 * 2 ^ k := by rw [Nat.pow_succ', Nat.mul_assoc]
    have step : ExtendedMantissa.ofMantissaAndAccuracy (m * 2 ^ (k + 1)) .exact >>> (k + 1)
        = (ExtendedMantissa.ofMantissaAndAccuracy (m * 2 * 2 ^ k) .exact >>> k).shiftRightOne := by
      rw [twice]
      rfl
    rw [step, ih]
    simp only [ExtendedMantissa.shiftRightOne, Nat.mul_div_cancel m Nat.two_pos, Nat.mul_mod_left,
      bne_self_eq_false, Bool.or_self]

/-- A mantissa of 53 binary digits and an exponent in range. -/
structure Normal (m : Nat) (e : Int) : Prop where
  least : 2 ^ 52 ≤ m
  greatest : m < 2 ^ 53
  lower : -1074 ≤ e
  upper : e ≤ 971

namespace Normal

variable {m : Nat} {e : Int} (h : Normal m e)

include h

theorem pos : 0 < m := (Nat.two_pow_pos 52).trans_le h.least

/-- The digits of a multiple by a power of two. -/
theorem log2_scaled (k : Nat) : (m * 2 ^ k).log2 = 52 + k := by
  have power := Nat.two_pow_pos k
  apply (Nat.log2_eq_iff (Nat.mul_pos h.pos power).ne').mpr
  constructor
  · rw [Nat.pow_add]
    exact Nat.mul_le_mul_right _ h.least
  · rw [Nat.add_right_comm, Nat.pow_add]
    exact Nat.mul_lt_mul_of_pos_right h.greatest power

/-- Zeros shifted out of a significand are made up for by the exponent. -/
theorem targetExponent_scaled (k : Nat) :
    Format.binary64.targetExponent (totalExponent (m * 2 ^ k) (e - k)) = e := by
  have lower := h.lower
  simp only [Format.targetExponent, totalExponent, h.log2_scaled, Format.mantissaBits,
    Format.minExponent]
  omega

/-- A mantissa with zeros at its end loses them. -/
theorem shiftToTargetExponent_scaled (k : Nat) :
    shiftToTargetExponent .binary64 (m * 2 ^ k) (e - k) .exact = (⟨m, false, false⟩, e) := by
  have shift : (e - (e - k)).toNat = k := by omega
  simp only [shiftToTargetExponent, shiftToExponent, h.targetExponent_scaled, shift,
    shiftRight_scaled,
    Int.sub_add_cancel]

/-- Rounding removes the zeros at the end of a mantissa and nothing else. -/
theorem roundWithAccuracy_scaled (s : Sign) (k : Nat) :
    roundWithAccuracy .binary64 s (m * 2 ^ k) (e - k) .exact = .finite s m e h.pos := by
  have again : shiftToTargetExponent .binary64 m e .exact = (⟨m, false, false⟩, e) := by
    simpa using h.shiftToTargetExponent_scaled 0
  have whole : (ExtendedMantissa.mk m false false).roundedMantissa = m := rfl
  simp only [roundWithAccuracy, h.shiftToTargetExponent_scaled, whole, again, dif_neg h.pos.ne']

/-- The exponent as it is stored is neither zero nor the one of infinite numbers. -/
theorem toNat_stored :
    (BitVec.ofNat 11 (e + (1023 : Nat) + (52 : Nat)).toNat).toNat = (e + 1075).toNat := by
  have lower := h.lower
  have upper := h.upper
  rw [BitVec.toNat_ofNat]
  omega

theorem stored_ne_least : BitVec.ofNat 11 (e + (1023 : Nat) + (52 : Nat)).toNat ≠ 0#11 := by
  intro equal
  have value := h.toNat_stored
  have lower := h.lower
  rw [equal, BitVec.toNat_ofNat] at value
  omega

theorem stored_ne_greatest : BitVec.ofNat 11 (e + (1023 : Nat) + (52 : Nat)).toNat ≠ -1#11 := by
  intro equal
  have value := h.toNat_stored
  have upper := h.upper
  have greatest : (-1#11).toNat = 2047 := rfl
  rw [equal, greatest] at value
  omega

theorem implicit_ofNat : (1#1 ++ BitVec.ofNat 52 m).toNat = m := by
  have least := h.least
  have greatest := h.greatest
  rw [toNat_implicit, BitVec.toNat_ofNat]
  omega

/-- Nothing is lost when a number is stored. -/
theorem unpack_pack (s : Sign) :
    (Float.Model.pack (.finite s m e h.pos)).unpack = .finite s m e h.pos := by
  have digits : m.log2 + 1 = Format.binary64.mantissaBits := by
    have scaled := h.log2_scaled 0
    rw [Nat.pow_zero, Nat.mul_one] at scaled
    rw [scaled]
    rfl
  have inRange :
      ¬ 2 ^ Format.binary64.exponentBits ≤ (e + (1023 : Nat) + (52 : Nat)).toNat + 1 := by
    have upper := h.upper
    simp only [Nat.not_le]
    omega
  have lower := h.lower
  have exponent : ((e + 1075).toNat : Int) - ((1023 : Nat) + (52 : Nat)) = e := by omega
  simp only [Float.Model.unpack, Float.Model.pack, UnpackedFloat.pack, exponentBias_eq,
    if_neg inRange,
    if_pos digits, UnpackedFloat.unpack, unpackMantissa_packComponents,
    unpackExponent_packComponents,
    unpackSign_packComponents, Sign.ofBitVec_toBitVec, if_neg h.stored_ne_greatest,
    if_neg h.stored_ne_least, h.toNat_stored, exponent, h.implicit_ofNat]

end Normal

/-! ### Integers -/

/-- A positive integer of at most 53 binary digits, filled up with zeros at the end. -/
theorem normal_of_lt {n : Nat} (pos : 0 < n) (small : n < 2 ^ 53) :
    Normal (n * 2 ^ (52 - n.log2)) (-(52 - n.log2 : Nat)) := by
  have digits : n.log2 < 53 := (Nat.log2_lt pos.ne').mpr small
  have fill : n.log2 + (52 - n.log2) = 52 := by omega
  have least : 2 ^ n.log2 ≤ n := Nat.log2_self_le pos.ne'
  have greatest : n < 2 ^ (n.log2 + 1) := Nat.lt_log2_self
  refine ⟨?_, ?_, by omega, by omega⟩
  · have := Nat.mul_le_mul_right (2 ^ (52 - n.log2)) least
    rwa [← Nat.pow_add, fill] at this
  · have := Nat.mul_lt_mul_of_pos_right greatest (Nat.two_pow_pos (52 - n.log2))
    rwa [← Nat.pow_add, Nat.add_right_comm, fill] at this

section Whole

variable {n : Nat} (pos : 0 < n) (small : n < 2 ^ 53)

/-- The number with the given sign whose absolute value is such an integer. -/
def whole (s : Sign) : UnpackedFloat :=
  .finite s (n * 2 ^ (52 - n.log2)) (-(52 - n.log2 : Nat)) (normal_of_lt pos small).pos

theorem unpack_pack_whole (s : Sign) :
    (Float.Model.pack (whole pos small s)).unpack = whole pos small s :=
  (normal_of_lt pos small).unpack_pack s

theorem neg_whole : (whole pos small .positive).neg = whole pos small .negative := rfl

/-- Such an integer is not rounded. -/
theorem ofNat_eq_whole : UnpackedFloat.ofNat .binary64 n = whole pos small .positive := by
  have target : Format.binary64.targetExponent (totalExponent n 0) = -(52 - n.log2 : Nat) := by
    have digits : n.log2 < 53 := (Nat.log2_lt pos.ne').mpr small
    simp only [Format.targetExponent, totalExponent, Format.mantissaBits, Format.minExponent]
    omega
  have order : compare (n : Int) 0 = .gt := compare_gt_iff_gt.mpr (Int.natCast_pos.mpr pos)
  have rounded := (normal_of_lt pos small).roundWithAccuracy_scaled .positive 0
  rw [Nat.pow_zero, Nat.mul_one, Nat.cast_zero, Int.sub_zero] at rounded
  simp only [UnpackedFloat.ofNat, UnpackedFloat.ofInt, UnpackedFloat.normalize, order,
    UnpackedFloat.round,
    decreaseExponent, target, Int.zero_sub, Int.neg_neg, Int.toNat_natCast, Nat.shiftLeft_eq,
    rounded, whole]

theorem unpack_one :
    (Float.ofBits 0x3FF0000000000000).toModel.unpack
      = .finite .positive (2 ^ 52) (-52) (Nat.two_pow_pos 52) := rfl

/-- A product with one is rounded to what it was. -/
theorem whole_mul_one :
    UnpackedFloat.mul .binary64 (whole pos small .positive)
      (Float.ofBits 0x3FF0000000000000).toModel.unpack
      = whole pos small .positive := by
  rw [unpack_one]
  exact (normal_of_lt pos small).roundWithAccuracy_scaled .positive 52

/-- The number closest to such an integer is the integer itself. -/
theorem floatOfDecimal_eq_whole :
    floatOfDecimal n 0 = .ofModel (.pack (whole pos small .positive)) := by
  have inRange : ¬ (0 : Int) < -(401 + (n.log2 : Int)) := by omega
  have scientific :
      Float.ofScientific n false 0 = n.toUInt64.toFloat * Float.ofBits 0x3FF0000000000000 :=
    dif_pos ⟨small, by decide⟩
  have word : n.toUInt64.toNat = n := Nat.mod_eq_of_lt (small.trans (by decide))
  have stored :
      n.toUInt64.toFloat.toModel = .pack (UnpackedFloat.ofNat .binary64 n.toUInt64.toNat) := rfl
  have product : n.toUInt64.toFloat * Float.ofBits 0x3FF0000000000000
      = .ofModel (.pack (UnpackedFloat.mul .binary64 n.toUInt64.toFloat.toModel.unpack
          (Float.ofBits 0x3FF0000000000000).toModel.unpack)) := rfl
  rw [floatOfDecimal, if_neg pos.ne', if_neg (by decide), if_neg inRange]
  calc Float.ofScientific n false 0
    _ = .ofModel (.pack (UnpackedFloat.mul .binary64 n.toUInt64.toFloat.toModel.unpack
          (Float.ofBits 0x3FF0000000000000).toModel.unpack)) := scientific.trans product
    _ = .ofModel (.pack (whole pos small .positive)) := by
      rw [stored, word, ofNat_eq_whole pos small, unpack_pack_whole, whole_mul_one]

theorem unpack_floatOfDecimal :
    (floatOfDecimal n 0).toModel.unpack = whole pos small .positive := by
  rw [floatOfDecimal_eq_whole pos small, unpack_pack_whole]

/-- The opposite of a small integer is stored with the other sign only. -/
theorem unpack_neg_floatOfDecimal :
    (Float.neg (floatOfDecimal n 0)).toModel.unpack = whole pos small .negative := by
  have negated :
      (Float.neg (floatOfDecimal n 0)).toModel = .pack (floatOfDecimal n 0).toModel.unpack.neg :=
        rfl
  rw [negated, unpack_floatOfDecimal pos small, neg_whole, unpack_pack_whole]

end Whole

/-! ### Values of integers -/

/-- The number that a finite double-precision number is. -/
def value? (x : Float) : Option Rat := (Dyadic64.ofFloat? x).map Dyadic64.value

/-- A number has an integer value exactly if it is recognized as that integer. -/
theorem value?_eq_some_iff {x : Float} {i : Int} :
    value? x = some (i : Rat) ↔ (Dyadic64.ofFloat? x).bind Dyadic64.toInt? = some i := by
  rw [value?]
  cases Dyadic64.ofFloat? x with
  | none => simp
  | some d => rw [Option.map_some, Option.some.injEq, Option.bind_some, d.toInt?_eq_some_iff]

/-- Both zeros are zero. -/
theorem value?_of_zero {x : Float} {s : Sign} (zero : x.toModel.unpack = .zero s) :
    value? x = some 0 := by
  rw [value?, ofFloat?_eq_parts, zero]
  simp [parts, Dyadic64.value]

/-- What is stored as an integer has that integer as its value. -/
theorem value?_of_whole {x : Float} {n : Nat} {pos : 0 < n} {small : n < 2 ^ 53} {s : Sign}
    (integral : x.toModel.unpack = whole pos small s) :
    value? x = some (if s == .negative then -(n : Rat) else n) := by
  have unit : (2 ^ (52 - n.log2) : Rat) ≠ 0 := by positivity
  rw [value?, ofFloat?_eq_parts, integral]
  simp [whole, parts, Dyadic64.value, unit]

/-- Integers of at most 53 binary digits are read exactly. -/
theorem value?_floatOfDecimal {n : Nat} (small : n < 2 ^ 53) :
    value? (floatOfDecimal n 0) = some (n : Rat) := by
  rcases Nat.eq_zero_or_pos n with rfl | pos
  · exact value?_of_zero (s := .positive) rfl
  · rw [value?_of_whole (unpack_floatOfDecimal pos small)]
    rfl

/-- So are their negations. -/
theorem value?_neg_floatOfDecimal {n : Nat} (small : n < 2 ^ 53) :
    value? (Float.neg (floatOfDecimal n 0)) = some (-(n : Rat)) := by
  rcases Nat.eq_zero_or_pos n with rfl | pos
  · rw [Nat.cast_zero, neg_zero]
    exact value?_of_zero (s := .negative) rfl
  · rw [value?_of_whole (unpack_neg_floatOfDecimal pos small)]
    rfl

end Binary64

end QuantityCalculus
