/-
Module: QuantityCalculus.Scalar.Binary64
Layer: Scalar
Purpose: Double-precision numbers as integers times powers of two, and the exact operations on them.
Imports: none
Trusted boundary: none
Main exports: Dyadic64, Dyadic64.ofFloat?, Dyadic64.toFloat, Dyadic64.toInt?, floatModulo
Open obligations: none
-/
namespace QuantityCalculus

/-- The finite number `± significand * 2 ^ exponent`.  The sign is kept for zero as well. -/
structure Dyadic64 where
  negative : Bool
  significand : Nat
  exponent : Int
deriving Repr, DecidableEq

namespace Dyadic64

/-- The smallest exponent of a double-precision number. -/
def minExponent : Int := -1074

/-- The parts of a double-precision number, unless it is infinite or undefined. -/
def ofFloat? (x : Float) : Option Dyadic64 :=
  let bits : Nat := x.toBits.toNat
  let negative := bits / Nat.pow 2 63 == 1
  let scale : Nat := bits / Nat.pow 2 52 % Nat.pow 2 11
  let fraction : Nat := bits % Nat.pow 2 52
  if scale = 2047 then none
  else if scale = 0 then some ⟨negative, fraction, minExponent⟩
  else some ⟨negative, fraction + Nat.pow 2 52, (scale : Int) - 1075⟩

/-- Shifts the significand up, and the exponent down with it, until the significand has 53 binary
digits or the exponent is the smallest one. -/
def normalized (x : Dyadic64) : Dyadic64 :=
  let missing := 52 - x.significand.log2
  let room := (x.exponent - minExponent).toNat
  let shift := min missing room
  ⟨x.negative, x.significand * Nat.pow 2 shift, x.exponent - shift⟩

/-- The double-precision number with these parts.  The significand has at most 53 binary digits and
the exponent is in range. -/
def toFloat (x : Dyadic64) : Float :=
  let n := x.normalized
  let sign := if x.negative then Nat.pow 2 63 else 0
  let magnitude :=
    if n.significand < Nat.pow 2 52 then n.significand
    else (n.exponent + 1075).toNat * Nat.pow 2 52 + (n.significand - Nat.pow 2 52)
  Float.ofBits (UInt64.ofNat (sign + magnitude))

/-- The integer that a number is, if it is one. -/
def toInt? (x : Dyadic64) : Option Int :=
  let signed (n : Nat) : Int := if x.negative then -n else n
  if 0 ≤ x.exponent then some (signed (x.significand * Nat.pow 2 x.exponent.toNat))
  else
    let unit := Nat.pow 2 (-x.exponent).toNat
    if x.significand % unit = 0 then some (signed (x.significand / unit)) else none

/-- The remainder of a division of absolute values, with the sign of the dividend.  Both numbers are
brought to the smaller of the two exponents, so the remainder is exact. -/
def remainder (x y : Dyadic64) : Dyadic64 :=
  let exponent := min x.exponent y.exponent
  let a := x.significand * Nat.pow 2 (x.exponent - exponent).toNat
  let b := y.significand * Nat.pow 2 (y.exponent - exponent).toNat
  ⟨x.negative, a % b, exponent⟩

end Dyadic64

/-- The remainder of a division with the sign of the dividend.  There is none for an infinite
dividend or a zero divisor, and an infinite divisor leaves the dividend as it is. -/
def floatRemainder (x y : Float) : Float :=
  match Dyadic64.ofFloat? x, Dyadic64.ofFloat? y with
  | some a, some b => if b.significand = 0 then 0.0 / 0.0 else (a.remainder b).toFloat
  | some _, none => if y.isNaN then y else x
  | none, _ => 0.0 / 0.0

/-- The remainder of a division that is never negative: a negative one is moved up by the absolute
value of the divisor. -/
def floatModulo (x y : Float) : Float :=
  let r := floatRemainder x y
  if r < 0.0 then r + y.abs else r

end QuantityCalculus
