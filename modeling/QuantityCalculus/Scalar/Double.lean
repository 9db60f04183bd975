/-
Module: QuantityCalculus.Scalar.Double
Layer: Scalar
Purpose: Double-precision floating point as numbers to measure with.
Imports: QuantityCalculus.Scalar.Basic, QuantityCalculus.Scalar.Binary64,
  QuantityCalculus.Scalar.Fraction
Trusted boundary: the elementary functions are those of the platform
Main exports: the instances Scalar Float and Elementary Float
Open obligations: none
-/
import QuantityCalculus.Scalar.Basic
import QuantityCalculus.Scalar.Binary64
import QuantityCalculus.Scalar.Fraction

namespace QuantityCalculus

/-- The double-precision number closest to `coefficient * 10 ^ exponent`.  Every number of at least
`10 ^ 400` is infinite and every number below `10 ^ (-400)` is zero, so the exponent need not be
expanded beyond these bounds. -/
def floatOfDecimal (coefficient : Nat) (exponent : Int) : Float :=
  if coefficient = 0 then 0.0
  else if exponent > 400 then 1.0 / 0.0
  else if exponent < -(401 + (coefficient.log2 : Int)) then 0.0
  else Float.ofScientific coefficient (exponent < 0) exponent.natAbs

instance : Scalar Float where
  zero := 0.0
  one := 1.0
  add := Float.add
  sub := Float.sub
  mul := Float.mul
  div := Float.div
  neg := Float.neg
  beq := Float.beq
  lt a b := a < b
  le a b := a ≤ b
  decidableLT := Float.decLt
  decidableLE := Float.decLe
  abs := Float.abs
  ofDecimal := floatOfDecimal
  undefined := 0.0 / 0.0
  isFinite := Float.isFinite
  isInfinity x := x == 1.0 / 0.0
  toInt? x := (Dyadic64.ofFloat? x).bind Dyadic64.toInt?
  approximation? := fractionNear?

instance : Elementary Float where
  pow := Float.pow
  sqrt := Float.sqrt
  sin := Float.sin
  cos := Float.cos
  tan := Float.tan
  asin := Float.asin
  acos := Float.acos
  atan := Float.atan
  ln := Float.log
  log10 := Float.log10
  exp := Float.exp
  modulo := floatModulo

end QuantityCalculus
