/-
Module: QuantityCalculus.Scalar.Exact
Layer: Scalar
Purpose: Rational numbers as numbers to measure with, so that arithmetic on quantities is exact.
Imports: QuantityCalculus.Scalar.Basic
Trusted boundary: none
Main exports: the instance Scalar Rat
Open obligations: none
-/
import QuantityCalculus.Scalar.Basic

namespace QuantityCalculus

/-- A fraction is its own approximation, provided that its parts are 64-bit integers. -/
def exactFraction? (x : Rat) : Option Rat :=
  if fitsWord x.num && fitsWord x.den then some x else none

instance : Scalar Rat where
  zero := 0
  one := 1
  add a b := a + b
  sub a b := a - b
  mul a b := a * b
  div a b := a / b
  neg a := -a
  beq a b := a == b
  lt a b := a < b
  le a b := a ≤ b
  decidableLT a b := inferInstanceAs (Decidable (a < b))
  decidableLE a b := inferInstanceAs (Decidable (a ≤ b))
  abs a := if a < 0 then -a else a
  ofDecimal coefficient exponent := (coefficient : Rat) * (10 : Rat) ^ exponent
  undefined := 0
  isFinite _ := true
  isInfinity _ := false
  toInt? x := if x.den = 1 then some x.num else none
  approximation? := exactFraction?

end QuantityCalculus
