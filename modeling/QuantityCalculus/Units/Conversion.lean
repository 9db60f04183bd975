/-
Module: QuantityCalculus.Units.Conversion
Layer: Units
Purpose: Products, quotients and powers of units that may fail, and the ratio of two units.
Imports: QuantityCalculus.Units.Basic
Trusted boundary: none
Main exports: UnitError, CompoundUnit.productWith, CompoundUnit.quotientBy,
  CompoundUnit.rationalPower, CompoundUnit.scalarPower, CompoundUnit.ratioTo
Open obligations: none
-/
import QuantityCalculus.Units.Basic

namespace QuantityCalculus

/-- Why an operation on units has no result. -/
inductive UnitError (α : Type) where
  | incompatibleDimensions (source target : Dimension)
  | nonIntegralExponent (exponent : Rat)
  | unsupportedExponent (exponent : α)
  | exponentOutOfRange
deriving Repr

namespace CompoundUnit

variable {α : Type}

/-- The product of two units, unless an exponent leaves its range. -/
def productWith (u v : CompoundUnit α) : Except (UnitError α) (CompoundUnit α) :=
  match u.mul? v with
  | some w => .ok w
  | none => .error .exponentOutOfRange

/-- The quotient of two units, unless an exponent leaves its range. -/
def quotientBy (u v : CompoundUnit α) : Except (UnitError α) (CompoundUnit α) :=
  match u.div? v with
  | some w => .ok w
  | none => .error .exponentOutOfRange

/-- A unit raised to a rational power, which has to lead to integer exponents within their range:
the square root of a square metre is a metre, that of a metre does not exist. -/
def rationalPower (u : CompoundUnit α) (q : Rat) : Except (UnitError α) (CompoundUnit α) :=
  match Product.rationalPower u q with
  | .ok w => .ok w
  | .error .nonIntegral => .error (.nonIntegralExponent q)
  | .error .outOfRange => .error .exponentOutOfRange

variable [Scalar α]

/-- A unit raised to the fraction that a number stands for. -/
def scalarPower (u : CompoundUnit α) (x : α) : Except (UnitError α) (CompoundUnit α) :=
  match Scalar.exponent? x with
  | some q => rationalPower u q
  | none =>
      if Scalar.isFinite x && (Scalar.toInt? x).isSome then .error .exponentOutOfRange
      else .error (.unsupportedExponent x)

/-- What a value in one unit is multiplied by to express it in another unit of the same
dimension. -/
def ratioTo (source target : CompoundUnit α) : Except (UnitError α) α :=
  let sourceDimension := dimension source
  let targetDimension := dimension target
  if sourceDimension.agrees targetDimension then .ok (factor source / factor target)
  else .error (.incompatibleDimensions sourceDimension targetDimension)

end CompoundUnit

end QuantityCalculus
