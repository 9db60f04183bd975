/-
Module: QuantityCalculus.Operator.Preflight
Layer: Operator
Purpose: The checks that operands have to pass before an operator is applied to them.
Imports: QuantityCalculus.Evaluation.Diagnostic, QuantityCalculus.Units.Registry
Trusted boundary: none
Main exports: Environment, Preflight, Preflight.check
Open obligations: none
-/
import QuantityCalculus.Evaluation.Diagnostic
import QuantityCalculus.Units.Registry

namespace QuantityCalculus

/-- What an operator may look at besides its operands. -/
structure Environment (α : Type) where
  /-- The unit that the user prefers for angles, if it is known. -/
  angleUnit : Option (CompoundUnit α)
  /-- The dimension that is called an angle. -/
  namedAngle : Option Dimension
  units : UnitRegistry α

namespace Environment

variable {α : Type} [Scalar α]

/-- The dimension that angles have: that of the preferred unit, else the one that is called an
angle. -/
def angleDimension (env : Environment α) : Option Dimension :=
  match env.angleUnit with
  | some unit => some unit.dimension
  | none => env.namedAngle

end Environment

/-- The checks on operands. -/
inductive Preflight where
  /-- All operands are accepted. -/
  | noCheck
  /-- Both operands have the same dimension, or one of them has none and adopts the unit of the
  other. -/
  | matchingUnits
  /-- Both operands have the same dimension.  A plain number does not stand in for a unit. -/
  | sameDimension
  /-- No operand has a dimension.  Every one that does is reported. -/
  | noUnits
  /-- No percentage has a dimension.  Other operands may. -/
  | percentAware
  /-- The operands pass another check, and the right one is not zero. -/
  | nonZeroDivisor (inner : Preflight)
  /-- The right operand has no dimension. -/
  | dimensionlessExponent
  /-- The operand is an angle or a plain number. -/
  | angleOperand
deriving DecidableEq, Repr, Inhabited

namespace Preflight

variable {α : Type} [Scalar α]

/-- The report on an operand that does not have the expected dimension, and on the operand that it
should have matched. -/
def mismatch (expected : Dimension) (offending : Operand α) (other : Option (Operand α)) :
    Diagnostic α :=
  ⟨.dimensionMismatch expected offending.value.dimension, offending.span, other.map (·.span)⟩

/-- Reports on those of the operands that have a dimension. -/
def requireDimensionless (operands : List (Operand α)) : List (Diagnostic α) :=
  (operands.filter fun o => !o.value.isDimensionless).map fun o =>
    mismatch Dimension.dimensionless o none

/-- What is wrong with the operands.  They are accepted if there is nothing. -/
def check (env : Environment α) (operands : Operands α) : Preflight → List (Diagnostic α)
  | noCheck => []
  | matchingUnits =>
      let left := operands.left
      match operands.right with
      | none => []
      | some right =>
          if left.value.isDimensionless || right.value.isDimensionless
              || left.value.dimension.agrees right.value.dimension then []
          else [mismatch left.value.dimension right (some left)]
  | sameDimension =>
      let left := operands.left
      match operands.right with
      | none => []
      | some right =>
          if left.value.dimension.agrees right.value.dimension then []
          else [mismatch right.value.dimension left (some right)]
  | noUnits => requireDimensionless operands.toList
  | percentAware =>
      requireDimensionless (operands.toList.filter fun o => o.value.kind == .percent)
  | nonZeroDivisor inner =>
      match check env operands inner with
      | [] =>
          match operands.right with
          | some divisor =>
              if divisor.value.isZero then [⟨.divideByZero, divisor.span, none⟩] else []
          | none => []
      | reports => reports
  | dimensionlessExponent =>
      match operands.right with
      | some exponent =>
          if exponent.value.isDimensionless then []
          else [mismatch Dimension.dimensionless exponent (some operands.left)]
      | none => []
  | angleOperand =>
      let operand := operands.left
      if operand.value.isDimensionless then []
      else
        match env.angleDimension with
        | some angle =>
            if angle.agrees operand.value.dimension then [] else [mismatch angle operand none]
        | none => [mismatch Dimension.dimensionless operand none]

end Preflight

end QuantityCalculus
