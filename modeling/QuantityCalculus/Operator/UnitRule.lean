/-
Module: QuantityCalculus.Operator.UnitRule
Layer: Operator
Purpose: How operators bring their operands into common units, and the unit of their results.
Imports: QuantityCalculus.Operator.Preflight
Trusted boundary: none
Main exports: Calculation, UnitRule, UnitRule.calculate
Open obligations: none
-/
import QuantityCalculus.Operator.Preflight

namespace QuantityCalculus

/-- The numbers that a kernel is applied to, the unit of its result, and what the result is
multiplied by. -/
structure Calculation (α : Type) where
  first : α
  second : Option α
  unit : CompoundUnit α
  scale : α

/-- The rules for units. -/
inductive UnitRule where
  /-- The right operand is brought into the unit of the left one, which is the unit of the result.
  An operand without a dimension adopts the unit of the other. -/
  | matching
  /-- Like `matching`, for results without a unit. -/
  | matchingScalar
  /-- The units are multiplied. -/
  | productUnit
  /-- The units are divided.  A plain number divided by a quantity is in the reciprocal unit. -/
  | quotientUnit
  /-- The unit of the left operand is raised to the right one. -/
  | powerUnit
  /-- The exponents of the unit are halved. -/
  | rootUnit
  /-- The unit of the left operand is kept. -/
  | sameUnit
  /-- The operands are plain numbers, and so is the result. -/
  | scalarUnit
  /-- The kernel is applied to a base and a percentage, on whichever side the percentage is
  written.  The result is in the unit of the base. -/
  | percentOf
  /-- The operand is an angle.  Plain numbers are in the preferred unit for angles. -/
  | toRadians
  /-- The result is an angle, in the preferred unit for angles if there is one. -/
  | fromRadians
  /-- The left operand is expressed in the unit of the right one. -/
  | conversion
deriving DecidableEq, Repr, Inhabited

namespace UnitRule

variable {α : Type} [Scalar α]

/-- A calculation whose result is not scaled. -/
def plainly (first : α) (second : Option α) (unit : CompoundUnit α) : Calculation α :=
  ⟨first, second, unit, 1⟩

/-- The report that an operation on units has no result. -/
def failure (error : UnitError α) (primary : Operand α) (secondary : Option (Operand α)) :
    List (Diagnostic α) :=
  [⟨.unit error, primary.span, secondary.map (·.span)⟩]

/-- Matches the right operand with the left one. -/
def matchOperands (left right : Operand α) : Except (List (Diagnostic α)) (Calculation α) :=
  let l := left.value
  let r := right.value
  match l.isDimensionless, r.isDimensionless with
  | true, true => .ok (plainly l.scalarValue (some r.scalarValue) CompoundUnit.scalar)
  | true, false => .ok (plainly l.scalarValue (some r.number) r.unit)
  | false, true => .ok (plainly l.number (some r.scalarValue) l.unit)
  | false, false =>
      match r.convertTo l.unit with
      | .ok converted => .ok (plainly l.number (some converted.number) l.unit)
      | .error e => .error (failure e right none)

/-- Multiplies the units of two operands. -/
def multiplyOperands (left right : Operand α) : Except (List (Diagnostic α)) (Calculation α) :=
  match left.value.unit.productWith right.value.unit with
  | .ok unit => .ok (plainly left.value.number (some right.value.number) unit)
  | .error e => .error (failure e right (some left))

/-- Divides the units of two operands.  If only the divisor has a dimension, and is not written as a
pure reciprocal, the dividend counts as a plain number. -/
def divideOperands (left right : Operand α) : Except (List (Diagnostic α)) (Calculation α) :=
  let l := left.value
  let r := right.value
  let reciprocal := l.isDimensionless && !r.isDimensionless && !r.unit.isReciprocal
  let x := if reciprocal then l.scalarValue else l.number
  let numerator := if reciprocal then CompoundUnit.scalar else l.unit
  match numerator.quotientBy r.unit with
  | .ok unit => .ok (plainly x (some r.number) unit)
  | .error e => .error (failure e right (some left))

/-- Raises the unit of an operand to a power. -/
def raiseOperand (base exponent : Operand α) : Except (List (Diagnostic α)) (Calculation α) :=
  let y := exponent.value.scalarValue
  if base.value.isDimensionless then
    .ok (plainly base.value.scalarValue (some y) CompoundUnit.scalar)
  else
    match base.value.unit.scalarPower y with
    | .ok unit => .ok (plainly base.value.number (some y) unit)
    | .error e => .error (failure e exponent (some base))

/-- Halves the exponents of the unit of an operand. -/
def rootOperand (operand : Operand α) : Except (List (Diagnostic α)) (Calculation α) :=
  if operand.value.isDimensionless then
    .ok (plainly operand.value.scalarValue none CompoundUnit.scalar)
  else
    match operand.value.unit.scalarPower (Scalar.ofDecimal 5 (-1)) with
    | .ok unit => .ok (plainly operand.value.number none unit)
    | .error e => .error (failure e operand none)

/-- Tells which operand is the percentage: the right one, unless only the left one is. -/
def percentOperands (left right : Quantity α) : Calculation α :=
  let swapped := left.kind == .percent && !(right.kind == .percent)
  let base := if swapped then right else left
  let percent := if swapped then left else right
  plainly base.number (some percent.scalarValue) base.unit

/-- The number of radians of an angle.  The primitive unit of the dimension of angles is taken to be
the radian, and so is the unit of plain numbers if no other is preferred. -/
def radians (env : Environment α) (q : Quantity α) : α :=
  if !q.isDimensionless then q.number * q.unit.factor
  else if q.kind == .angle then q.scalarValue
  else
    match env.angleUnit with
    | some unit => q.scalarValue * unit.factor
    | none => q.scalarValue

/-- The calculation that a rule leads to, or the reports that there is none.  A rule for two
operands has nothing to report on a single one. -/
def calculate (env : Environment α) (operands : Operands α) (rule : UnitRule) :
    Except (List (Diagnostic α)) (Calculation α) :=
  let left := operands.left
  let withRight (f : Operand α → Except (List (Diagnostic α)) (Calculation α)) :=
    match operands.right with
    | some right => f right
    | none => .error []
  match rule with
  | matching => withRight fun right => matchOperands left right
  | matchingScalar =>
      withRight fun right =>
        (matchOperands left right).map fun c => { c with unit := CompoundUnit.scalar }
  | productUnit => withRight fun right => multiplyOperands left right
  | quotientUnit => withRight fun right => divideOperands left right
  | powerUnit => withRight fun right => raiseOperand left right
  | rootUnit => rootOperand left
  | sameUnit =>
      .ok (plainly left.value.number (operands.right.map (·.value.number)) left.value.unit)
  | scalarUnit =>
      .ok (plainly left.value.scalarValue (operands.right.map (·.value.scalarValue))
        CompoundUnit.scalar)
  | percentOf => withRight fun right => .ok (percentOperands left.value right.value)
  | toRadians => .ok (plainly (radians env left.value) none CompoundUnit.scalar)
  | fromRadians =>
      let x := left.value.scalarValue
      match env.angleUnit with
      | some unit => .ok ⟨x, none, unit, 1 / unit.factor⟩
      | none => .ok (plainly x none CompoundUnit.scalar)
  | conversion =>
      withRight fun right =>
        match left.value.convertTo right.value.unit with
        | .ok converted => .ok (plainly converted.number none converted.unit)
        | .error e => .error (failure e left (some right))

end UnitRule

end QuantityCalculus
