/-
Module: QuantityCalculus.Quantity.Basic
Layer: Quantity
Purpose: Numbers with units, their conversion and their equality.
Imports: QuantityCalculus.Units.Conversion
Trusted boundary: none
Main exports: ValueKind, Quantity, Quantity.scalarValue, Quantity.convertTo, Quantity.agrees
Open obligations: none
-/
import QuantityCalculus.Units.Conversion

namespace QuantityCalculus

/-- What a quantity is meant as.  Percentages have operators of their own; an angle is a number that
is known to measure an angle even without a unit. -/
inductive ValueKind where
  | number
  | percent
  | angle
deriving DecidableEq, Repr, Inhabited

/-- A number together with the unit it counts. -/
structure Quantity (α : Type) where
  number : α
  unit : CompoundUnit α
  kind : ValueKind

namespace Quantity

variable {α : Type}

/-- A number of units. -/
def of (number : α) (unit : CompoundUnit α) : Quantity α := ⟨number, unit, .number⟩

/-- A number without a unit. -/
def plain (number : α) : Quantity α := of number CompoundUnit.scalar

/-- A percentage. -/
def percent (number : α) : Quantity α := ⟨number, CompoundUnit.scalar, .percent⟩

/-- The unit, unless the quantity is a plain number. -/
def unit? (q : Quantity α) : Option (CompoundUnit α) :=
  if q.unit.isScalar then none else some q.unit

variable [Scalar α]

/-- One of a unit. -/
def ofUnit (unit : CompoundUnit α) : Quantity α := of 1 unit

def dimension (q : Quantity α) : Dimension := q.unit.dimension

def isDimensionless (q : Quantity α) : Bool := q.unit.isDimensionless

def isZero (q : Quantity α) : Bool := q.number == 0

/-- The number with a dimensionless unit like `km/m` folded into it. -/
def scalarValue (q : Quantity α) : α :=
  if q.unit.isScalar then q.number else q.number * q.unit.factor

/-- The same quantity in another unit of the same dimension. -/
def convertTo (q : Quantity α) (target : CompoundUnit α) : Except (UnitError α) (Quantity α) :=
  if q.unit.agrees target then .ok q
  else (q.unit.ratioTo target).map fun ratio => ⟨q.number * ratio, target, q.kind⟩

/-- Whether two quantities are equal, which is decided in the unit of the first one.  A percentage
never equals a number. -/
def agrees (a b : Quantity α) : Bool :=
  (a.kind == .percent) == (b.kind == .percent)
    && match b.convertTo a.unit with
      | .ok converted => a.number == converted.number
      | .error _ => false

end Quantity

end QuantityCalculus
