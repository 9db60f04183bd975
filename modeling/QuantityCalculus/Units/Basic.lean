/-
Module: QuantityCalculus.Units.Basic
Layer: Units
Purpose: Named units, products of them, and their expansion into primitive units.
Imports: QuantityCalculus.Dimension.Basic
Trusted boundary: none
Main exports: NamedUnit, CompoundUnit, Expansion, CompoundUnit.expansion, CompoundUnit.factor,
  CompoundUnit.dimension, CompoundUnit.asNamed?
Open obligations: none
-/
import QuantityCalculus.Dimension.Basic

namespace QuantityCalculus

/-- The symbol of a unit and the two forms of its long name. -/
structure UnitNames where
  symbol : String
  singular : String
  plural : String
deriving DecidableEq, Repr

/-- A unit without a long name is called by its symbol. -/
def UnitNames.ofSymbol (symbol : String) : UnitNames := ⟨symbol, symbol, symbol⟩

/-- A unit with a name of its own: either primitive, that is the unit a base dimension is measured
in, or derived, that is a multiple of a product of other units. -/
inductive NamedUnit (α : Type) where
  | primitive (names : UnitNames) (dimension : String)
  | derived (names : UnitNames) (factor : α) (definition : Product (NamedUnit α))

namespace NamedUnit

variable {α : Type}

def names : NamedUnit α → UnitNames
  | primitive names _ => names
  | derived names _ _ => names

def symbol (u : NamedUnit α) : String := u.names.symbol

def isPrimitive : NamedUnit α → Bool
  | primitive _ _ => true
  | derived _ _ _ => false

/-- The base dimension that a primitive unit measures. -/
def baseDimension? : NamedUnit α → Option String
  | primitive _ dimension => some dimension
  | derived _ _ _ => none

/-- Units are told apart by their symbols. -/
instance : Keyed (NamedUnit α) := ⟨symbol⟩

end NamedUnit

/-- A product of named units. -/
abbrev CompoundUnit (α : Type) := Product (NamedUnit α)

/-- A unit expressed in primitive units, and the number of these that make it up. -/
structure Expansion (α : Type) where
  unit : CompoundUnit α
  factor : α

namespace Expansion

variable {α : Type} [Scalar α]

/-- The expansion of a power of a unit. -/
def power (x : Expansion α) (e : Exponent) : Expansion α :=
  ⟨x.unit.power e, Scalar.powInt x.factor e.val⟩

/-- The expansion of a product of units, multiplied from left to right. -/
def product (xs : List (Expansion α)) : Expansion α :=
  ⟨Product.ofProducts (xs.map (·.unit)), (xs.map (·.factor)).foldl (· * ·) 1⟩

end Expansion

section Expand

variable {α : Type} [Scalar α]

mutual

/-- A primitive unit is its own expansion.  A derived unit expands like its definition, with the
factor multiplied by its own. -/
def NamedUnit.expansion : NamedUnit α → Expansion α
  | .primitive names dimension => ⟨Product.ofBase (.primitive names dimension), 1⟩
  | .derived _ factor definition =>
      let inner := CompoundUnit.expansion definition
      ⟨inner.unit, factor * inner.factor⟩
termination_by structural u => u

/-- A product of units expands factor by factor. -/
def CompoundUnit.expansion : CompoundUnit α → Expansion α
  | ⟨factors⟩ => Expansion.product (expandFactors factors)
termination_by structural u => u

/-- The expansions of a list of factors. -/
def expandFactors : List (Factor (NamedUnit α)) → List (Expansion α)
  | [] => []
  | ⟨base, exponent⟩ :: rest => (NamedUnit.expansion base).power exponent :: expandFactors rest
termination_by structural factors => factors

end

end Expand

namespace CompoundUnit

variable {α : Type}

/-- The unit of plain numbers. -/
def scalar : CompoundUnit α := Product.unity

def isScalar (u : CompoundUnit α) : Bool := u.isUnity

/-- The unit that consists of one named unit. -/
def ofNamed (u : NamedUnit α) : CompoundUnit α := Product.ofBase u

/-- The named unit that a unit consists of, if it is a single one to the first power. -/
def asNamed? (u : CompoundUnit α) : Option (NamedUnit α) :=
  match u.factors with
  | [f] => if f.exponent = Exponent.one then some f.base else none
  | _ => none

/-- Whether a unit is written as a pure reciprocal. -/
def isReciprocal (u : CompoundUnit α) : Bool :=
  !u.isUnity && u.factors.all fun f => decide (f.exponent.val < 0)

/-- The product of the base dimensions of the primitive units of a unit. -/
def primitiveDimension (u : CompoundUnit α) : Dimension :=
  Product.ofProducts (u.factors.filterMap fun f =>
    f.base.baseDimension?.map fun name => (Dimension.base name).power f.exponent)

variable [Scalar α]

/-- What a value in a unit is multiplied by to express it in primitive units. -/
def factor (u : CompoundUnit α) : α := (expansion u).factor

/-- The dimension that a unit measures. -/
def dimension (u : CompoundUnit α) : Dimension := (expansion u).unit.primitiveDimension

def isDimensionless (u : CompoundUnit α) : Bool := u.dimension.isDimensionless

end CompoundUnit

end QuantityCalculus
