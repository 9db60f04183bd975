/-
Module: QuantityCalculus.Units.Simplification
Layer: Units
Purpose: The more readable form of a composite unit.
Imports: QuantityCalculus.Units.Registry
Trusted boundary: none
Main exports: Simplified, UnitRegistry.simplify
Open obligations: none
-/
import QuantityCalculus.Units.Registry

namespace QuantityCalculus

/-- A unit in a more readable form, and what a number is multiplied by to switch to it. -/
structure Simplified (α : Type) where
  unit : CompoundUnit α
  factor : α

variable {α : Type} [Scalar α]

/-- Two conversion factors count as the same if they differ by less than rounding may account
for. -/
def sameFactor (a b : α) : Bool :=
  Scalar.abs (a - b)
    ≤ Scalar.ofDecimal 1 (-12) * Scalar.larger (Scalar.abs a) (Scalar.abs b)

/-- The first of several factors that has another name than a given unit and, on its own, the same
dimension. -/
def partner? (factors : List (Factor (NamedUnit α))) (unit : NamedUnit α) (dimension : Dimension) :
    Option (NamedUnit α) :=
  (factors.find? fun f =>
    f.base.symbol != unit.symbol
      && (CompoundUnit.ofNamed f.base).dimension.agrees dimension).map (·.base)

/-- What has become of the factors seen so far: the factors in terms of the first unit of each base
dimension, and the scalar that accounts for the replacements. -/
structure MergedFactors (α : Type) where
  factors : List (Factor (NamedUnit α))
  scalar : α

/-- Appends a factor, in terms of an earlier unit of the same base dimension if there is one. -/
def MergedFactors.append (m : MergedFactors α) (f : Factor (NamedUnit α)) : MergedFactors α :=
  let single := CompoundUnit.ofNamed f.base
  let dimension := single.dimension
  match if dimension.isBase then partner? m.factors f.base dimension else none with
  | some target =>
      let ratio := single.factor / (CompoundUnit.ofNamed target).factor
      ⟨m.factors ++ [⟨target, f.exponent⟩], m.scalar * Scalar.powInt ratio f.exponent.val⟩
  | none => ⟨m.factors ++ [f], m.scalar⟩

/-- Merges the factors that share a base dimension into the first of them, so that `m·km` becomes
`m²` with a factor of 1000. -/
def mergeSameDimension (u : CompoundUnit α) : Simplified α :=
  let m := u.factors.foldl MergedFactors.append ⟨[], 1⟩
  ⟨Product.ofFactors m.factors, m.scalar⟩

namespace UnitRegistry

/-- The primitive unit that a product of primitive units consists of. -/
def primitiveMatch? (r : UnitRegistry α) (p : Product String) : Option String :=
  match p.factors with
  | [f] => if f.exponent = Exponent.one && r.catalog.isBase f.base then some f.base else none
  | _ => none

/-- The registered unit that a composite unit amounts to exactly. -/
def matchingUnit? (r : UnitRegistry α) (u : CompoundUnit α) : Option (CompoundUnit α) :=
  match u.asNamed? with
  | some _ => none
  | none =>
      let p := u.primitiveProduct
      let candidates := (r.primitiveMatch? p).toList ++ r.catalog.derivedNamesFor p
      (candidates.filterMap fun name => (r.catalog.find? name).map (·.unit)).find? fun candidate =>
        sameFactor candidate.factor u.factor

/-- Brings a unit into a more readable form.  A dimensionless one becomes no unit at all, one that
amounts to a registered unit becomes that unit, and in all others the factors that share a base
dimension are merged. -/
def simplify (r : UnitRegistry α) (u : CompoundUnit α) : Simplified α :=
  if u.isScalar then ⟨CompoundUnit.scalar, 1⟩
  else if u.isDimensionless then ⟨CompoundUnit.scalar, u.factor⟩
  else
    match r.matchingUnit? u with
    | some named => ⟨named, 1⟩
    | none =>
        let merged := mergeSameDimension u
        ⟨(r.matchingUnit? merged.unit).getD merged.unit, merged.factor⟩

end UnitRegistry

end QuantityCalculus
