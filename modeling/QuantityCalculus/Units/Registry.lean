/-
Module: QuantityCalculus.Units.Registry
Layer: Units
Purpose: The units that are known by name, the schemes they are displayed in, and what is remembered
  of earlier questions about schemes.
Imports: QuantityCalculus.Catalog, QuantityCalculus.Order.Insertion, QuantityCalculus.Units.Basic
Trusted boundary: none
Main exports: UnitEntry, SchemeMemory, UnitRegistry, UnitRegistryError, UnitRegistry.addPrimitive,
  UnitRegistry.addDerived, UnitRegistry.get, UnitRegistry.entries, UnitRegistry.copy
Open obligations: none
-/
import QuantityCalculus.Catalog
import QuantityCalculus.Order.Insertion
import QuantityCalculus.Units.Basic

namespace QuantityCalculus

/-- A registered unit and the schemes that display values in it. -/
structure UnitEntry (α : Type) where
  unit : CompoundUnit α
  schemes : List String

/-- The names of a product's factors with their exponents, in the order of the names.  Products that
differ only in the order of their factors have the same signature. -/
abbrev FactorSignature := List (String × Int)

/-- The order of named exponents: by name, then by exponent. -/
def signatureLE (a b : String × Int) : Bool :=
  a.1 < b.1 || (a.1 == b.1 && a.2 ≤ b.2)

def Product.signature {β : Type} [Keyed β] (p : Product β) : FactorSignature :=
  sortBy signatureLE (p.factors.map fun f => (key f.base, f.exponent.val))

/-- A question for the unit of a scheme that is closest to a source unit. -/
structure ClosestQuestion where
  source : FactorSignature
  scheme : String
  dimension : FactorSignature
deriving DecidableEq, Repr

/-- The answers given since the last registration. -/
structure SchemeMemory (α : Type) where
  schemeNames : Option (List String)
  dimensions : List (String × List Dimension)
  units : List ((String × FactorSignature) × List (CompoundUnit α))
  closest : List (ClosestQuestion × Option (CompoundUnit α))

def SchemeMemory.empty {α : Type} : SchemeMemory α := ⟨none, [], [], []⟩

/-- Known units.  The primitive units are the base entries of the catalog, and a derived unit stands
for a product of primitive units. -/
structure UnitRegistry (α : Type) where
  catalog : Catalog (UnitEntry α)
  memory : SchemeMemory α

/-- Why a unit could not be registered or found. -/
inductive UnitRegistryError where
  | catalog (error : CatalogError)
  | duplicatePrimitiveUnit (dimension existing : String)
  | notPrimitive (name : String)
deriving DecidableEq, Repr

def UnitRegistryError.message : UnitRegistryError → String
  | .catalog error => error.message
  | .duplicatePrimitiveUnit dimension existing =>
      "Dimension '" ++ dimension ++ "' already has the primitive unit '" ++ existing ++ "'"
  | .notPrimitive name => "Unit '" ++ name ++ "' is not a primitive unit"

namespace UnitRegistry

variable {α : Type}

def empty : UnitRegistry α := ⟨Catalog.empty, SchemeMemory.empty⟩

instance : Inhabited (UnitRegistry α) := ⟨empty⟩

/-- The same units with nothing remembered. -/
def copy (r : UnitRegistry α) : UnitRegistry α := ⟨r.catalog, SchemeMemory.empty⟩

/-- All registered units with their names: the primitive ones first, then the derived ones. -/
def entries (r : UnitRegistry α) : List (String × UnitEntry α) := r.catalog.contents

def contains (r : UnitRegistry α) (name : String) : Bool := r.catalog.contains name

/-- The unit of a given name. -/
def get (r : UnitRegistry α) (name : String) : Except UnitRegistryError (CompoundUnit α) :=
  match r.catalog.get name with
  | .ok entry => .ok entry.unit
  | .error e => .error (.catalog e)

/-- The name of the primitive unit that measures a base dimension. -/
def primitiveUnitFor? (r : UnitRegistry α) (dimension : String) : Option String :=
  (r.catalog.base.find? fun e =>
    (e.content.unit.asNamed?.bind NamedUnit.baseDimension?) == some dimension).map (·.name)

/-- Registers a primitive unit.  Its dimension must not have one yet.  Everything remembered is
forgotten. -/
def addPrimitive (r : UnitRegistry α) (unit : NamedUnit α) (schemes : List String) :
    Except UnitRegistryError (CompoundUnit α × UnitRegistry α) :=
  match unit with
  | .derived names _ _ => .error (.notPrimitive names.symbol)
  | .primitive names dimension =>
      match r.primitiveUnitFor? dimension with
      | some existing => .error (.duplicatePrimitiveUnit dimension existing)
      | none =>
          let named := CompoundUnit.ofNamed unit
          match r.catalog.addBase names.symbol ⟨named, schemes⟩ with
          | .error e => .error (.catalog e)
          | .ok catalog => .ok (named, ⟨catalog, SchemeMemory.empty⟩)

end UnitRegistry

/-- The product of names of primitive units that a unit stands for. -/
def CompoundUnit.primitiveProduct {α : Type} [Scalar α] (u : CompoundUnit α) : Product String :=
  Product.ofFactors ((expansion u).unit.factors.map fun f => ⟨f.base.symbol, f.exponent⟩)

/-- Registers a unit as a derived one.  Everything remembered is forgotten. -/
def UnitRegistry.addDerived {α : Type} [Scalar α] (r : UnitRegistry α) (unit : NamedUnit α)
    (schemes : List String) : Except UnitRegistryError (CompoundUnit α × UnitRegistry α) :=
  let named := CompoundUnit.ofNamed unit
  match r.catalog.addDerived unit.symbol named.primitiveProduct ⟨named, schemes⟩ with
  | .error e => .error (.catalog e)
  | .ok catalog => .ok (named, ⟨catalog, SchemeMemory.empty⟩)

end QuantityCalculus
