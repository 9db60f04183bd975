/-
Module: QuantityCalculus.Dimension.Registry
Layer: Dimension
Purpose: The dimensions that are known by name.
Imports: QuantityCalculus.Catalog, QuantityCalculus.Dimension.Basic
Trusted boundary: none
Main exports: DimensionRegistry, DimensionRegistry.addBase, DimensionRegistry.addDerived,
  DimensionRegistry.get, DimensionRegistry.namesFor, DimensionRegistry.nameFor
Open obligations: none
-/
import QuantityCalculus.Catalog
import QuantityCalculus.Dimension.Basic

namespace QuantityCalculus

/-- Base dimensions, and names for products of them. -/
structure DimensionRegistry where
  catalog : Catalog Unit

namespace DimensionRegistry

def empty : DimensionRegistry := ⟨Catalog.empty⟩

/-- Declares a base dimension. -/
def addBase (r : DimensionRegistry) (name : String) :
    Except CatalogError (Dimension × DimensionRegistry) :=
  (r.catalog.addBase name ()).map fun catalog => (Dimension.base name, ⟨catalog⟩)

/-- Gives a name to a dimension. -/
def addDerived (r : DimensionRegistry) (name : String) (dimension : Dimension) :
    Except CatalogError (Dimension × DimensionRegistry) :=
  (r.catalog.addDerived name dimension ()).map fun catalog => (dimension, ⟨catalog⟩)

/-- The dimension of a given name. -/
def get (r : DimensionRegistry) (name : String) : Except CatalogError Dimension :=
  r.catalog.expansion name

def contains (r : DimensionRegistry) (name : String) : Bool := r.catalog.contains name

def isBase (r : DimensionRegistry) (name : String) : Bool := r.catalog.isBase name

/-- The name of a dimension that is itself a declared base dimension. -/
def baseName? (r : DimensionRegistry) (d : Dimension) : Option String :=
  match d.factors with
  | [f] => if f.exponent == Exponent.one && r.isBase f.base then some f.base else none
  | _ => none

/-- All names of a dimension, a base dimension's own name first. -/
def namesFor (r : DimensionRegistry) (d : Dimension) : List String :=
  (r.baseName? d).toList ++ r.catalog.derivedNamesFor d

/-- The first name of a dimension, or its text if it has none. -/
def nameFor (r : DimensionRegistry) (d : Dimension) : String :=
  (r.namesFor d).head?.getD d.text

end DimensionRegistry

end QuantityCalculus
