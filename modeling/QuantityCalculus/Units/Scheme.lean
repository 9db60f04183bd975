/-
Module: QuantityCalculus.Units.Scheme
Layer: Units
Purpose: Questions about the display schemes of a registry.  Each answer comes with the registry
  that remembers it.
Imports: QuantityCalculus.Units.Registry
Trusted boundary: none
Main exports: UnitRegistry.schemeNames, UnitRegistry.unitsFor, UnitRegistry.schemeDimensions,
  UnitRegistry.closestUnit
Open obligations: none
-/
import QuantityCalculus.Units.Registry

namespace QuantityCalculus

/-- Appends an element unless it is equal to one that is already there. -/
def appendNew {τ : Type} (same : τ → τ → Bool) (seen : List τ) (x : τ) : List τ :=
  if seen.any fun y => same y x then seen else seen ++ [x]

variable {α : Type} [Scalar α]

/-- A unit together with the distance of its ratio to a source unit from one. -/
structure RankedUnit (α : Type) where
  unit : CompoundUnit α
  distance : α

/-- Keeps the unit that is closest so far; of equally close ones the earlier. -/
def RankedUnit.closer (best : Option (RankedUnit α)) (candidate : RankedUnit α) :
    Option (RankedUnit α) :=
  match best with
  | none => some candidate
  | some b => if candidate.distance < b.distance then some candidate else some b

/-- Of several units, the one whose ratio to a unit of the given factor is closest to one. -/
def closestOf (units : List (CompoundUnit α)) (sourceFactor : α) : Option (CompoundUnit α) :=
  let ranked := units.map fun unit =>
    (⟨unit, Scalar.abs (unit.factor / sourceFactor - 1)⟩ : RankedUnit α)
  (ranked.foldl RankedUnit.closer none).map (·.unit)

namespace UnitRegistry

/-- The units of a scheme with their names, in the order of the registry. -/
def entriesIn (r : UnitRegistry α) (scheme : String) : List (String × UnitEntry α) :=
  r.entries.filter fun e => e.2.schemes.contains scheme

/-- The schemes of all units, each once, in the order of first use. -/
def currentSchemeNames (r : UnitRegistry α) : List String :=
  (r.entries.flatMap fun e => e.2.schemes).foldl (appendNew (· == ·)) []

/-- The units of a scheme that measure a dimension, in the order of the registry. -/
def currentUnitsFor (r : UnitRegistry α) (scheme : String) (dimension : Dimension) :
    List (CompoundUnit α) :=
  ((r.entriesIn scheme).map fun e => e.2.unit).filter fun u => u.dimension.agrees dimension

/-- The dimensions that a scheme has units for, each once, those of fewer base dimensions first. -/
def currentSchemeDimensions (r : UnitRegistry α) (scheme : String) : List Dimension :=
  let dimensions := (r.entriesIn scheme).map fun e => e.2.unit.dimension
  sortBy (fun a b => Dimension.cardinality a ≤ Dimension.cardinality b)
    (dimensions.foldl (appendNew Product.agrees) [])

/-- The schemes of all units, as `currentSchemeNames` or from memory. -/
def schemeNames (r : UnitRegistry α) : List String × UnitRegistry α :=
  match r.memory.schemeNames with
  | some names => (names, r)
  | none =>
      let names := r.currentSchemeNames
      (names, { r with memory := { r.memory with schemeNames := some names } })

/-- The units of a scheme for a dimension, as `currentUnitsFor` or from memory. -/
def unitsFor (r : UnitRegistry α) (scheme : String) (dimension : Dimension) :
    List (CompoundUnit α) × UnitRegistry α :=
  let question := (scheme, dimension.signature)
  match r.memory.units.lookup question with
  | some units => (units, r)
  | none =>
      let units := r.currentUnitsFor scheme dimension
      (units, { r with memory := { r.memory with units := (question, units) :: r.memory.units } })

/-- The dimensions of a scheme, as `currentSchemeDimensions` or from memory. -/
def schemeDimensions (r : UnitRegistry α) (scheme : String) : List Dimension × UnitRegistry α :=
  match r.memory.dimensions.lookup scheme with
  | some dimensions => (dimensions, r)
  | none =>
      let dimensions := r.currentSchemeDimensions scheme
      (dimensions,
        { r with
          memory := { r.memory with dimensions := (scheme, dimensions) :: r.memory.dimensions } })

/-- Among the units of a scheme for a dimension, the one whose ratio to a source unit is closest to
one, or what was answered before for a source unit with the same names and exponents. -/
def closestUnit (r : UnitRegistry α) (source : CompoundUnit α) (scheme : String)
    (dimension : Dimension) : Option (CompoundUnit α) × UnitRegistry α :=
  let question : ClosestQuestion := ⟨source.signature, scheme, dimension.signature⟩
  match r.memory.closest.lookup question with
  | some unit => (unit, r)
  | none =>
      let (units, r) := r.unitsFor scheme dimension
      let unit := closestOf units source.factor
      (unit, { r with memory := { r.memory with closest := (question, unit) :: r.memory.closest } })

end UnitRegistry

end QuantityCalculus
