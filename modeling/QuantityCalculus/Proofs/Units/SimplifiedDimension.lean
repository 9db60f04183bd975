/-
Module: QuantityCalculus.Proofs.Units.SimplifiedDimension
Layer: Proofs
Purpose: Simplification keeps the dimension of a unit over every history of a registry and whatever
  the conversion factors are.  Where two primitive units measure one base dimension, the exponents
  that come together when factors are merged have to stay in range as well.
Imports: QuantityCalculus.Proofs.Units.History, QuantityCalculus.Proofs.Units.Simplification
Trusted boundary: none
Main exports: total_mergeSameDimension, mergeSameDimension_dimension_of_extent,
  matchingUnit?_dimension_of_extent, isDimensionless_of_simplify, CompoundUnit.MergesInRange,
  simplify_dimensionExponent_of_mergesInRange, simplify_keeps_dimension
Open obligations: none
-/
import QuantityCalculus.Proofs.Units.History
import QuantityCalculus.Proofs.Units.Simplification

namespace QuantityCalculus

open Product (total weigh degree spread)

variable {α : Type} [Scalar α]

section OneDefinition

variable {us : List (NamedUnit α)} (oneDefinition : OneDefinition us)

include oneDefinition

/-- Merging keeps what the factors contribute to the exponent of a base dimension, as long as the
exponents stay in range as they are written. -/
theorem total_mergeSameDimension {u : CompoundUnit α} (inside : CompoundUnit.parts u ⊆ us)
    (magnitude : u.magnitude < 2147483648) (name : String) :
    total (NamedUnit.dimensionExponent name) (mergeSameDimension u).unit.factors
      = total (NamedUnit.dimensionExponent name) u.factors := by
  obtain ⟨gs, merged, replaced, bases⟩ := mergeSameDimension_spec u
  have insideNew :=
    CompoundUnit.parts_subset_of_bases (CompoundUnit.parts_subset_iff.mp inside) bases
  have light : ∀ symbol, spread symbol gs < 2147483648 := by
    intro symbol
    have lighter := Product.spread_le_weigh_one symbol gs
    rw [magnitude_replaces replaced] at lighter
    exact lighter.trans_lt magnitude
  rw [merged, CompoundUnit.total_ofFactors oneDefinition insideNew fun g _ _ => light _,
    total_replaces replaced]

/-- Merging keeps the dimension as long as the exponents stay in range: those of the unit as it is
written, and those of the unit and of the merged one when all definitions are multiplied out. -/
theorem mergeSameDimension_dimension_of_extent {u : CompoundUnit α}
    (inside : CompoundUnit.parts u ⊆ us) (magnitude : u.magnitude < 2147483648)
    (extent : u.extent < 2147483648) (merged : (mergeSameDimension u).unit.extent < 2147483648)
    (name : String) :
    (mergeSameDimension u).unit.dimensionExponent name = u.dimensionExponent name := by
  have insideMerged := parts_mergeSameDimension_subset inside
  calc
    (mergeSameDimension u).unit.dimensionExponent name
      = total (NamedUnit.dimensionExponent name) (mergeSameDimension u).unit.factors :=
        CompoundUnit.dimensionExponent_eq_total_of_extent (oneDefinition.mono insideMerged) merged
          name
    _ = total (NamedUnit.dimensionExponent name) u.factors :=
        total_mergeSameDimension oneDefinition inside magnitude name
    _ = u.dimensionExponent name :=
        (CompoundUnit.dimensionExponent_eq_total_of_extent (oneDefinition.mono inside) extent
          name).symm

/-- A registered unit that a unit amounts to has its dimension, if the unit is made of few primitive
ones. -/
theorem matchingUnit?_dimension_of_extent {r : UnitRegistry α} (indexed : r.Indexed)
    (registered : r.parts ⊆ us) {u k : CompoundUnit α} (inside : CompoundUnit.parts u ⊆ us)
    (extent : u.extent < 2147483648) (found : r.matchingUnit? u = some k) (name : String) :
    k.dimensionExponent name = u.dimensionExponent name := by
  obtain ⟨v, hv, rfl, -, same⟩ := UnitRegistry.matchingUnit?_spec indexed found
  have insideNamed : CompoundUnit.parts (CompoundUnit.ofNamed v) ⊆ us := by
    rw [CompoundUnit.parts_ofNamed]
    exact List.Subset.trans (indexed.parts_subset_of_named hv) registered
  exact CompoundUnit.dimensionExponent_of_light_expansion oneDefinition insideNamed inside same
    ((u.expansion_weigh_le fun _ => 1).trans_lt extent) name

/-- Only a dimensionless unit is simplified to no unit at all, even where the exponents of the
merged unit leave the range when its definitions are multiplied out. -/
theorem isDimensionless_of_simplify {r : UnitRegistry α} (indexed : r.Indexed) {u : CompoundUnit α}
    (inside : CompoundUnit.parts u ⊆ us) (magnitude : u.magnitude < 2147483648)
    (extent : u.extent < 2147483648) (scalar : (r.simplify u).unit = CompoundUnit.scalar) :
    u.isDimensionless = true := by
  have notMatched : ∀ w k, r.matchingUnit? w = some k → k ≠ CompoundUnit.scalar := by
    intro w k found isScalar
    obtain ⟨v, -, rfl, -⟩ := UnitRegistry.matchingUnit?_spec indexed found
    rw [CompoundUnit.ofNamed_eq] at isScalar
    cases isScalar
  rw [CompoundUnit.isDimensionless_iff]
  intro name
  rcases r.simplify_cases u with ⟨isScalar, -⟩ | ⟨isDimensionless, -⟩ | ⟨k, found, same⟩
    | ⟨k, found, same⟩ | same
  · rw [isScalar]
    rfl
  · exact (CompoundUnit.isDimensionless_iff u).mp isDimensionless name
  · rw [same] at scalar
    exact absurd scalar (notMatched u k found)
  · rw [same] at scalar
    exact absurd scalar (notMatched _ k found)
  · rw [same] at scalar
    rw [CompoundUnit.dimensionExponent_eq_total_of_extent (oneDefinition.mono inside) extent name,
      ← total_mergeSameDimension oneDefinition inside magnitude name, scalar]
    rfl

/-- Merging its factors keeps the exponents of a unit in range: no base dimension has two primitive
units among those that the unit is made of, or the merged unit can be multiplied out. -/
def CompoundUnit.MergesInRange (u : CompoundUnit α) : Prop :=
  OnePrimitive (CompoundUnit.parts u) ∨ (mergeSameDimension u).unit.extent < 2147483648

/-- Simplification keeps the dimension of a unit whose factors are merged in range. -/
theorem simplify_dimensionExponent_of_mergesInRange {r : UnitRegistry α} (indexed : r.Indexed)
    (registered : r.parts ⊆ us) {u : CompoundUnit α} (inside : CompoundUnit.parts u ⊆ us)
    (magnitude : u.magnitude < 2147483648) (extent : u.extent < 2147483648)
    (merges : u.MergesInRange) (name : String) :
    (r.simplify u).unit.dimensionExponent name = u.dimensionExponent name := by
  rcases merges with onePrimitive | merged
  · exact simplify_dimension oneDefinition indexed registered inside onePrimitive
      ((u.load_le_extent name).trans_lt extent)
  · apply UnitRegistry.simplify_dimensionExponent
    · exact mergeSameDimension_dimension_of_extent oneDefinition inside magnitude extent merged name
    · rintro w k (rfl | rfl) found
      · exact matchingUnit?_dimension_of_extent oneDefinition indexed registered inside extent found
          name
      · exact matchingUnit?_dimension_of_extent oneDefinition indexed registered
          (parts_mergeSameDimension_subset inside) merged found name

end OneDefinition

/-- Whatever has been registered and asked: where every name stands for one definition and the
exponents stay in range as they are written and as they are multiplied out, a unit is simplified to
no unit at all exactly if it is dimensionless, and its dimension stays the same.  For the latter,
unless the unit is made of one primitive unit for each base dimension, the exponents of the merged
unit have to stay in range too. -/
theorem simplify_keeps_dimension {r : UnitRegistry α} {asked : List (SchemeQuestion α)}
    (reached : r.Reached asked) {u : CompoundUnit α}
    (oneDefinition : OneDefinition (CompoundUnit.parts u ++ r.parts))
    (magnitude : u.magnitude < 2147483648) (extent : u.extent < 2147483648) :
    (u.MergesInRange → (r.simplify u).unit.dimension.agrees u.dimension = true)
      ∧ ((r.simplify u).unit = CompoundUnit.scalar ↔ u.isDimensionless = true) := by
  have inside : CompoundUnit.parts u ⊆ CompoundUnit.parts u ++ r.parts :=
    List.subset_append_left _ _
  have registered : r.parts ⊆ CompoundUnit.parts u ++ r.parts := List.subset_append_right _ _
  refine ⟨fun merges => ?_,
    isDimensionless_of_simplify oneDefinition reached.indexed inside magnitude extent,
    fun isDimensionless => ?_⟩
  · rw [CompoundUnit.dimension_agrees_iff]
    exact simplify_dimensionExponent_of_mergesInRange oneDefinition reached.indexed registered
      inside
      magnitude extent merges
  · rw [UnitRegistry.simplify, if_pos isDimensionless]
    split <;> rfl

/-! ### Feet and ells -/

section Ells

def ell : NamedUnit Float := .primitive (.ofSymbol "ell") "Length"

/-- A square foot for each ell, which is a length. -/
def strip : NamedUnit Float :=
  .derived (.ofSymbol "strip") 1 ⟨[⟨foot, ⟨2, by decide, by decide⟩⟩, ⟨ell, Exponent.minusOne⟩]⟩

def pace : NamedUnit Float := .derived (.ofSymbol "pace") 1 (CompoundUnit.ofNamed foot)

/-- A strip times a power of the pace. -/
def stripBy (e : Exponent) : CompoundUnit Float := ⟨[⟨strip, Exponent.one⟩, ⟨pace, e⟩]⟩

theorem stripBy_oneDefinition (e : Exponent) :
    OneDefinition (CompoundUnit.parts (stripBy e) ++ imperial.parts) := by
  have symbols : ([strip, foot, ell, pace, yard, mile].map NamedUnit.symbol).Nodup := by decide
  have listed : CompoundUnit.parts (stripBy e) ++ imperial.parts
      = [strip, foot, ell, pace, foot, foot, yard, foot, mile, foot] := rfl
  refine OneDefinition.of_symbols symbols ?_
  rw [listed]
  simp

/-- A strip and a pace are merged into two strips. -/
theorem strip_by_pace_keeps_dimension :
    imperial.Reached []
      ∧ OneDefinition (CompoundUnit.parts (stripBy Exponent.one) ++ imperial.parts)
      ∧ (stripBy Exponent.one).magnitude < 2147483648 ∧ (stripBy Exponent.one).extent < 2147483648
      ∧ (mergeSameDimension (stripBy Exponent.one)).unit.extent < 2147483648
      ∧ (imperial.simplify (stripBy Exponent.one)).unit.dimension.agrees
          (stripBy Exponent.one).dimension = true
      ∧ ((imperial.simplify (stripBy Exponent.one)).unit = CompoundUnit.scalar
          ↔ (stripBy Exponent.one).isDimensionless = true) := by
  have merged : (mergeSameDimension (stripBy Exponent.one)).unit.extent < 2147483648 := by decide
  obtain ⟨kept, scalar⟩ := simplify_keeps_dimension imperial_reached
    (stripBy_oneDefinition Exponent.one) (by decide) (by decide)
  exact ⟨imperial_reached, stripBy_oneDefinition _, by decide, by decide, merged,
    kept (.inr merged), scalar⟩

/-- A high power of the pace is merged into a power of the strip in which the exponent of the foot
stops at its bound, and the dimension changes. -/
theorem strip_by_paces_changes_dimension :
    let u := stripBy ⟨1200000000, by decide, by decide⟩
    imperial.Reached [] ∧ OneDefinition (CompoundUnit.parts u ++ imperial.parts)
      ∧ u.magnitude < 2147483648 ∧ u.extent < 2147483648
      ∧ u.dimensionExponent "Length" = 1200000001
      ∧ (imperial.simplify u).unit.dimensionExponent "Length" = 947483646
      ∧ (imperial.simplify u).unit.dimension.agrees u.dimension = false :=
  ⟨imperial_reached, stripBy_oneDefinition _, by decide, by decide, rfl, rfl, rfl⟩

end Ells

end QuantityCalculus
