/-
Module: QuantityCalculus.Proofs.Quantity.Conversion
Layer: Proofs
Purpose: Conversions in exact arithmetic.  The conversion factor of a product or a power is the
  product or the power of the factors, and a conversion keeps what a quantity measures, so that it
  does not matter through which units a quantity is converted.
Imports: QuantityCalculus.Proofs.Operator.Measure, QuantityCalculus.Proofs.Units.Algebra
Trusted boundary: none
Main exports: WellDefined, CompoundUnit.factor_mul, CompoundUnit.factor_power,
  CompoundUnit.dimension_agrees_of_agrees, CompoundUnit.InReach, CompoundUnit.ratioTo_of_agrees,
  Quantity.exists_convertTo, factors_multiply_and_conversions_compose
Open obligations: none
-/
import QuantityCalculus.Proofs.Operator.Measure
import QuantityCalculus.Proofs.Units.Algebra

namespace QuantityCalculus

open Product (total weigh)

/-- Units as the calculus builds them, in whose definitions every name stands for one unit and every
derived unit is a positive multiple of others. -/
structure WellDefined (units : List (CompoundUnit Rat)) : Prop where
  canonical : ∀ u ∈ units, Product.Canonical u
  oneDefinition : OneDefinition (units.flatMap CompoundUnit.parts)
  positive : ∀ v ∈ units.flatMap CompoundUnit.parts, v.HasPositiveFactor

theorem WellDefined.parts_subset {units : List (CompoundUnit Rat)} {u : CompoundUnit Rat}
    (hu : u ∈ units) : CompoundUnit.parts u ⊆ units.flatMap CompoundUnit.parts :=
  fun _ hv => List.mem_flatMap.mpr ⟨u, hu, hv⟩

/-- Fewer units are well-defined if more of them are. -/
theorem WellDefined.mono {units others : List (CompoundUnit Rat)} (h : WellDefined units)
    (subset : others ⊆ units) : WellDefined others := by
  have parts : others.flatMap CompoundUnit.parts ⊆ units.flatMap CompoundUnit.parts := by
    intro v hv
    obtain ⟨u, hu, inside⟩ := List.mem_flatMap.mp hv
    exact List.mem_flatMap.mpr ⟨u, subset hu, inside⟩
  exact ⟨fun u hu => h.canonical u (subset hu), h.oneDefinition.mono parts,
    fun v hv => h.positive v (parts hv)⟩

namespace CompoundUnit

/-- Units that differ in the order of their factors only have the same dimension. -/
theorem dimension_agrees_of_agrees {α : Type} [Scalar α] {us : List (NamedUnit α)}
    (oneDefinition : OneDefinition us) {u v : CompoundUnit α} (canonicalU : Product.Canonical u)
    (canonicalV : Product.Canonical v) (hu : parts u ⊆ us) (hv : parts v ⊆ us)
    (extentU : u.extent < 2147483648) (extentV : v.extent < 2147483648)
    (agrees : u.agrees v = true) : u.dimension.agrees v.dimension = true := by
  refine (dimension_agrees_iff u v).mpr fun name => ?_
  obtain ⟨byName, named⟩ := NamedUnit.exists_dimensionExponent_byName oneDefinition name
  have degrees := (Product.agrees_iff_degree canonicalU canonicalV).mp agrees
  have exponents : ∀ w : CompoundUnit α, parts w ⊆ us → w.extent < 2147483648 →
      w.dimensionExponent name = total (fun b => byName (key b)) w.factors := by
    intro w hw extent
    rw [dimensionExponent_eq_total_of_extent (oneDefinition.mono hw) extent]
    exact Product.total_congr fun f hf => (named f.base (parts_subset_iff.mp hw f hf)).symm
  rw [exponents u hu extentU, exponents v hv extentV,
    Product.total_eq_of_degree fun other _ => degrees other]

section Factors

variable {us : List (NamedUnit Rat)} (oneDefinition : OneDefinition us)
  (positive : ∀ v ∈ us, v.HasPositiveFactor)

include oneDefinition positive

/-! ### Factors of products and powers -/

/-- Conversion factors multiply, as long as no exponent leaves its range. -/
theorem factor_mul {u v : CompoundUnit Rat} (hu : parts u ⊆ us) (hv : parts v ⊆ us)
    (written : u.magnitude + v.magnitude < 2147483648) :
    factor (u.mul v) = u.factor * v.factor := by
  have bound : weigh (fun _ => 1) (u.factors ++ v.factors) < 2147483648 := by
    rwa [Product.weigh_append]
  calc
    factor (u.mul v)
      = factorProduct (u.factors ++ v.factors) :=
        factor_ofFactors oneDefinition positive (inside_append hu hv) bound
    _ = u.factor * v.factor := by
        rw [factorProduct_append, ← factor_eq_factorProduct, ← factor_eq_factorProduct]

/-- Conversion factors are raised with their units, as long as no exponent leaves its range. -/
theorem factor_power {u : CompoundUnit Rat} (hu : parts u ⊆ us) {e : Exponent}
    (written : u.magnitude * e.val.natAbs < 2147483648) :
    factor (u.power e) = u.factor ^ e.val := by
  obtain ⟨byName, named⟩ := NamedUnit.exists_factor_byName oneDefinition positive
  have inside := inside_map_power hu e
  have bound := (Product.weigh_map_power_le (fun _ => 1) u.factors e).trans_lt written
  calc
    factor (u.power e)
      = factorProduct (u.factors.map fun f => f.power e) :=
        factor_ofFactors oneDefinition positive inside bound
    _ = (total (fun b => byName (key b)) (u.factors.map fun f => f.power e)).toMul :=
        factorProduct_eq_total named inside
    _ = u.factor ^ e.val := by
        rw [Product.total_map_power _ written, toMul_zsmul, Units.val_zpow_eq_zpow_val,
          ← factorProduct_eq_total named (parts_subset_iff.mp hu), ← factor_eq_factorProduct]

/-! ### Conversions -/

omit oneDefinition positive in
/-- A unit as the calculus builds it, of given parts, whose exponents stay in range when they are
multiplied out. -/
structure InReach (us : List (NamedUnit Rat)) (u : CompoundUnit Rat) : Prop where
  canonical : Product.Canonical u
  inside : parts u ⊆ us
  extent : u.extent < 2147483648

/-- The ratio of a unit to itself is one, whatever the order of its factors. -/
theorem ratioTo_of_agrees {u v : CompoundUnit Rat} (hu : InReach us u) (hv : InReach us v)
    (agrees : u.agrees v = true) : u.ratioTo v = .ok 1 := by
  have same :=
    dimension_agrees_of_agrees oneDefinition hu.canonical hv.canonical hu.inside hv.inside
    hu.extent hv.extent agrees
  have nonzero : v.factor ≠ 0 := (factor_pos fun w hw => positive w (hv.inside hw)).ne'
  rw [ratioTo, if_pos same, factor_eq_of_agrees oneDefinition positive hu.canonical hv.canonical
    hu.inside hv.inside agrees, div_self nonzero]

omit positive in
theorem dimension_agrees_iff_sameDimension {u v : CompoundUnit Rat} (hu : InReach us u)
    (hv : InReach us v) : u.dimension.agrees v.dimension = true ↔ u.SameDimension v := by
  rw [dimension_agrees_iff, SameDimension]
  simp only [dimensionExponent_eq (oneDefinition.mono hu.inside) hu.extent,
    dimensionExponent_eq (oneDefinition.mono hv.inside) hv.extent]

end Factors

end CompoundUnit

namespace Quantity

open CompoundUnit (InReach)

variable {us : List (NamedUnit Rat)} (oneDefinition : OneDefinition us)
  (positive : ∀ v ∈ us, v.HasPositiveFactor)

include oneDefinition positive

/-- A quantity can be converted into every unit of its dimension.  What comes out measures the same,
in a unit that measures as much as the one asked for. -/
theorem exists_convertTo {q : Quantity Rat} {b : CompoundUnit Rat} (hq : InReach us q.unit)
    (hb : InReach us b) (same : q.unit.SameDimension b) :
    ∃ converted, q.convertTo b = .ok converted ∧ converted.measure = q.measure
      ∧ converted.unit.factor = b.factor ∧ InReach us converted.unit
      ∧ converted.unit.SameDimension b := by
  have dimensions :=
    (CompoundUnit.dimension_agrees_iff_sameDimension oneDefinition hq hb).mpr same
  obtain ⟨converted, found⟩ := convertTo_isOk (q := q) dimensions
  obtain ⟨measures, factors⟩ := convertTo_measure oneDefinition positive hq.canonical hb.canonical
    hq.inside hb.inside found
  refine ⟨converted, found, measures, factors, ?_⟩
  rcases convertTo_ok found with ⟨-, rfl⟩ | ⟨-, rfl⟩
  · exact ⟨hq, same⟩
  · exact ⟨hb, fun _ => rfl⟩

omit oneDefinition positive in
/-- What a quantity measures and how much its unit measures tell its number. -/
theorem number_eq_of_measure {p q : Quantity Rat} (measures : p.measure = q.measure)
    (factors : p.unit.factor = q.unit.factor) (nonzero : q.unit.factor ≠ 0) :
    p.number = q.number := by
  rw [measure, measure, factors] at measures
  exact mul_right_cancel₀ nonzero measures

/-- A conversion by way of another unit leads to the same number as a direct one, and one can be
undone. -/
theorem conversions_compose {q : Quantity Rat} {b c : CompoundUnit Rat} (hq : InReach us q.unit)
    (hb : InReach us b) (hc : InReach us c) (sameB : q.unit.SameDimension b)
    (sameC : q.unit.SameDimension c) :
    ∃ inB inC direct back, q.convertTo b = .ok inB ∧ inB.convertTo c = .ok inC
      ∧ q.convertTo c = .ok direct ∧ inB.convertTo q.unit = .ok back
      ∧ inC.number = direct.number ∧ back.number = q.number := by
  have nonzero : ∀ {u : CompoundUnit Rat}, InReach us u → u.factor ≠ 0 := fun hu =>
    (CompoundUnit.factor_pos fun w hw => positive w (hu.inside hw)).ne'
  obtain ⟨inB, toB, measureB, -, reachB, dimensionB⟩ :=
    exists_convertTo oneDefinition positive hq hb sameB
  have backwards : inB.unit.SameDimension q.unit := fun name =>
    (dimensionB name).trans (sameB name).symm
  have onwards : inB.unit.SameDimension c := fun name => (backwards name).trans (sameC name)
  obtain ⟨inC, toC, measureC, factorC, -⟩ :=
    exists_convertTo oneDefinition positive reachB hc onwards
  obtain ⟨direct, straight, measureD, factorD, reachD, -⟩ :=
    exists_convertTo oneDefinition positive hq hc sameC
  obtain ⟨back, undone, measureBack, factorBack, -⟩ :=
    exists_convertTo oneDefinition positive reachB hq backwards
  refine ⟨inB, inC, direct, back, toB, toC, straight, undone, ?_, ?_⟩
  · exact number_eq_of_measure ((measureC.trans measureB).trans measureD.symm)
      (factorC.trans factorD.symm) (nonzero reachD)
  · exact number_eq_of_measure (measureBack.trans measureB) factorBack (nonzero hq)

end Quantity

/-! ### Factors and conversions -/

theorem WellDefined.inReach {units : List (CompoundUnit Rat)} (h : WellDefined units)
    {u : CompoundUnit Rat} (hu : u ∈ units) (moderate : Moderate 1 [u]) :
    CompoundUnit.InReach (units.flatMap CompoundUnit.parts) u where
  canonical := h.canonical u hu
  inside := parts_subset hu
  extent := by simpa using moderate.expanded

/-- In exact arithmetic, as long as the exponents of the units stay in range: conversion factors
multiply as the units do, a conversion may go by way of any other unit of the dimension and can be
undone, and a quantity that is left alone because it has the unit already would not be changed by
the ratio of the two units. -/
theorem factors_multiply_and_conversions_compose :
    (∀ u v : CompoundUnit Rat, WellDefined [u, v] → Moderate 1 [u, v] →
        CompoundUnit.factor (u.mul v) = u.factor * v.factor)
      ∧ (∀ (u : CompoundUnit Rat) (e : Exponent), WellDefined [u] → Moderate e.val.natAbs [u] →
        CompoundUnit.factor (u.power e) = u.factor ^ e.val)
      ∧ (∀ (q : Quantity Rat) (b c : CompoundUnit Rat), WellDefined [q.unit, b, c] →
        (∀ u ∈ [q.unit, b, c], Moderate 1 [u]) → q.unit.SameDimension b → q.unit.SameDimension c →
        ∃ inB inC direct back, q.convertTo b = .ok inB ∧ inB.convertTo c = .ok inC
          ∧ q.convertTo c = .ok direct ∧ inB.convertTo q.unit = .ok back
          ∧ inC.number = direct.number ∧ back.number = q.number)
      ∧ ∀ (q : Quantity Rat) (b : CompoundUnit Rat), WellDefined [q.unit, b] →
        (∀ u ∈ [q.unit, b], Moderate 1 [u]) → q.unit.agrees b = true →
        q.convertTo b = .ok q ∧ q.unit.ratioTo b = .ok 1 := by
  refine ⟨?_, ?_, ?_, ?_⟩
  · intro u v defined moderate
    exact CompoundUnit.factor_mul defined.oneDefinition defined.positive
      (WellDefined.parts_subset (by simp)) (WellDefined.parts_subset (by simp))
      (by simpa using moderate.written)
  · intro u e defined moderate
    exact CompoundUnit.factor_power defined.oneDefinition defined.positive
      (WellDefined.parts_subset (by simp)) (by simpa using moderate.written)
  · intro q b c defined moderate sameB sameC
    exact Quantity.conversions_compose defined.oneDefinition defined.positive
      (defined.inReach (by simp) (moderate _ (by simp)))
      (defined.inReach (by simp) (moderate _ (by simp)))
      (defined.inReach (by simp) (moderate _ (by simp))) sameB sameC
  · intro q b defined moderate agrees
    refine ⟨by rw [Quantity.convertTo, if_pos agrees], ?_⟩
    exact CompoundUnit.ratioTo_of_agrees defined.oneDefinition defined.positive
      (defined.inReach (by simp) (moderate _ (by simp)))
      (defined.inReach (by simp) (moderate _ (by simp))) agrees

/-! ### Kilometres and metres -/

section Lengths

/-- Units of metres and kilometres are well-defined. -/
theorem wellDefined_of_lengths {units : List (CompoundUnit Rat)}
    (canonical : ∀ u ∈ units, Product.Canonical u)
    (known : ∀ v ∈ units.flatMap CompoundUnit.parts, v = metre ∨ v = kilometre) :
    WellDefined units where
  canonical := canonical
  oneDefinition := oneDefinition_of_lengths known
  positive := hasPositiveFactor_of_lengths known

def squareKilometre : CompoundUnit Rat :=
  (CompoundUnit.ofNamed kilometre).mul (CompoundUnit.ofNamed kilometre)

/-- The square kilometre per metre, a unit of length. -/
def squareKilometrePerMetre : CompoundUnit Rat := squareKilometre.div (CompoundUnit.ofNamed metre)

/-- The same unit with its factors in another order. -/
def perMetreSquareKilometre : CompoundUnit Rat :=
  Product.mul (CompoundUnit.ofNamed metre).invert squareKilometre

/-- Three kilometres come to the same number of square kilometres per metre, be it by way of metres
or not. -/
theorem kilometres_and_metres_compose :
    let q : Quantity Rat := (distance : Operand Rat).value
    let m : CompoundUnit Rat := CompoundUnit.ofNamed metre
    let s := squareKilometrePerMetre
    let t := perMetreSquareKilometre
    let two : Exponent := ⟨2, by decide, by decide⟩
    CompoundUnit.factor (q.unit.mul s) = q.unit.factor * s.factor
      ∧ CompoundUnit.factor (s.power two) = s.factor ^ (2 : Int)
      ∧ (∃ inB inC direct back, q.convertTo m = .ok inB ∧ inB.convertTo s = .ok inC
        ∧ q.convertTo s = .ok direct ∧ inB.convertTo q.unit = .ok back
        ∧ inC.number = direct.number ∧ back.number = q.number)
      ∧ (Quantity.of 3 s).convertTo t = .ok (Quantity.of 3 s) ∧ s.ratioTo t = .ok 1 := by
  intro q m s t two
  have listed : [q.unit, m, s, t].flatMap CompoundUnit.parts
      = [kilometre, metre, metre, kilometre, metre, metre, metre, kilometre, metre] := rfl
  have defined : WellDefined [q.unit, m, s, t] := by
    apply wellDefined_of_lengths
    · simp only [List.forall_mem_cons]
      exact ⟨Product.canonical_ofFactors _, Product.canonical_ofFactors _,
        Product.canonical_ofFactors _, Product.canonical_ofFactors _, by simp⟩
    · rw [listed]
      intro v hv
      simp only [List.mem_cons, List.not_mem_nil, or_false] at hv
      tauto
  have moderate : ∀ u ∈ [q.unit, m, s, t], Moderate 1 [u] := by
    simp only [List.forall_mem_cons]
    exact ⟨⟨by decide, by decide⟩, ⟨by decide, by decide⟩, ⟨by decide, by decide⟩,
      ⟨by decide, by decide⟩, by simp⟩
  have reach := fun u hu => defined.inReach (u := u) hu (moderate u hu)
  have lengthM : q.unit.SameDimension m :=
    (CompoundUnit.dimension_agrees_iff_sameDimension defined.oneDefinition (reach _ (by simp))
      (reach _ (by simp))).mp (by decide)
  have lengthS : q.unit.SameDimension s :=
    (CompoundUnit.dimension_agrees_iff_sameDimension defined.oneDefinition (reach _ (by simp))
      (reach _ (by simp))).mp (by decide)
  obtain ⟨products, powers, conversions, shortcut⟩ := factors_multiply_and_conversions_compose
  refine ⟨?_, ?_, ?_, ?_⟩
  · exact products _ _ (defined.mono (by simp)) ⟨by decide, by decide⟩
  · exact powers _ _ (defined.mono (by simp)) ⟨by decide, by decide⟩
  · have within : [q.unit, m, s] ⊆ [q.unit, m, s, t] := by simp
    exact conversions q m s (defined.mono within) (fun u hu => moderate u (within hu)) lengthM
      lengthS
  · have within : [s, t] ⊆ [q.unit, m, s, t] := by simp
    exact shortcut (Quantity.of 3 s) t (defined.mono within) (fun u hu => moderate u (within hu))
      (by decide)

end Lengths

end QuantityCalculus
