/-
Module: QuantityCalculus.Proofs.Units.Algebra
Layer: Proofs
Purpose: The algebra of units.  Where every name stands for one definition and the exponents stay in
  range, the dimension of a product, a quotient or a power is that of the dimensions, and the
  expansion of a unit into primitive units is its own expansion.
Imports: QuantityCalculus.Proofs.Product.Algebra, QuantityCalculus.Proofs.Units.Dimension,
  QuantityCalculus.Scalar.Exact
Trusted boundary: none
Main exports: Moderate, CompoundUnit.extent_ofFactors_le, CompoundUnit.extent_power_le,
  CompoundUnit.dimensionExponent_ofFactors_of_extent, CompoundUnit.dimensionExponent_mul,
  CompoundUnit.dimensionExponent_div, CompoundUnit.dimensionExponent_power,
  CompoundUnit.expansion_unit_of_primitive, dimension_is_homomorphism
Open obligations: none
-/
import QuantityCalculus.Proofs.Product.Algebra
import QuantityCalculus.Proofs.Units.Dimension
import QuantityCalculus.Scalar.Exact

namespace QuantityCalculus

open Product (total weigh degree spread names)

variable {α : Type}

/-- The absolute exponents of some units, added up and multiplied, stay in the range of an exponent:
those of the units as they are written, and those of all definitions multiplied out. -/
structure Moderate (times : Nat) (units : List (CompoundUnit α)) : Prop where
  written : (units.map CompoundUnit.magnitude).sum * times < 2147483648
  expanded : (units.map CompoundUnit.extent).sum * times < 2147483648

namespace CompoundUnit

/-! ### Bounds -/

theorem natAbs_degree_le_magnitude (u : CompoundUnit α) (name : String) :
    (degree name u.factors).natAbs ≤ u.magnitude :=
  (Product.natAbs_degree_le name _).trans (Product.spread_le_weigh_one name _)

theorem magnitude_power_le (u : CompoundUnit α) (e : Exponent) :
    magnitude (u.power e) ≤ u.magnitude * e.val.natAbs :=
  Product.weigh_power_le (fun _ => 1) u e

section Inside

variable {us : List (NamedUnit α)} {u v : CompoundUnit α}

theorem inside_append (hu : parts u ⊆ us) (hv : parts v ⊆ us) :
    ∀ f ∈ u.factors ++ v.factors, f.base.parts ⊆ us :=
  List.forall_mem_append.mpr ⟨parts_subset_iff.mp hu, parts_subset_iff.mp hv⟩

theorem inside_map_power (hu : parts u ⊆ us) (e : Exponent) :
    ∀ f ∈ u.factors.map fun f => f.power e, f.base.parts ⊆ us :=
  List.forall_mem_map.mpr (parts_subset_iff.mp hu)

end Inside

section OneDefinition

variable {us : List (NamedUnit α)} (oneDefinition : OneDefinition us)

include oneDefinition

/-- Merging factors does not enlarge the extent, since equal names have equal definitions. -/
theorem extent_ofFactors_le {fs : List (Factor (NamedUnit α))}
    (inside : ∀ f ∈ fs, f.base.parts ⊆ us) :
    extent (Product.ofFactors fs) ≤ weigh NamedUnit.extent fs := by
  obtain ⟨byName, named⟩ := oneDefinition.exists_byName (fun _ _ => 1) fun _ _ fs => weigh id fs
  have known : ∀ f ∈ fs, byName (key f.base) = f.base.extent := by
    intro f hf
    exact named f.base (inside f hf f.base.mem_parts_self)
  exact Product.weigh_ofFactors_le_of_byName byName known

theorem extent_power_le {u : CompoundUnit α} (hu : parts u ⊆ us) (e : Exponent) :
    extent (u.power e) ≤ u.extent * e.val.natAbs :=
  (extent_ofFactors_le oneDefinition (inside_map_power hu e)).trans
    (Product.weigh_map_power_le NamedUnit.extent u.factors e)

end OneDefinition

/-! ### Dimensions -/

section Dimensions

variable [Scalar α] {us : List (NamedUnit α)} (oneDefinition : OneDefinition us)

include oneDefinition

/-- The dimension of merged factors is put together from those of the bases, as long as the
exponents stay in range as they are written and as they are multiplied out. -/
theorem dimensionExponent_ofFactors_of_extent {fs : List (Factor (NamedUnit α))}
    (inside : ∀ f ∈ fs, f.base.parts ⊆ us) (written : weigh (fun _ => 1) fs < 2147483648)
    (expanded : weigh NamedUnit.extent fs < 2147483648) (name : String) :
    dimensionExponent (Product.ofFactors fs) name
      = total (NamedUnit.dimensionExponent name) fs := by
  have extent : extent (Product.ofFactors fs) < 2147483648 :=
    (extent_ofFactors_le oneDefinition inside).trans_lt expanded
  calc
    dimensionExponent (Product.ofFactors fs) name
      = total (NamedUnit.dimensionExponent name) (Product.ofFactors fs).factors :=
        dimensionExponent_eq_total_of_extent
          (oneDefinition.mono (parts_ofFactors_subset inside)) extent name
    _ = total (NamedUnit.dimensionExponent name) fs :=
        total_ofFactors oneDefinition inside fun f _ _ =>
          (Product.spread_le_weigh_one (key f.base) fs).trans_lt written

section Combined

variable {u v : CompoundUnit α} (hu : parts u ⊆ us) (hv : parts v ⊆ us)

include hu

/-- The dimension of a power has the multiples of the exponents of the dimension. -/
theorem dimensionExponent_power {e : Exponent} (written : u.magnitude * e.val.natAbs < 2147483648)
    (expanded : u.extent * e.val.natAbs < 2147483648) (name : String) :
    dimensionExponent (u.power e) name = u.dimensionExponent name * e.val := by
  have writtenPower := Product.weigh_map_power_le (fun _ => 1) u.factors e
  have expandedPower := Product.weigh_map_power_le NamedUnit.extent u.factors e
  calc
    dimensionExponent (u.power e) name
      = total (NamedUnit.dimensionExponent name) (u.factors.map fun f => f.power e) :=
        dimensionExponent_ofFactors_of_extent oneDefinition (inside_map_power hu e)
          (writtenPower.trans_lt written) (expandedPower.trans_lt expanded) name
    _ = total (NamedUnit.dimensionExponent name) u.factors * e.val := by
        rw [Product.total_map_power _ written, smul_eq_mul, mul_comm]
    _ = u.dimensionExponent name * e.val := by
        -- The power zero tells nothing about the exponents of the unit, but has none itself.
        by_cases zero : e.val = 0
        · simp [zero]
        · have moderate : u.extent ≤ u.extent * e.val.natAbs :=
            Nat.le_mul_of_pos_right _ (Int.natAbs_pos.mpr zero)
          rw [dimensionExponent_eq_total_of_extent (oneDefinition.mono hu) (by omega)]

/-- The dimension of a power is the power of the dimension. -/
theorem dimension_power_agrees {e : Exponent} (written : u.magnitude * e.val.natAbs < 2147483648)
    (expanded : u.extent * e.val.natAbs < 2147483648) :
    (dimension (u.power e)).agrees (u.dimension.power e) = true := by
  refine (Product.agrees_iff_degree (dimension_canonical _)
    (Product.canonical_power _ _)).mpr fun name => ?_
  have power := dimensionExponent_power oneDefinition hu written expanded name
  have bound : (u.dimensionExponent name * e.val).natAbs < 2147483648 := by
    rw [Int.natAbs_mul]
    exact (Nat.mul_le_mul_right _ (u.natAbs_dimensionExponent_le name)).trans_lt expanded
  simp only [dimensionExponent_eq_degree] at power bound
  rw [power, Product.degree_power u.dimension_canonical.nodup bound]

include hv

/-- The dimension of a product has the sums of the exponents of the dimensions. -/
theorem dimensionExponent_mul (written : u.magnitude + v.magnitude < 2147483648)
    (expanded : u.extent + v.extent < 2147483648) (name : String) :
    dimensionExponent (u.mul v) name = u.dimensionExponent name + v.dimensionExponent name := by
  have writtenBoth : weigh (fun _ => 1) (u.factors ++ v.factors) < 2147483648 := by
    rwa [Product.weigh_append]
  have expandedBoth : weigh NamedUnit.extent (u.factors ++ v.factors) < 2147483648 := by
    rwa [Product.weigh_append]
  calc
    dimensionExponent (u.mul v) name
      = total (NamedUnit.dimensionExponent name) (u.factors ++ v.factors) :=
        dimensionExponent_ofFactors_of_extent oneDefinition (inside_append hu hv) writtenBoth
          expandedBoth name
    _ = total (NamedUnit.dimensionExponent name) u.factors
          + total (NamedUnit.dimensionExponent name) v.factors := Product.total_append _ _ _
    _ = u.dimensionExponent name + v.dimensionExponent name := by
        rw [dimensionExponent_eq_total_of_extent (oneDefinition.mono hu) (by omega),
          dimensionExponent_eq_total_of_extent (oneDefinition.mono hv) (by omega)]

/-- The dimension of a product is the product of the dimensions. -/
theorem dimension_mul_agrees (written : u.magnitude + v.magnitude < 2147483648)
    (expanded : u.extent + v.extent < 2147483648) :
    (dimension (u.mul v)).agrees (u.dimension.mul v.dimension) = true := by
  refine (Product.agrees_iff_degree (dimension_canonical _)
    (Product.canonical_mul _ _)).mpr fun name => ?_
  have first := u.natAbs_dimensionExponent_le name
  have second := v.natAbs_dimensionExponent_le name
  have sum := dimensionExponent_mul oneDefinition hu hv written expanded name
  simp only [dimensionExponent_eq_degree] at first second sum
  rw [sum, Product.degree_mul_of_inRange u.dimension_canonical.nodup v.dimension_canonical.nodup
    (by omega)]

/-- The dimension of a quotient has the differences of the exponents of the dimensions. -/
theorem dimensionExponent_div (written : u.magnitude + v.magnitude < 2147483648)
    (expanded : u.extent + v.extent < 2147483648) (name : String) :
    dimensionExponent (u.div v) name = u.dimensionExponent name - v.dimensionExponent name := by
  have insideInverse : parts v.invert ⊆ us := parts_ofFactors_subset (inside_map_power hv _)
  have lighter : magnitude v.invert ≤ v.magnitude * 1 := v.magnitude_power_le Exponent.minusOne
  have shorter : extent v.invert ≤ v.extent * 1 :=
    extent_power_le oneDefinition hv Exponent.minusOne
  have inverse : dimensionExponent v.invert name = v.dimensionExponent name * -1 :=
    dimensionExponent_power oneDefinition hv (e := Exponent.minusOne)
      (show v.magnitude * 1 < _ by omega) (show v.extent * 1 < _ by omega) name
  calc
    dimensionExponent (u.div v) name
      = u.dimensionExponent name + dimensionExponent v.invert name :=
        dimensionExponent_mul oneDefinition hu insideInverse (by omega) (by omega) name
    _ = u.dimensionExponent name - v.dimensionExponent name := by
        rw [inverse]
        ring

/-- The dimension of a quotient is the quotient of the dimensions. -/
theorem dimension_div_agrees (written : u.magnitude + v.magnitude < 2147483648)
    (expanded : u.extent + v.extent < 2147483648) :
    (dimension (u.div v)).agrees (u.dimension.div v.dimension) = true := by
  refine (Product.agrees_iff_degree (dimension_canonical _)
    (Product.canonical_mul _ _)).mpr fun name => ?_
  have first := u.natAbs_dimensionExponent_le name
  have second := v.natAbs_dimensionExponent_le name
  have difference := dimensionExponent_div oneDefinition hu hv written expanded name
  simp only [dimensionExponent_eq_degree] at first second difference
  rw [difference, ← Product.div, Product.degree_div u.dimension_canonical.nodup
    v.dimension_canonical.nodup (by omega)]

end Combined

end Dimensions

/-! ### Primitive units -/

section Primitive

variable [Scalar α]

/-- A unit that consists of primitive units is its own expansion. -/
theorem expansion_unit_of_primitive {u : CompoundUnit α} (canonical : u.Canonical)
    (primitive : ∀ f ∈ u.factors, f.base.isPrimitive = true) : (expansion u).unit = u := by
  have powers : ∀ f ∈ u.factors,
      f.base.expansion.unit.power f.exponent = Product.ofFactors [f] := by
    intro f hf
    have kind := primitive f hf
    cases base : f.base with
    | primitive names dimension =>
        rw [NamedUnit.expansion_unit_primitive, Product.power, List.map_singleton, Factor.power,
          Exponent.one_mul, ← base]
    | derived names factor definition => simp [base, NamedUnit.isPrimitive] at kind
  rw [expansion_unit, List.map_congr_left powers]
  exact Product.ofProducts_singletons canonical

/-- The expansion of a unit is its own expansion. -/
theorem expansion_unit_expansion (u : CompoundUnit α) :
    (expansion (expansion u).unit).unit = (expansion u).unit :=
  expansion_unit_of_primitive u.expansion_canonical fun _ hf => (u.expansion_primitive hf).1

theorem dimension_expansion (u : CompoundUnit α) : dimension (expansion u).unit = u.dimension := by
  rw [dimension, expansion_unit_expansion, dimension]

end Primitive

end CompoundUnit

/-! ### The algebra of units -/

/-- Where every name stands for one definition: as long as the exponents of the units stay in range,
the dimension of a product, a quotient, a power or an inverse is that of the dimensions.
Multiplication is commutative and associative and undoes division.  The expansion of a unit consists
of primitive units, has the dimension of the unit, and is its own expansion. -/
theorem dimension_is_homomorphism [Scalar α] {u v w : CompoundUnit α} (canonicalU : u.Canonical)
    (canonicalV : v.Canonical) (canonicalW : w.Canonical)
    (oneDefinition : OneDefinition
      (CompoundUnit.parts u ++ CompoundUnit.parts v ++ CompoundUnit.parts w)) (e : Exponent) :
    (Moderate 1 [u, v] →
        (CompoundUnit.dimension (u.mul v)).agrees (u.dimension.mul v.dimension) = true
          ∧ (CompoundUnit.dimension (u.div v)).agrees (u.dimension.div v.dimension) = true
          ∧ (u.mul v).agrees (v.mul u) = true
          ∧ ((u.div v).mul v).agrees u = true)
      ∧ (Moderate 1 [u, v, w] → ((u.mul v).mul w).agrees (u.mul (v.mul w)) = true)
      ∧ (Moderate e.val.natAbs [u] →
        (CompoundUnit.dimension (u.power e)).agrees (u.dimension.power e) = true)
      ∧ (Moderate 1 [u] →
        (CompoundUnit.dimension u.invert).agrees u.dimension.invert = true)
      ∧ let base := (CompoundUnit.expansion u).unit
        (∀ f ∈ base.factors, f.base.isPrimitive = true)
          ∧ base.dimension = u.dimension
          ∧ (CompoundUnit.expansion base).unit = base := by
  have insideU : CompoundUnit.parts u
      ⊆ CompoundUnit.parts u ++ CompoundUnit.parts v ++ CompoundUnit.parts w := by simp
  have insideV : CompoundUnit.parts v
      ⊆ CompoundUnit.parts u ++ CompoundUnit.parts v ++ CompoundUnit.parts w := by simp
  refine ⟨?_, ?_, ?_, ?_, ?_, u.dimension_expansion, u.expansion_unit_expansion⟩
  · rintro ⟨written, expanded⟩
    simp only [List.map_cons, List.map_nil, List.sum_cons, List.sum_nil] at written expanded
    refine ⟨?_, ?_, ?_, ?_⟩
    · exact CompoundUnit.dimension_mul_agrees oneDefinition insideU insideV (by omega) (by omega)
    · exact CompoundUnit.dimension_div_agrees oneDefinition insideU insideV (by omega) (by omega)
    · exact Product.agrees_mul_comm canonicalU.nodup canonicalV.nodup
    · refine Product.agrees_div_mul canonicalU canonicalV.nodup fun name => ?_
      have first := u.natAbs_degree_le_magnitude name
      have second := v.natAbs_degree_le_magnitude name
      omega
  · rintro ⟨written, -⟩
    simp only [List.map_cons, List.map_nil, List.sum_cons, List.sum_nil] at written
    refine Product.agrees_mul_assoc canonicalU.nodup canonicalV.nodup canonicalW.nodup
      fun name => ?_
    have first := u.natAbs_degree_le_magnitude name
    have second := v.natAbs_degree_le_magnitude name
    have third := w.natAbs_degree_le_magnitude name
    omega
  · rintro ⟨written, expanded⟩
    exact CompoundUnit.dimension_power_agrees oneDefinition insideU (by simpa using written)
      (by simpa using expanded)
  · rintro ⟨written, expanded⟩
    have once : Exponent.minusOne.val.natAbs = 1 := rfl
    exact CompoundUnit.dimension_power_agrees oneDefinition insideU
      (by simpa [once] using written) (by simpa [once] using expanded)
  · exact fun f hf => (u.expansion_primitive hf).1

/-! ### Weeks -/

section Weeks

def day : NamedUnit Rat := .primitive (.ofSymbol "d") "Time"
def week : NamedUnit Rat := .derived (.ofSymbol "wk") 7 (CompoundUnit.ofNamed day)

/-- A week per day is a number, and a square week is a square time. -/
theorem weeks_and_days_homomorphism :
    let u : CompoundUnit Rat := CompoundUnit.ofNamed week
    let v : CompoundUnit Rat := CompoundUnit.ofNamed day
    let two : Exponent := ⟨2, by decide, by decide⟩
    u.Canonical ∧ v.Canonical
      ∧ OneDefinition (CompoundUnit.parts u ++ CompoundUnit.parts v ++ CompoundUnit.parts v)
      ∧ Moderate 1 [u, v, v] ∧ Moderate 2 [u]
      ∧ (CompoundUnit.dimension (u.div v)).agrees (u.dimension.div v.dimension) = true
      ∧ ((u.mul v).mul v).agrees (u.mul (v.mul v)) = true
      ∧ (CompoundUnit.dimension (u.power two)).agrees (u.dimension.power two) = true
      ∧ (CompoundUnit.expansion u).unit.dimension = u.dimension := by
  intro u v two
  have canonicalU : u.Canonical := Product.canonical_ofFactors _
  have canonicalV : v.Canonical := Product.canonical_ofFactors _
  have symbols : ([week, day].map NamedUnit.symbol).Nodup := by decide
  have oneDefinition :
      OneDefinition (CompoundUnit.parts u ++ CompoundUnit.parts v ++ CompoundUnit.parts v) := by
    have listed : CompoundUnit.parts u ++ CompoundUnit.parts v ++ CompoundUnit.parts v
        = [week, day, day, day] := rfl
    refine OneDefinition.of_symbols symbols ?_
    rw [listed]
    simp
  have two_units : Moderate 1 [u, v] := ⟨by decide, by decide⟩
  have three_units : Moderate 1 [u, v, v] := ⟨by decide, by decide⟩
  have squared : Moderate 2 [u] := ⟨by decide, by decide⟩
  obtain ⟨products, associates, powers, -, -, expanded, -⟩ :=
    dimension_is_homomorphism canonicalU canonicalV canonicalV oneDefinition two
  exact ⟨canonicalU, canonicalV, oneDefinition, three_units, squared, (products two_units).2.1,
    associates three_units, powers squared, expanded⟩

end Weeks

end QuantityCalculus
