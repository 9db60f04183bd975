/-
Module: QuantityCalculus.Proofs.Units.Conversion
Layer: Proofs
Purpose: Products and quotients of units: when they exist, and what their dimensions are.  Rational
  powers of units are those of products.
Imports: QuantityCalculus.Proofs.Product.RationalPower, QuantityCalculus.Proofs.Units.Algebra,
  QuantityCalculus.Units.Conversion
Trusted boundary: none
Main exports: productWith_spec, quotientBy_spec, rationalPower_eq_ok_iff, productWith_isOk,
  quotientBy_isOk, combines_weigh_le, combines_total, combines_dimension_of_extent,
  combines_dimension
Open obligations: none
-/
import QuantityCalculus.Proofs.Product.RationalPower
import QuantityCalculus.Proofs.Units.Algebra
import QuantityCalculus.Units.Conversion

namespace QuantityCalculus

open Product (Combines total weigh spread)

variable {α : Type}

namespace CompoundUnit

/-- A product of units that is accepted combines the factors of both. -/
theorem productWith_spec {u v w : CompoundUnit α} (h : u.productWith v = .ok w) :
    ∃ fs, w = Product.ofFactors fs ∧ Combines 1 u v fs := by
  rw [productWith] at h
  split at h
  next product found =>
    cases h
    exact Product.mul?_spec found
  next => cases h

/-- So does a quotient, with the factors of the divisor inverted. -/
theorem quotientBy_spec {u v w : CompoundUnit α} (h : u.quotientBy v = .ok w) :
    ∃ fs, w = Product.ofFactors fs ∧ Combines (-1) u v fs := by
  rw [quotientBy] at h
  split at h
  next quotient found =>
    cases h
    exact Product.div?_spec found
  next => cases h

/-- Units are raised as products are. -/
theorem rationalPower_eq_ok_iff {u w : CompoundUnit α} {q : Rat} :
    u.rationalPower q = .ok w ↔ Product.rationalPower u q = .ok w := by
  rw [rationalPower]
  cases Product.rationalPower u q with
  | ok power => simp
  | error e => cases e <;> simp

theorem spread_le_magnitude (u : CompoundUnit α) (name : String) :
    spread name u.factors ≤ u.magnitude :=
  Product.spread_le_weigh_one name u.factors

/-- Units whose exponents are in range together can be multiplied. -/
theorem productWith_isOk {u v : CompoundUnit α} (bound : u.magnitude + v.magnitude < 2147483648) :
    ∃ w, u.productWith v = .ok w := by
  obtain ⟨w, found⟩ := Product.mul?_isSome (p := u) (q := v) fun name => by
    have left := u.spread_le_magnitude name
    have right := v.spread_le_magnitude name
    omega
  exact ⟨w, by rw [productWith, found]⟩

/-- They can be divided, too. -/
theorem quotientBy_isOk {u v : CompoundUnit α} (bound : u.magnitude + v.magnitude < 2147483648) :
    ∃ w, u.quotientBy v = .ok w := by
  obtain ⟨w, found⟩ := Product.div?_isSome (p := u) (q := v) fun name => by
    have left := u.spread_le_magnitude name
    have right := v.spread_le_magnitude name
    omega
  exact ⟨w, by rw [quotientBy, found]⟩

/-- Combined factors are parts of the units that they are combined of. -/
theorem combines_parts {us : List (NamedUnit α)} {sign : Int} {u v : CompoundUnit α}
    {fs : List (Factor (NamedUnit α))} (combined : Combines sign u v fs)
    (hu : CompoundUnit.parts u ⊆ us) (hv : CompoundUnit.parts v ⊆ us) :
    ∀ f ∈ fs, f.base.parts ⊆ us := by
  intro f hf
  obtain ⟨g, hg, same⟩ := combined.base f hf
  rw [same]
  rcases List.mem_append.mp hg with left | right
  · exact CompoundUnit.parts_subset_iff.mp hu g left
  · exact CompoundUnit.parts_subset_iff.mp hv g right

section OneDefinition

variable {us : List (NamedUnit α)} {sign : Int} {u v : CompoundUnit α}
  {fs : List (Factor (NamedUnit α))}

/-- Combined factors weigh no more than the two units, if the weight of a unit goes by its name. -/
theorem combines_weigh_le {weight : NamedUnit α → Nat} (byName : String → Nat)
    (named : ∀ b : NamedUnit α, b.parts ⊆ us → byName (key b) = weight b)
    (combined : Combines sign u v fs) (hu : parts u ⊆ us) (hv : parts v ⊆ us) :
    weigh weight fs ≤ weigh weight u.factors + weigh weight v.factors := by
  have inNames : ∀ gs : List (Factor (NamedUnit α)), (∀ g ∈ gs, g.base.parts ⊆ us) →
      weigh (fun b => byName (key b)) gs = weigh weight gs :=
    fun gs inside => Product.weigh_congr fun g hg => named g.base (inside g hg)
  have lighter := combined.weigh byName
  rw [inNames fs (combines_parts combined hu hv), inNames u.factors (parts_subset_iff.mp hu),
    inNames v.factors (parts_subset_iff.mp hv)] at lighter
  exact lighter

/-- The unit that two units are combined to is no longer than both together. -/
theorem combines_magnitude_le (combined : Combines sign u v fs) :
    magnitude (Product.ofFactors fs) ≤ u.magnitude + v.magnitude :=
  (Product.weigh_ofFactors_le (fun _ => 1) fs).trans (combined.weigh fun _ => 1)

variable (oneDefinition : OneDefinition us)

include oneDefinition

/-- Multiplied out, combined factors are no longer than the two units. -/
theorem combines_extent_le (combined : Combines sign u v fs) (hu : parts u ⊆ us)
    (hv : parts v ⊆ us) : weigh NamedUnit.extent fs ≤ u.extent + v.extent := by
  obtain ⟨byName, named⟩ := oneDefinition.exists_byName (fun _ _ => 1) fun _ _ fs => weigh id fs
  exact combines_weigh_le byName (fun b inside => named b (inside b.mem_parts_self)) combined hu hv

variable [Scalar α]

/-- Combined factors contribute no more to a dimension than the two units. -/
theorem combines_load_le (combined : Combines sign u v fs) (hu : parts u ⊆ us) (hv : parts v ⊆ us)
    (name : String) :
    weigh (fun b => (b.dimensionExponent name).natAbs) fs ≤ u.load name + v.load name := by
  obtain ⟨byName, named⟩ := NamedUnit.exists_dimensionExponent_byName oneDefinition name
  exact combines_weigh_le (fun symbol => (byName symbol).natAbs)
    (fun b inside => congrArg Int.natAbs (named b inside)) combined hu hv

/-- What combined factors contribute to a dimension is what the two units contribute. -/
theorem combines_total (combined : Combines sign u v fs) (hu : parts u ⊆ us) (hv : parts v ⊆ us)
    (name : String) :
    total (NamedUnit.dimensionExponent name) fs
      = total (NamedUnit.dimensionExponent name) u.factors
        + sign * total (NamedUnit.dimensionExponent name) v.factors := by
  obtain ⟨byName, named⟩ := NamedUnit.exists_dimensionExponent_byName oneDefinition name
  have inNames : ∀ gs : List (Factor (NamedUnit α)), (∀ g ∈ gs, g.base.parts ⊆ us) →
      total (NamedUnit.dimensionExponent name) gs = total (fun b => byName (key b)) gs :=
    fun gs inside => Product.total_congr fun g hg => (named g.base (inside g hg)).symm
  rw [inNames fs (combines_parts combined hu hv), inNames u.factors (parts_subset_iff.mp hu),
    inNames v.factors (parts_subset_iff.mp hv), combined.total_eq, smul_eq_mul]

/-- The exponents in the dimensions of two units add up, or are subtracted, in the dimension of the
combined unit, as long as the exponents of both together stay in range as they are written and as
they are multiplied out. -/
theorem combines_dimension_of_extent (combined : Combines sign u v fs) (hu : parts u ⊆ us)
    (hv : parts v ⊆ us) (written : u.magnitude + v.magnitude < 2147483648)
    (expanded : u.extent + v.extent < 2147483648) (name : String) :
    dimensionExponent (Product.ofFactors fs) name
      = u.dimensionExponent name + sign * v.dimensionExponent name := by
  have shorter := combines_extent_le oneDefinition combined hu hv
  rw [dimensionExponent_ofFactors_of_extent oneDefinition (combines_parts combined hu hv)
      ((combined.weigh fun _ => 1).trans_lt written) (shorter.trans_lt expanded),
    combines_total oneDefinition combined hu hv,
    dimensionExponent_eq_total_of_extent (oneDefinition.mono hu) (by omega),
    dimensionExponent_eq_total_of_extent (oneDefinition.mono hv) (by omega)]

/-- The same, as long as the contributions to the dimension stay in range, if each base dimension
has one primitive unit. -/
theorem combines_dimension (onePrimitive : OnePrimitive us) (combined : Combines sign u v fs)
    (hu : parts u ⊆ us) (hv : parts v ⊆ us) {name : String} (left : u.load name < 2147483648)
    (right : v.load name < 2147483648)
    (bound : weigh (fun b => (b.dimensionExponent name).natAbs) fs < 2147483648) :
    dimensionExponent (Product.ofFactors fs) name
      = u.dimensionExponent name + sign * v.dimensionExponent name := by
  rw [dimensionExponent_ofFactors oneDefinition onePrimitive (combines_parts combined hu hv) bound,
    combines_total oneDefinition combined hu hv,
    dimensionExponent_eq_total oneDefinition onePrimitive hu left,
    dimensionExponent_eq_total oneDefinition onePrimitive hv right]

end OneDefinition

end CompoundUnit

end QuantityCalculus
