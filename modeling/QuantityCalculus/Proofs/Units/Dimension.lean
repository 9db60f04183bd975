/-
Module: QuantityCalculus.Proofs.Units.Dimension
Layer: Proofs
Purpose: The dimension of a unit against the exponents of base dimensions that follow from its
  definitions over unbounded integers, and against the dimensions of the units that it consists of.
Imports: QuantityCalculus.Proofs.Units.Expansion
Trusted boundary: none
Main exports: CompoundUnit.trueExponent, CompoundUnit.extentIn, CompoundUnit.dimensionExponent,
  CompoundUnit.load, CompoundUnit.primitives, OnePrimitive, OnePrimitive.of_symbols,
  dimensionExponent_eq_of_extentIn, dimensionExponent_eq, dimensionExponent_eq_total_of_extent,
  dimensionExponent_of_light_expansion, dimensionExponent_of_expansion, dimensionExponent_eq_total
Open obligations: none
-/
import QuantityCalculus.Proofs.Units.Expansion

namespace QuantityCalculus

open Product (total weigh degree spread names indicator)

variable {α : Type}

/-- The exponent of a base dimension in a unit if all definitions are multiplied out over unbounded
integers. -/
def CompoundUnit.trueExponent (u : CompoundUnit α) (name : String) : Int :=
  u.linear fun _ dimension => if dimension = name then 1 else 0

/-- What the absolute exponents of a base dimension in a unit come to if all definitions are
multiplied out. -/
def CompoundUnit.extentIn (u : CompoundUnit α) (name : String) : Nat :=
  u.mass fun _ dimension => if dimension = name then 1 else 0

theorem CompoundUnit.extentIn_le_extent (u : CompoundUnit α) (name : String) :
    u.extentIn name ≤ u.extent := by
  apply CompoundUnit.mass_mono
  intro names dimension _
  split <;> decide

/-- No two primitive units of different names measure one base dimension. -/
def OnePrimitive (us : List (NamedUnit α)) : Prop :=
  ∀ v ∈ us, ∀ w ∈ us, ∀ name, v.baseDimension? = some name → w.baseDimension? = some name →
    v.symbol = w.symbol

theorem OnePrimitive.mono {us vs : List (NamedUnit α)} (h : OnePrimitive us) (subset : vs ⊆ us) :
    OnePrimitive vs :=
  fun v hv w hw => h v (subset hv) w (subset hw)

/-- Units of the names of others have no more primitive units for a base dimension than these. -/
theorem OnePrimitive.of_symbols {us vs ws : List (NamedUnit α)} (oneDefinition : OneDefinition us)
    (hv : vs ⊆ us) (hw : ws ⊆ us) (onePrimitive : OnePrimitive vs)
    (named : ∀ w ∈ ws, ∃ v ∈ vs, v.symbol = w.symbol) : OnePrimitive ws := by
  intro w inside x inside' name measured measured'
  obtain ⟨v, known, same⟩ := named w inside
  obtain ⟨y, known', same'⟩ := named x inside'
  rw [← oneDefinition.baseDimension?_eq (hv known) (hw inside) same] at measured
  rw [← oneDefinition.baseDimension?_eq (hv known') (hw inside') same'] at measured'
  rw [← same, ← same']
  exact onePrimitive v known y known' name measured measured'

/-- Whether a unit is a primitive one that measures a given base dimension, as a number. -/
def NamedUnit.measures (name : String) (u : NamedUnit α) : Int :=
  if u.baseDimension? = some name then 1 else 0

/-- Where every name stands for one definition, what a unit measures is a function of its name. -/
theorem OneDefinition.exists_measures {us : List (NamedUnit α)} (h : OneDefinition us)
    (name : String) : ∃ value : String → Int, ∀ v ∈ us, v.measures name = value v.symbol := by
  obtain ⟨dimensionOf, byName⟩ := h.exists_baseDimension
  refine ⟨fun symbol => if dimensionOf symbol = some name then 1 else 0, fun v hv => ?_⟩
  rw [NamedUnit.measures, byName v hv]

/-- Only the values of the primitive units that are reachable matter. -/
theorem CompoundUnit.linear_congr {value other : String → String → Int} {u : CompoundUnit α}
    (h : ∀ names dimension, NamedUnit.primitive names dimension ∈ CompoundUnit.parts u →
      value names.symbol dimension = other names.symbol dimension) :
    u.linear value = u.linear other :=
  Product.total_congr fun _ hf => NamedUnit.linear_congr fun ns dimension inside =>
    h ns dimension (CompoundUnit.parts_base_subset hf inside)

/-! ### The dimension of a product of primitive units -/

/-- The power of a base dimension that a factor contributes. -/
theorem Dimension.base_power (name : String) (e : Exponent) :
    (Dimension.base name).power e = Product.ofFactors [⟨name, e⟩] := by
  have base : Dimension.base name = ⟨[⟨name, Exponent.one⟩]⟩ :=
    Product.ofFactors_of_nodup (Product.nodup_names_singleton _)
  rw [base, Product.power, List.map_singleton, Factor.power, Exponent.one_mul]

theorem CompoundUnit.primitiveDimension_eq (u : CompoundUnit α) :
    CompoundUnit.primitiveDimension u
      = Product.ofProducts (u.factors.filterMap fun f =>
          f.base.baseDimension?.map fun name => Product.ofFactors [⟨name, f.exponent⟩]) := by
  simp only [CompoundUnit.primitiveDimension, Dimension.base_power]

theorem CompoundUnit.primitiveDimension_canonical (u : CompoundUnit α) :
    (CompoundUnit.primitiveDimension u).Canonical := Product.canonical_ofProducts _

theorem Dimension.ofFactors_singleton (name : String) (e : Exponent) :
    (Product.ofFactors [(⟨name, e⟩ : Factor String)]).factors
      = if e.val = 0 then [] else [⟨name, e⟩] := by
  rw [Product.ofFactors_of_nodup (Product.nodup_names_singleton _)]
  by_cases zero : e.val = 0 <;> simp [zero]

/-- What the primitive factors contribute to a dimension is what they weigh. -/
theorem CompoundUnit.primitiveDimension_spreads (u : CompoundUnit α) (name : String) :
    ((u.factors.filterMap fun f => f.base.baseDimension?.map fun n =>
      Product.ofFactors [(⟨n, f.exponent⟩ : Factor String)]).map
        fun q => spread name q.factors).sum
      = weigh (fun b => (b.measures name).natAbs) u.factors := by
  induction u.factors with
  | nil => rfl
  | cons f fs ih =>
      cases measured : f.base.baseDimension? with
      | none => simpa [measured, NamedUnit.measures] using ih
      | some n =>
          rw [List.filterMap_cons_some (by rw [measured, Option.map_some]), List.map_cons,
            List.sum_cons, ih, Product.weigh_cons, Dimension.ofFactors_singleton]
          by_cases zero : f.exponent.val = 0 <;>
            by_cases same : n = name <;>
              simp [zero, same, measured, NamedUnit.measures, spread, indicator, Keyed.key]

/-- A unit measures each dimension at most once. -/
theorem CompoundUnit.weigh_measures_le (u : CompoundUnit α) (name : String) :
    weigh (fun b => (b.measures name).natAbs) u.factors ≤ weigh (fun _ => 1) u.factors := by
  apply Product.weigh_mono
  intro f _
  unfold NamedUnit.measures
  split <;> decide

/-- The absolute exponents of a dimension never exceed those of the primitive units. -/
theorem CompoundUnit.natAbs_primitiveDimension_degree_le (u : CompoundUnit α) (name : String) :
    (degree name (CompoundUnit.primitiveDimension u).factors).natAbs
      ≤ weigh (fun _ => 1) u.factors := by
  refine (Product.natAbs_degree_le name _).trans (le_trans ?_ (u.weigh_measures_le name))
  rw [CompoundUnit.primitiveDimension_eq, ← u.primitiveDimension_spreads]
  exact Product.weigh_ofProducts_le (fun k => (if k = name then (1 : Int) else 0).natAbs) _

/-- A base dimension has the exponents of the primitive units that measure it, as long as these do
not add up beyond the range of an exponent. -/
theorem CompoundUnit.primitiveDimension_degree {u : CompoundUnit α} {name : String}
    (bound : weigh (fun b => (b.measures name).natAbs) u.factors < 2147483648) :
    degree name (CompoundUnit.primitiveDimension u).factors
      = total (NamedUnit.measures name) u.factors := by
  rw [← u.primitiveDimension_spreads] at bound
  rw [CompoundUnit.primitiveDimension_eq, Product.degree_ofProducts bound]
  clear bound
  induction u.factors with
  | nil => rfl
  | cons f fs ih =>
      cases measured : f.base.baseDimension? with
      | none => simpa [measured, NamedUnit.measures] using ih
      | some n =>
          rw [List.filterMap_cons_some (by rw [measured, Option.map_some]), List.map_cons,
            List.sum_cons, ih, Product.total_cons, Dimension.ofFactors_singleton]
          by_cases zero : f.exponent.val = 0 <;>
            by_cases same : n = name <;>
              simp [zero, same, measured, NamedUnit.measures, degree, indicator, Keyed.key]

/-! ### The dimension of a unit -/

variable [Scalar α]

theorem CompoundUnit.dimension_canonical (u : CompoundUnit α) : u.dimension.Canonical :=
  CompoundUnit.primitiveDimension_canonical _

/-- The exponent of a base dimension in the dimension of a unit. -/
def CompoundUnit.dimensionExponent (u : CompoundUnit α) (name : String) : Int :=
  (u.dimension.exponentOf name).val

theorem CompoundUnit.dimensionExponent_eq_degree (u : CompoundUnit α) (name : String) :
    u.dimensionExponent name = degree name u.dimension.factors :=
  Product.exponentOf_val u.dimension_canonical.nodup name

theorem CompoundUnit.isDimensionless_iff (u : CompoundUnit α) :
    u.isDimensionless = true ↔ ∀ name, u.dimensionExponent name = 0 := by
  simp only [CompoundUnit.dimensionExponent_eq_degree]
  exact Product.isUnity_iff_degree u.dimension_canonical

theorem CompoundUnit.dimension_agrees_iff (u v : CompoundUnit α) :
    u.dimension.agrees v.dimension = true
      ↔ ∀ name, u.dimensionExponent name = v.dimensionExponent name := by
  simp only [CompoundUnit.dimensionExponent_eq_degree]
  exact Product.agrees_iff_degree u.dimension_canonical v.dimension_canonical

/-- A unit whose expansion weighs little has the dimension of the primitive units in it. -/
theorem CompoundUnit.dimensionExponent_eq_measures {u : CompoundUnit α}
    (light : weigh (fun _ => 1) (CompoundUnit.expansion u).unit.factors < 2147483648)
    (name : String) :
    u.dimensionExponent name
      = total (NamedUnit.measures name) (CompoundUnit.expansion u).unit.factors := by
  rw [u.dimensionExponent_eq_degree]
  exact CompoundUnit.primitiveDimension_degree
    ((CompoundUnit.weigh_measures_le (CompoundUnit.expansion u).unit name).trans_lt light)

/-- Where every name stands for one definition and what is multiplied out to a base dimension stays
in range, the dimension of a unit has the exponent that follows from the definitions. -/
theorem CompoundUnit.dimensionExponent_eq_of_extentIn {u : CompoundUnit α}
    (oneDefinition : OneDefinition (CompoundUnit.parts u)) {name : String}
    (bound : u.extentIn name < 2147483648) : u.dimensionExponent name = u.trueExponent name := by
  obtain ⟨value, byName⟩ := oneDefinition.exists_measures name
  have measured : ∀ names dimension, NamedUnit.primitive names dimension ∈ CompoundUnit.parts u →
      value names.symbol = if dimension = name then 1 else 0 := by
    intro names dimension inside
    have same := byName _ inside
    simp only [NamedUnit.measures, NamedUnit.baseDimension?, Option.some.injEq] at same
    exact same.symm
  have lighter : u.mass (fun symbol _ => (value symbol).natAbs) ≤ u.extentIn name := by
    apply CompoundUnit.mass_mono
    intro names dimension inside
    rw [measured names dimension inside]
    split <;> rfl
  have inExpansion : ∀ f ∈ (CompoundUnit.expansion u).unit.factors,
      f.base.measures name = value (key f.base) := fun f hf =>
    byName f.base (u.expansion_primitive hf).2
  have light : weigh (fun b => (b.measures name).natAbs) (CompoundUnit.expansion u).unit.factors
      ≤ u.extentIn name := by
    calc
      weigh (fun b => (b.measures name).natAbs) (CompoundUnit.expansion u).unit.factors
        = weigh (fun b => (value (key b)).natAbs) (CompoundUnit.expansion u).unit.factors :=
          Product.weigh_congr fun f hf => by rw [inExpansion f hf]
      _ ≤ u.mass (fun symbol _ => (value symbol).natAbs) :=
          u.expansion_weigh_le fun symbol => (value symbol).natAbs
      _ ≤ u.extentIn name := lighter
  calc
    u.dimensionExponent name
      = total (NamedUnit.measures name) (CompoundUnit.expansion u).unit.factors := by
        rw [u.dimensionExponent_eq_degree]
        exact CompoundUnit.primitiveDimension_degree (light.trans_lt bound)
    _ = total (fun b => value (key b)) (CompoundUnit.expansion u).unit.factors :=
        Product.total_congr inExpansion
    _ = u.linear (fun symbol _ => value symbol) :=
        CompoundUnit.expansion_total (lighter.trans_lt bound)
    _ = u.trueExponent name := CompoundUnit.linear_congr measured

/-- Where every name stands for one definition and the multiplied out exponents stay in range, the
dimension of a unit has the exponents that follow from the definitions. -/
theorem CompoundUnit.dimensionExponent_eq {u : CompoundUnit α}
    (oneDefinition : OneDefinition (CompoundUnit.parts u)) (bound : u.extent < 2147483648)
    (name : String) : u.dimensionExponent name = u.trueExponent name :=
  CompoundUnit.dimensionExponent_eq_of_extentIn oneDefinition
    ((u.extentIn_le_extent name).trans_lt bound)

/-- The exponent of a base dimension in the dimension of a named unit. -/
def NamedUnit.dimensionExponent (name : String) (b : NamedUnit α) : Int :=
  CompoundUnit.dimensionExponent (CompoundUnit.ofNamed b) name

omit [Scalar α] in
theorem CompoundUnit.extent_ofNamed (b : NamedUnit α) :
    (CompoundUnit.ofNamed b).extent = b.extent := by
  rw [CompoundUnit.ofNamed_eq, CompoundUnit.extent]
  exact Nat.one_mul b.extent

/-- The same for a named unit. -/
theorem NamedUnit.dimensionExponent_eq_linear {b : NamedUnit α}
    (oneDefinition : OneDefinition b.parts) (bound : b.extent < 2147483648) (name : String) :
    b.dimensionExponent name = b.linear fun _ dimension => if dimension = name then 1 else 0 := by
  rw [← CompoundUnit.parts_ofNamed] at oneDefinition
  rw [← CompoundUnit.extent_ofNamed] at bound
  rw [NamedUnit.dimensionExponent, CompoundUnit.dimensionExponent_eq oneDefinition bound,
    CompoundUnit.trueExponent, CompoundUnit.ofNamed_eq, CompoundUnit.linear]
  simp [Exponent.one]

/-- The dimension of a unit is put together from those of the units that it consists of, as long as
the multiplied out exponents stay in range. -/
theorem CompoundUnit.dimensionExponent_eq_total_of_extent {u : CompoundUnit α}
    (oneDefinition : OneDefinition (CompoundUnit.parts u)) (bound : u.extent < 2147483648)
    (name : String) :
    u.dimensionExponent name = total (NamedUnit.dimensionExponent name) u.factors := by
  rw [CompoundUnit.dimensionExponent_eq oneDefinition bound]
  -- A base with the exponent zero may extend beyond the range, but it does not count.
  refine congrArg List.sum (List.map_congr_left fun f hf => ?_)
  by_cases zero : f.exponent.val = 0
  · simp [zero]
  · rw [NamedUnit.dimensionExponent_eq_linear
      (oneDefinition.mono (CompoundUnit.parts_base_subset hf))
      ((CompoundUnit.mass_base_le (fun _ _ => 1) hf zero).trans_lt bound)]

/-! ### Names and dimensions -/

/-- What the factors of a unit contribute to the exponent of a base dimension, in absolute
values. -/
def CompoundUnit.load (u : CompoundUnit α) (name : String) : Nat :=
  weigh (fun b => (b.dimensionExponent name).natAbs) u.factors

theorem CompoundUnit.natAbs_dimensionExponent_le (u : CompoundUnit α) (name : String) :
    (u.dimensionExponent name).natAbs ≤ u.extent := by
  rw [u.dimensionExponent_eq_degree]
  exact (CompoundUnit.natAbs_primitiveDimension_degree_le _ name).trans
    (u.expansion_weigh_le fun _ => 1)

theorem NamedUnit.natAbs_dimensionExponent_le (b : NamedUnit α) (name : String) :
    (b.dimensionExponent name).natAbs ≤ b.extent := by
  rw [← CompoundUnit.extent_ofNamed]
  exact CompoundUnit.natAbs_dimensionExponent_le _ name

/-- A unit contributes no more to the exponent of a base dimension than it has primitive units. -/
theorem CompoundUnit.load_le_extent (u : CompoundUnit α) (name : String) :
    u.load name ≤ u.extent :=
  Product.weigh_mono fun f _ => f.base.natAbs_dimensionExponent_le name

section OneDefinition

variable {us : List (NamedUnit α)} (oneDefinition : OneDefinition us)

include oneDefinition

/-- Units that expand into the same names have the same dimension. -/
theorem CompoundUnit.dimension_eq_of_named {u v : CompoundUnit α} (hu : CompoundUnit.parts u ⊆ us)
    (hv : CompoundUnit.parts v ⊆ us)
    (same : (CompoundUnit.expansion u).unit.named = (CompoundUnit.expansion v).unit.named) :
    u.dimension = v.dimension := by
  obtain ⟨dimensionOf, byName⟩ := oneDefinition.exists_baseDimension
  have dimensions : ∀ w : CompoundUnit α, CompoundUnit.parts w ⊆ us →
      w.dimension = Product.ofProducts ((CompoundUnit.expansion w).unit.named.factors.filterMap
        fun f => (dimensionOf f.base).map fun n => Product.ofFactors [⟨n, f.exponent⟩]) := by
    intro w inside
    rw [CompoundUnit.dimension, CompoundUnit.primitiveDimension_eq, Product.named,
      List.filterMap_map]
    refine congrArg Product.ofProducts (List.filterMap_congr fun f hf => ?_)
    rw [byName f.base (inside (w.expansion_primitive hf).2)]
    rfl
  rw [dimensions u hu, dimensions v hv, same]

/-- Units with the same expansion have the same dimension, if the expansion weighs little. -/
theorem CompoundUnit.dimensionExponent_of_light_expansion {u v : CompoundUnit α}
    (hu : CompoundUnit.parts u ⊆ us) (hv : CompoundUnit.parts v ⊆ us)
    (same : ∀ name, degree name (CompoundUnit.expansion u).unit.factors
      = degree name (CompoundUnit.expansion v).unit.factors)
    (light : weigh (fun _ => 1) (CompoundUnit.expansion v).unit.factors < 2147483648)
    (name : String) : u.dimensionExponent name = v.dimensionExponent name := by
  obtain ⟨value, byName⟩ := oneDefinition.exists_measures name
  have weight := Product.weigh_eq_of_degree u.expansion_canonical v.expansion_canonical same
    fun _ => 1
  calc
    u.dimensionExponent name
      = total (NamedUnit.measures name) (CompoundUnit.expansion u).unit.factors :=
        CompoundUnit.dimensionExponent_eq_measures (by rwa [weight]) name
    _ = total (fun b => value (key b)) (CompoundUnit.expansion u).unit.factors :=
        Product.total_congr fun f hf => byName f.base (hu (u.expansion_primitive hf).2)
    _ = total (fun b => value (key b)) (CompoundUnit.expansion v).unit.factors :=
        Product.total_eq_of_degree fun other _ => same other
    _ = total (NamedUnit.measures name) (CompoundUnit.expansion v).unit.factors :=
        Product.total_congr fun f hf => (byName f.base (hv (v.expansion_primitive hf).2)).symm
    _ = v.dimensionExponent name := (CompoundUnit.dimensionExponent_eq_measures light name).symm

/-- Units of one name have the same dimension. -/
theorem NamedUnit.dimensionExponent_eq {v w : NamedUnit α} (hv : v.parts ⊆ us) (hw : w.parts ⊆ us)
    (same : v.symbol = w.symbol) (name : String) :
    v.dimensionExponent name = w.dimensionExponent name := by
  have expanded : (CompoundUnit.expansion (CompoundUnit.ofNamed v)).unit.named
      = (CompoundUnit.expansion (CompoundUnit.ofNamed w)).unit.named := by
    rw [CompoundUnit.expansion_unit_ofNamed, CompoundUnit.expansion_unit_ofNamed]
    exact oneDefinition.named_expansion_eq (hv v.mem_parts_self) (hw w.mem_parts_self) same
  rw [← CompoundUnit.parts_ofNamed] at hv hw
  rw [NamedUnit.dimensionExponent, CompoundUnit.dimensionExponent,
    CompoundUnit.dimension_eq_of_named oneDefinition hv hw expanded]
  rfl

/-- The exponent of a base dimension is a function of the name of a unit. -/
theorem NamedUnit.exists_dimensionExponent_byName (name : String) :
    ∃ byName : String → Int, ∀ v : NamedUnit α, v.parts ⊆ us →
      byName (key v) = v.dimensionExponent name := by
  classical
  refine ⟨fun symbol => if known : ∃ v : NamedUnit α, v.parts ⊆ us ∧ v.symbol = symbol then
      known.choose.dimensionExponent name else 0, ?_⟩
  intro v hv
  have known : ∃ w : NamedUnit α, w.parts ⊆ us ∧ w.symbol = key v := ⟨v, hv, rfl⟩
  dsimp only
  rw [dif_pos known]
  exact NamedUnit.dimensionExponent_eq oneDefinition known.choose_spec.1 hv
    known.choose_spec.2 name

/-- Merging factors of the same name adds nothing to their contributions. -/
theorem CompoundUnit.load_ofFactors_le {fs : List (Factor (NamedUnit α))}
    (inside : ∀ f ∈ fs, f.base.parts ⊆ us) (name : String) :
    CompoundUnit.load (Product.ofFactors fs) name
      ≤ weigh (fun b => (b.dimensionExponent name).natAbs) fs := by
  obtain ⟨byName, named⟩ := NamedUnit.exists_dimensionExponent_byName oneDefinition name
  have weights : ∀ f ∈ fs,
      (byName (key f.base)).natAbs = (f.base.dimensionExponent name).natAbs := by
    intro f hf
    rw [named f.base (inside f hf)]
  exact Product.weigh_ofFactors_le_of_byName (fun symbol => (byName symbol).natAbs) weights

/-- Merging factors of the same name keeps what they contribute to the exponent of a base dimension,
as long as no name that contributes to it has exponents beyond the range. -/
theorem CompoundUnit.total_ofFactors {fs : List (Factor (NamedUnit α))}
    (inside : ∀ f ∈ fs, f.base.parts ⊆ us) {name : String}
    (bound : ∀ f ∈ fs, f.base.dimensionExponent name ≠ 0 →
      spread (key f.base) fs < 2147483648) :
    total (NamedUnit.dimensionExponent name) (Product.ofFactors fs).factors
      = total (NamedUnit.dimensionExponent name) fs := by
  obtain ⟨byName, named⟩ := NamedUnit.exists_dimensionExponent_byName oneDefinition name
  have insideMerged := CompoundUnit.parts_subset_iff.mp (CompoundUnit.parts_ofFactors_subset inside)
  have inRange : ∀ symbol, byName symbol ≠ 0 → spread symbol fs < 2147483648 := by
    intro symbol counts
    by_cases present : ∃ f ∈ fs, key f.base = symbol
    · obtain ⟨f, hf, rfl⟩ := present
      rw [named f.base (inside f hf)] at counts
      exact bound f hf counts
    · have none : spread symbol fs ≤ weigh (fun _ => 0) fs :=
        Product.spread_le_weigh fun f hf same => absurd ⟨f, hf, same⟩ present
      rw [Product.weigh_zero] at none
      omega
  calc
    total (NamedUnit.dimensionExponent name) (Product.ofFactors fs).factors
      = total (fun b => byName (key b)) (Product.ofFactors fs).factors :=
        Product.total_congr fun g hg => (named g.base (insideMerged g hg)).symm
    _ = total (fun b => byName (key b)) fs := Product.total_ofFactors inRange
    _ = total (NamedUnit.dimensionExponent name) fs :=
        Product.total_congr fun f hf => named f.base (inside f hf)

end OneDefinition

/-! ### One primitive unit for each dimension -/

/-- The primitive units that are left once all definitions of a unit are multiplied out. -/
def CompoundUnit.primitives (u : CompoundUnit α) : List (NamedUnit α) :=
  (CompoundUnit.expansion u).unit.factors.map (·.base)

theorem CompoundUnit.base_mem_primitives {u : CompoundUnit α} {f : Factor (NamedUnit α)}
    (h : f ∈ (CompoundUnit.expansion u).unit.factors) : f.base ∈ u.primitives :=
  List.mem_map_of_mem h

theorem CompoundUnit.primitives_subset_parts (u : CompoundUnit α) :
    u.primitives ⊆ CompoundUnit.parts u := by
  intro p hp
  obtain ⟨f, hf, rfl⟩ := List.mem_map.mp hp
  exact (u.expansion_primitive hf).2

/-- Units with the same expansion are made of primitive units of the same names. -/
theorem CompoundUnit.symbols_of_expansion {u v : CompoundUnit α}
    (same : ∀ name, degree name (CompoundUnit.expansion u).unit.factors
      = degree name (CompoundUnit.expansion v).unit.factors) :
    ∀ p ∈ u.primitives, ∃ q ∈ v.primitives, q.symbol = p.symbol := by
  intro p hp
  obtain ⟨f, hf, rfl⟩ := List.mem_map.mp hp
  obtain ⟨g, hg, named⟩ := List.mem_map.mp
    (Product.names_subset_of_degree u.expansion_canonical same (List.mem_map_of_mem hf))
  exact ⟨g.base, base_mem_primitives hg, named⟩

theorem CompoundUnit.measured_of_mem {u : CompoundUnit α} {f : Factor (NamedUnit α)}
    (h : f ∈ (CompoundUnit.expansion u).unit.factors) :
    ∃ name, f.base.baseDimension? = some name := by
  obtain ⟨isPrimitive, -⟩ := u.expansion_primitive h
  cases hb : f.base with
  | primitive names dimension => exact ⟨dimension, rfl⟩
  | derived names factor definition => simp [hb, NamedUnit.isPrimitive] at isPrimitive

/-- A factor under the name of the base dimension that its unit measures, in place of its own. -/
def NamedUnit.measuredFactor (f : Factor (NamedUnit α)) : Factor String :=
  ⟨f.base.baseDimension?.getD "", f.exponent⟩

section OnePrimitive

variable {us : List (NamedUnit α)} (oneDefinition : OneDefinition us)
  (onePrimitive : OnePrimitive us)

include onePrimitive

/-- Primitive units of different names measure different base dimensions, so an expansion stays
without repetitions when its factors go by their dimensions. -/
theorem CompoundUnit.measured_canonical {u : CompoundUnit α} (inside : u.primitives ⊆ us) :
    (⟨(CompoundUnit.expansion u).unit.factors.map NamedUnit.measuredFactor⟩ :
      Dimension).Canonical := by
  have canonical := u.expansion_canonical
  refine ⟨?_, ?_⟩
  · have names_eq : names ((CompoundUnit.expansion u).unit.factors.map NamedUnit.measuredFactor)
        = (CompoundUnit.expansion u).unit.factors.map
          fun f => f.base.baseDimension?.getD "" := by
      simp [names, NamedUnit.measuredFactor, Keyed.key]
    rw [names_eq]
    refine List.Nodup.map_on (fun f hf g hg same => ?_) (List.Nodup.of_map _ canonical.nodup)
    obtain ⟨n, hn⟩ := measured_of_mem hf
    obtain ⟨m, hm⟩ := measured_of_mem hg
    rw [hn, hm, Option.getD_some, Option.getD_some] at same
    have symbols : key f.base = key g.base :=
      onePrimitive _ (inside (base_mem_primitives hf)) _ (inside (base_mem_primitives hg)) n hn
        (same ▸ hm)
    exact List.inj_on_of_nodup_map canonical.nodup hf hg symbols
  · intro f hf
    obtain ⟨g, hg, rfl⟩ := List.mem_map.mp hf
    exact canonical.nonzero g hg

/-- The dimension of a unit is its expansion with every primitive unit replaced by what it
measures. -/
theorem CompoundUnit.dimension_eq_measured {u : CompoundUnit α} (inside : u.primitives ⊆ us) :
    u.dimension
      = ⟨(CompoundUnit.expansion u).unit.factors.map NamedUnit.measuredFactor⟩ := by
  rw [CompoundUnit.dimension, CompoundUnit.primitiveDimension_eq,
    ← Product.ofProducts_singletons (measured_canonical onePrimitive inside), List.map_map,
    ← List.filterMap_eq_map]
  refine congrArg Product.ofProducts (List.filterMap_congr fun f hf => ?_)
  obtain ⟨n, hn⟩ := measured_of_mem hf
  simp [hn, NamedUnit.measuredFactor]

include oneDefinition

omit [Scalar α] in
/-- Among units of one definition each, measuring the dimension of a primitive unit is bearing its
name. -/
theorem NamedUnit.measures_iff_named {b p : NamedUnit α} (hb : b ∈ us) (hp : p ∈ us)
    {n name : String} (hn : b.baseDimension? = some n) (measured : p.baseDimension? = some name) :
    n = name ↔ key b = p.symbol := by
  constructor
  · rintro rfl
    exact onePrimitive _ hb _ hp n hn measured
  · intro same
    have equal := oneDefinition.baseDimension?_eq hb hp same
    rw [hn, measured] at equal
    exact Option.some.inj equal

omit [Scalar α] in
theorem NamedUnit.degree_measured {p : NamedUnit α} (hp : p ∈ us) {name : String}
    (measured : p.baseDimension? = some name) (fs : List (Factor (NamedUnit α)))
    (known : ∀ f ∈ fs, f.base ∈ us ∧ ∃ n, f.base.baseDimension? = some n) :
    degree name (fs.map NamedUnit.measuredFactor) = degree p.symbol fs := by
  induction fs with
  | nil => rfl
  | cons f fs ih =>
      obtain ⟨inside, n, hn⟩ := known f List.mem_cons_self
      have named := NamedUnit.measures_iff_named oneDefinition onePrimitive inside hp hn measured
      rw [List.map_cons, Product.degree_cons, Product.degree_cons,
        ih fun g hg => known g (List.mem_cons_of_mem _ hg)]
      simp only [NamedUnit.measuredFactor, hn, Option.getD_some, Keyed.key, id_eq] at named ⊢
      simp only [named]

/-- A primitive unit and its dimension have the same exponent everywhere. -/
theorem CompoundUnit.dimensionExponent_primitive {u : CompoundUnit α}
    (inside : u.primitives ⊆ us) {p : NamedUnit α} (hp : p ∈ us) {name : String}
    (measured : p.baseDimension? = some name) :
    u.dimensionExponent name = degree p.symbol (CompoundUnit.expansion u).unit.factors := by
  have known : ∀ f ∈ (CompoundUnit.expansion u).unit.factors,
      f.base ∈ us ∧ ∃ n, f.base.baseDimension? = some n :=
    fun f hf => ⟨inside (base_mem_primitives hf), measured_of_mem hf⟩
  rw [u.dimensionExponent_eq_degree, dimension_eq_measured onePrimitive inside]
  exact NamedUnit.degree_measured oneDefinition onePrimitive hp measured _ known

omit oneDefinition onePrimitive in
/-- A base dimension that no primitive unit measures has no exponent. -/
theorem CompoundUnit.dimensionExponent_absent {u : CompoundUnit α}
    (inside : u.primitives ⊆ us) {name : String}
    (absent : ∀ p ∈ us, p.baseDimension? ≠ some name) :
    u.dimensionExponent name = 0 := by
  have zero : ∀ f ∈ (CompoundUnit.expansion u).unit.factors, f.base.measures name = 0 :=
    fun f hf => if_neg (absent f.base (inside (base_mem_primitives hf)))
  have light : weigh (fun b => (b.measures name).natAbs)
      (CompoundUnit.expansion u).unit.factors = 0 := by
    refine Nat.le_zero.mp ((Product.weigh_mono fun f hf => ?_).trans
      (Nat.le_of_eq (Product.weigh_zero _)))
    rw [zero f hf, Int.natAbs_zero]
  rw [u.dimensionExponent_eq_degree, CompoundUnit.dimension,
    CompoundUnit.primitiveDimension_degree (by omega), Product.total_eq_zero zero]

omit onePrimitive in
/-- Units with the same expansion have the same dimension, if one of them has one primitive unit for
each base dimension. -/
theorem CompoundUnit.dimensionExponent_of_expansion {u v : CompoundUnit α}
    (hu : CompoundUnit.parts u ⊆ us) (hv : CompoundUnit.parts v ⊆ us)
    (onePrimitive : OnePrimitive (CompoundUnit.parts v))
    (same : ∀ name, degree name (CompoundUnit.expansion u).unit.factors
      = degree name (CompoundUnit.expansion v).unit.factors) (name : String) :
    u.dimensionExponent name = v.dimensionExponent name := by
  have insideU : u.primitives ⊆ us := List.Subset.trans u.primitives_subset_parts hu
  have insideV : v.primitives ⊆ us := List.Subset.trans v.primitives_subset_parts hv
  have inside : u.primitives ++ v.primitives ⊆ us := List.append_subset.mpr ⟨insideU, insideV⟩
  -- The two expansions name the same primitive units, so those of `v` speak for all.
  have oneOfBoth : OnePrimitive (u.primitives ++ v.primitives) := by
    refine OnePrimitive.of_symbols oneDefinition insideV inside
      (onePrimitive.mono v.primitives_subset_parts) fun p hp => ?_
    rcases List.mem_append.mp hp with left | right
    · exact symbols_of_expansion same p left
    · exact ⟨p, right, rfl⟩
  have left : u.primitives ⊆ u.primitives ++ v.primitives := List.subset_append_left _ _
  have right : v.primitives ⊆ u.primitives ++ v.primitives := List.subset_append_right _ _
  by_cases present : ∃ p ∈ u.primitives ++ v.primitives, p.baseDimension? = some name
  · obtain ⟨p, hp, measured⟩ := present
    rw [dimensionExponent_primitive (oneDefinition.mono inside) oneOfBoth left hp measured,
      dimensionExponent_primitive (oneDefinition.mono inside) oneOfBoth right hp measured, same]
  · have absent : ∀ p ∈ u.primitives ++ v.primitives, p.baseDimension? ≠ some name :=
      fun p hp measured => present ⟨p, hp, measured⟩
    rw [dimensionExponent_absent left absent, dimensionExponent_absent right absent]

/-- The dimension of a unit is put together from those of the units that it consists of, as long as
these do not add up beyond the range of an exponent. -/
theorem CompoundUnit.dimensionExponent_eq_total {u : CompoundUnit α}
    (inside : CompoundUnit.parts u ⊆ us) {name : String} (bound : u.load name < 2147483648) :
    u.dimensionExponent name = total (NamedUnit.dimensionExponent name) u.factors := by
  have insideUnit : u.primitives ⊆ us := List.Subset.trans u.primitives_subset_parts inside
  have insideBase : ∀ f ∈ u.factors, (CompoundUnit.ofNamed f.base).primitives ⊆ us := by
    intro f hf
    refine List.Subset.trans (CompoundUnit.primitives_subset_parts _) ?_
    rw [CompoundUnit.parts_ofNamed]
    exact CompoundUnit.parts_subset_iff.mp inside f hf
  by_cases present : ∃ p ∈ us, p.baseDimension? = some name
  · obtain ⟨p, hp, measured⟩ := present
    have bases : ∀ f ∈ u.factors,
        f.base.dimensionExponent name = degree p.symbol f.base.expansion.unit.factors := by
      intro f hf
      rw [NamedUnit.dimensionExponent, CompoundUnit.dimensionExponent_primitive oneDefinition
        onePrimitive (insideBase f hf) hp measured, CompoundUnit.expansion_unit_ofNamed]
    have weights : weigh (fun b => (degree p.symbol b.expansion.unit.factors).natAbs) u.factors
        ≤ u.load name :=
      Product.weigh_mono fun f hf => Nat.le_of_eq (congrArg Int.natAbs (bases f hf).symm)
    rw [CompoundUnit.dimensionExponent_primitive oneDefinition onePrimitive insideUnit hp measured,
      CompoundUnit.expansion_degree (by omega)]
    exact (Product.total_congr bases).symm
  · have absent : ∀ p ∈ us, p.baseDimension? ≠ some name := fun p hp measured =>
      present ⟨p, hp, measured⟩
    have zero : ∀ f ∈ u.factors, f.base.dimensionExponent name = 0 := fun f hf =>
      CompoundUnit.dimensionExponent_absent (insideBase f hf) absent
    rw [CompoundUnit.dimensionExponent_absent insideUnit absent, Product.total_eq_zero zero]

/-- Merging factors of the same name keeps the dimension, as long as their contributions do not add
up beyond the range of an exponent. -/
theorem CompoundUnit.dimensionExponent_ofFactors {fs : List (Factor (NamedUnit α))}
    (inside : ∀ f ∈ fs, f.base.parts ⊆ us) {name : String}
    (bound : weigh (fun b => (b.dimensionExponent name).natAbs) fs < 2147483648) :
    CompoundUnit.dimensionExponent (Product.ofFactors fs) name
      = total (NamedUnit.dimensionExponent name) fs := by
  have lighter :=
    (CompoundUnit.load_ofFactors_le oneDefinition inside name).trans_lt bound
  have merging : total (NamedUnit.dimensionExponent name) (Product.ofFactors fs).factors
      = total (NamedUnit.dimensionExponent name) fs := by
    apply CompoundUnit.total_ofFactors oneDefinition inside
    intro f hf counts
    -- A name that counts has a weight of its own, so its exponents add up within the range.
    refine (Product.spread_le_weigh fun g hg same => ?_).trans_lt bound
    rw [NamedUnit.dimensionExponent_eq oneDefinition (inside g hg) (inside f hf) same]
    exact Int.natAbs_pos.mpr counts
  calc
    CompoundUnit.dimensionExponent (Product.ofFactors fs) name
      = total (NamedUnit.dimensionExponent name) (Product.ofFactors fs).factors :=
        CompoundUnit.dimensionExponent_eq_total oneDefinition onePrimitive
          (CompoundUnit.parts_ofFactors_subset inside) lighter
    _ = total (NamedUnit.dimensionExponent name) fs := merging

end OnePrimitive

end QuantityCalculus
