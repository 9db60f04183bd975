/-
Module: QuantityCalculus.Proofs.Units.Expansion
Layer: Proofs
Purpose: The expansion of units into primitive ones against the exponents that follow from their
  definitions over unbounded integers.  As long as the absolute exponents of a unit, multiplied out
  down to its primitive units, stay below the range of an exponent, both are the same.
Imports: QuantityCalculus.Proofs.Units.Definition
Trusted boundary: none
Main exports: NamedUnit.linear, CompoundUnit.linear, CompoundUnit.mass, CompoundUnit.extent,
  CompoundUnit.magnitude, mass_mono, mass_base_le, expansion_primitive, expansion_canonical,
  expansion_weigh_le, expansion_degree, expansion_total
Open obligations: none
-/
import QuantityCalculus.Proofs.Units.Definition

namespace QuantityCalculus

open Product (total weigh degree spread names Canonical)

variable {α : Type}

/-! ### Exponents and weights of definitions -/

/-- What a named unit comes to if each of its primitive units, given by symbol and dimension, has a
value that counts as often as its exponent says when all definitions are multiplied out. -/
def NamedUnit.linear (value : String → String → Int) : NamedUnit α → Int :=
  NamedUnit.fold value fun _ _ fs => total id fs

/-- What a unit comes to if each of its primitive units has a value. -/
def CompoundUnit.linear (value : String → String → Int) (u : CompoundUnit α) : Int :=
  total (NamedUnit.linear value) u.factors

/-- What the absolute exponents of a named unit come to when all definitions are multiplied out, if
each primitive unit, given by symbol and dimension, has a weight. -/
def NamedUnit.mass (weight : String → String → Nat) : NamedUnit α → Nat :=
  NamedUnit.fold weight fun _ _ fs => weigh id fs

/-- What the absolute exponents of a unit come to if each of its primitive units has a weight. -/
def CompoundUnit.mass (weight : String → String → Nat) (u : CompoundUnit α) : Nat :=
  weigh (NamedUnit.mass weight) u.factors

/-- The absolute exponents of a named unit when all definitions are multiplied out down to primitive
units. -/
def NamedUnit.extent : NamedUnit α → Nat :=
  NamedUnit.fold (fun _ _ => 1) fun _ _ fs => weigh id fs

/-- The absolute exponents of a unit when all definitions are multiplied out down to primitive
units. -/
def CompoundUnit.extent (u : CompoundUnit α) : Nat := weigh NamedUnit.extent u.factors

/-- The absolute exponents of a unit as it is written. -/
def CompoundUnit.magnitude (u : CompoundUnit α) : Nat := weigh (fun _ => 1) u.factors

/-- Values may be put in the place of units before they are added up. -/
theorem total_map_fold {A : Type} [AddCommGroup A] (value : NamedUnit α → A)
    (fs : List (Factor (NamedUnit α))) :
    total id (fs.map fun f => (⟨value f.base, f.exponent⟩ : Factor A)) = total value fs := by
  induction fs with
  | nil => rfl
  | cons f fs ih => simp [ih]

theorem weigh_map_fold (weight : NamedUnit α → Nat) (fs : List (Factor (NamedUnit α))) :
    weigh id (fs.map fun f => (⟨weight f.base, f.exponent⟩ : Factor Nat)) = weigh weight fs := by
  induction fs with
  | nil => rfl
  | cons f fs ih => simp [ih]

@[simp] theorem NamedUnit.linear_primitive (value : String → String → Int) (names : UnitNames)
    (dimension : String) :
    (NamedUnit.primitive names dimension : NamedUnit α).linear value
      = value names.symbol dimension :=
  rfl

/-- The value of a derived unit is that of its definition. -/
theorem NamedUnit.linear_derived (value : String → String → Int) (names : UnitNames) (factor : α)
    (definition : CompoundUnit α) :
    (NamedUnit.derived names factor definition).linear value
      = CompoundUnit.linear value definition := by
  rw [NamedUnit.linear, NamedUnit.fold_derived, total_map_fold]
  rfl

@[simp] theorem NamedUnit.mass_primitive (weight : String → String → Nat) (names : UnitNames)
    (dimension : String) :
    (NamedUnit.primitive names dimension : NamedUnit α).mass weight
      = weight names.symbol dimension :=
  rfl

/-- The mass of a derived unit is that of its definition. -/
theorem NamedUnit.mass_derived (weight : String → String → Nat) (names : UnitNames) (factor : α)
    (definition : CompoundUnit α) :
    (NamedUnit.derived names factor definition).mass weight
      = CompoundUnit.mass weight definition := by
  rw [NamedUnit.mass, NamedUnit.fold_derived, weigh_map_fold]
  rfl

/-- A base with an exponent weighs no more than the unit that it occurs in. -/
theorem CompoundUnit.mass_base_le (weight : String → String → Nat) {u : CompoundUnit α}
    {f : Factor (NamedUnit α)} (member : f ∈ u.factors) (nonzero : f.exponent.val ≠ 0) :
    f.base.mass weight ≤ u.mass weight := by
  have inside := Product.weight_le_weigh (NamedUnit.mass weight) member
  have positive : 1 ≤ f.exponent.val.natAbs := by omega
  exact (Nat.le_mul_of_pos_left _ positive).trans inside

/-- Only the weights of the primitive units that occur count. -/
theorem NamedUnit.mass_mono {weight other : String → String → Nat} {u : NamedUnit α}
    (h : ∀ names dimension, NamedUnit.primitive names dimension ∈ u.parts →
      weight names.symbol dimension ≤ other names.symbol dimension) :
    u.mass weight ≤ u.mass other := by
  induction u using NamedUnit.inductionOn with
  | primitive names dimension => exact h names dimension (NamedUnit.mem_parts_self _)
  | derived names factor definition ih =>
      rw [NamedUnit.mass_derived, NamedUnit.mass_derived]
      refine Product.weigh_mono fun f hf => ih f hf fun ns dimension inside => ?_
      exact h ns dimension (NamedUnit.parts_definition_subset names factor definition
        (CompoundUnit.parts_base_subset hf inside))

/-- A unit has no more mass with lighter primitive units. -/
theorem CompoundUnit.mass_mono {weight other : String → String → Nat} {u : CompoundUnit α}
    (h : ∀ names dimension, NamedUnit.primitive names dimension ∈ CompoundUnit.parts u →
      weight names.symbol dimension ≤ other names.symbol dimension) :
    u.mass weight ≤ u.mass other :=
  Product.weigh_mono fun _ hf => NamedUnit.mass_mono fun ns dimension inside =>
    h ns dimension (CompoundUnit.parts_base_subset hf inside)

/-- Only the values of the primitive units that occur count. -/
theorem NamedUnit.linear_congr {value other : String → String → Int} {u : NamedUnit α}
    (h : ∀ names dimension, NamedUnit.primitive names dimension ∈ u.parts →
      value names.symbol dimension = other names.symbol dimension) :
    u.linear value = u.linear other := by
  induction u using NamedUnit.inductionOn with
  | primitive names dimension => exact h names dimension (NamedUnit.mem_parts_self _)
  | derived names factor definition ih =>
      rw [NamedUnit.linear_derived, NamedUnit.linear_derived]
      refine Product.total_congr fun f hf => ih f hf fun ns dimension inside => ?_
      exact h ns dimension (NamedUnit.parts_definition_subset names factor definition
        (CompoundUnit.parts_base_subset hf inside))

/-! ### Expansions -/

variable [Scalar α]

theorem expandFactors_eq_map (fs : List (Factor (NamedUnit α))) :
    expandFactors fs = fs.map fun f => f.base.expansion.power f.exponent := by
  induction fs with
  | nil => rfl
  | cons f fs ih => rw [List.map_cons, expandFactors, ih]

theorem CompoundUnit.expansion_eq (u : CompoundUnit α) :
    CompoundUnit.expansion u
      = Expansion.product (u.factors.map fun f => f.base.expansion.power f.exponent) := by
  rw [CompoundUnit.expansion, expandFactors_eq_map]

theorem CompoundUnit.expansion_unit (u : CompoundUnit α) :
    (CompoundUnit.expansion u).unit
      = Product.ofProducts (u.factors.map fun f => f.base.expansion.unit.power f.exponent) := by
  rw [CompoundUnit.expansion_eq, Expansion.product, List.map_map]
  rfl

theorem NamedUnit.expansion_unit_primitive (names : UnitNames) (dimension : String) :
    (NamedUnit.primitive names dimension : NamedUnit α).expansion.unit
      = ⟨[⟨.primitive names dimension, Exponent.one⟩]⟩ := by
  rw [NamedUnit.expansion]
  exact Product.ofFactors_of_nodup (List.nodup_singleton _)

theorem NamedUnit.expansion_unit_derived (names : UnitNames) (factor : α)
    (definition : CompoundUnit α) :
    (NamedUnit.derived names factor definition).expansion.unit
      = (CompoundUnit.expansion definition).unit := by
  rw [NamedUnit.expansion]

theorem CompoundUnit.expansion_canonical (u : CompoundUnit α) :
    (CompoundUnit.expansion u).unit.Canonical := by
  rw [CompoundUnit.expansion_unit]
  exact Product.canonical_ofProducts _

/-- Expansions are canonical, at every level. -/
theorem NamedUnit.expansion_canonical (u : NamedUnit α) : u.expansion.unit.Canonical := by
  cases u with
  | primitive names dimension =>
      rw [NamedUnit.expansion]
      exact Product.canonical_ofFactors _
  | derived names factor definition =>
      rw [NamedUnit.expansion_unit_derived]
      exact CompoundUnit.expansion_canonical definition

/-- A named unit expands alike wherever it stands alone. -/
theorem CompoundUnit.expansion_unit_ofNamed (b : NamedUnit α) :
    (CompoundUnit.expansion (CompoundUnit.ofNamed b)).unit = b.expansion.unit := by
  have canonical := b.expansion_canonical
  rw [CompoundUnit.expansion_unit, CompoundUnit.ofNamed_eq, List.map_singleton,
    Product.power_one canonical, Product.ofProducts_singleton canonical]

/-- The names in an expansion, with their exponents, are a fold over the definition. -/
theorem NamedUnit.named_expansion (u : NamedUnit α) :
    u.expansion.unit.named
      = u.fold (fun symbol _ => Product.ofFactors [⟨symbol, Exponent.one⟩])
          fun _ _ fs => Product.ofProducts (fs.map fun f => f.base.power f.exponent) := by
  induction u using NamedUnit.inductionOn with
  | primitive names dimension =>
      rw [NamedUnit.expansion, Product.ofBase, Product.named_ofFactors]
      rfl
  | derived names factor definition ih =>
      rw [NamedUnit.expansion_unit_derived, NamedUnit.fold_derived, CompoundUnit.expansion_unit,
        Product.named_ofProducts, List.map_map, List.map_map]
      refine congrArg Product.ofProducts (List.map_congr_left fun f hf => ?_)
      rw [Function.comp_apply, Product.named_power, ih f hf]
      rfl

/-- Units of one name expand into the same primitive units. -/
theorem OneDefinition.named_expansion_eq {us : List (NamedUnit α)} (h : OneDefinition us)
    {v w : NamedUnit α} (hv : v ∈ us) (hw : w ∈ us) (same : v.symbol = w.symbol) :
    v.expansion.unit.named = w.expansion.unit.named := by
  rw [v.named_expansion, w.named_expansion, NamedUnit.fold_eq_of_bare (h v hv w hw same)]

/-- A factor of an expansion stems from the expansion of a factor. -/
theorem CompoundUnit.base_mem_expansion {u : CompoundUnit α} {g : Factor (NamedUnit α)}
    (h : g ∈ (CompoundUnit.expansion u).unit.factors) :
    ∃ f ∈ u.factors, ∃ e ∈ f.base.expansion.unit.factors, g.base = e.base := by
  rw [CompoundUnit.expansion_unit] at h
  obtain ⟨p, hp, d, hd, same⟩ := Product.base_mem_ofProducts h
  obtain ⟨f, hf, rfl⟩ := List.mem_map.mp hp
  obtain ⟨powered, hpowered, before⟩ := Product.base_mem_ofFactors hd
  obtain ⟨e, he, rfl⟩ := List.mem_map.mp hpowered
  exact ⟨f, hf, e, he, same.trans before⟩

/-- An expansion consists of primitive units that occur in the unit. -/
theorem NamedUnit.expansion_primitive (u : NamedUnit α) {g : Factor (NamedUnit α)}
    (h : g ∈ u.expansion.unit.factors) : g.base.isPrimitive = true ∧ g.base ∈ u.parts := by
  induction u using NamedUnit.inductionOn generalizing g with
  | primitive names dimension =>
      rw [NamedUnit.expansion_unit_primitive, List.mem_singleton] at h
      subst h
      exact ⟨rfl, NamedUnit.mem_parts_self _⟩
  | derived names factor definition ih =>
      rw [NamedUnit.expansion_unit_derived] at h
      obtain ⟨f, hf, e, he, same⟩ := CompoundUnit.base_mem_expansion h
      obtain ⟨isPrimitive, inside⟩ := ih f hf he
      rw [same]
      exact ⟨isPrimitive, NamedUnit.parts_definition_subset names factor definition
        (CompoundUnit.parts_base_subset hf inside)⟩

/-- Only primitive units are left in an expansion, and they were in the unit before. -/
theorem CompoundUnit.expansion_primitive (u : CompoundUnit α) {g : Factor (NamedUnit α)}
    (h : g ∈ (CompoundUnit.expansion u).unit.factors) :
    g.base.isPrimitive = true ∧ g.base ∈ CompoundUnit.parts u := by
  obtain ⟨f, hf, e, he, same⟩ := CompoundUnit.base_mem_expansion h
  obtain ⟨isPrimitive, inside⟩ := NamedUnit.expansion_primitive f.base he
  rw [same]
  exact ⟨isPrimitive, CompoundUnit.parts_base_subset hf inside⟩

/-- The weight of an expansion is bounded by those of the expansions of the bases. -/
theorem CompoundUnit.expansion_weigh_le_bases (weight : String → Nat) (u : CompoundUnit α) :
    weigh (fun b => weight (key b)) (CompoundUnit.expansion u).unit.factors
      ≤ weigh (fun b => weigh (fun c => weight (key c)) b.expansion.unit.factors) u.factors := by
  rw [CompoundUnit.expansion_unit]
  apply (Product.weigh_ofProducts_le weight _).trans
  rw [List.map_map, weigh]
  apply List.sum_le_sum
  intro f _
  rw [Nat.mul_comm]
  exact Product.weigh_power_le weight _ _

/-- The absolute exponents of an expansion never exceed those of the definitions, whatever weights
the names of primitive units have. -/
theorem NamedUnit.expansion_weigh_le (weight : String → Nat) (u : NamedUnit α) :
    weigh (fun b => weight (key b)) u.expansion.unit.factors
      ≤ u.mass fun symbol _ => weight symbol := by
  induction u using NamedUnit.inductionOn with
  | primitive names dimension =>
      rw [NamedUnit.expansion_unit_primitive, NamedUnit.mass_primitive]
      exact Nat.le_of_eq (Nat.one_mul _)
  | derived names factor definition ih =>
      rw [NamedUnit.expansion_unit_derived, NamedUnit.mass_derived]
      exact (CompoundUnit.expansion_weigh_le_bases weight definition).trans
        (Product.weigh_mono ih)

theorem CompoundUnit.expansion_weigh_le (weight : String → Nat) (u : CompoundUnit α) :
    weigh (fun b => weight (key b)) (CompoundUnit.expansion u).unit.factors
      ≤ u.mass fun symbol _ => weight symbol :=
  (CompoundUnit.expansion_weigh_le_bases weight u).trans
    (Product.weigh_mono fun f _ => f.base.expansion_weigh_le weight)

/-- The exponent of a primitive unit in an expansion is put together from those in the expansions of
the bases, as long as these do not add up beyond the range of an exponent. -/
theorem CompoundUnit.expansion_degree {u : CompoundUnit α} {name : String}
    (bound : weigh (fun b => (degree name b.expansion.unit.factors).natAbs) u.factors
      < 2147483648) :
    degree name (CompoundUnit.expansion u).unit.factors
      = total (fun b => degree name b.expansion.unit.factors) u.factors := by
  have powers : ∀ f ∈ u.factors,
      degree name (f.base.expansion.unit.power f.exponent).factors
        = degree name f.base.expansion.unit.factors * f.exponent.val := by
    intro f hf
    apply Product.degree_power f.base.expansion_canonical.nodup
    rw [Int.natAbs_mul, Nat.mul_comm]
    exact (Product.weight_le_weigh _ hf).trans_lt bound
  have spreads : ∀ f ∈ u.factors,
      spread name (f.base.expansion.unit.power f.exponent).factors
        = f.exponent.val.natAbs * (degree name f.base.expansion.unit.factors).natAbs := by
    intro f hf
    rw [Product.spread_eq_natAbs_degree (Product.canonical_power _ _).nodup, powers f hf,
      Int.natAbs_mul, Nat.mul_comm]
  rw [CompoundUnit.expansion_unit, Product.degree_ofProducts]
  · rw [List.map_map, total]
    refine congrArg List.sum (List.map_congr_left fun f hf => ?_)
    rw [Function.comp_apply, powers f hf, smul_eq_mul, mul_comm]
  · rw [List.map_map]
    have sums : (u.factors.map
        ((fun q => spread name q.factors) ∘ fun f => f.base.expansion.unit.power f.exponent)).sum
          = weigh (fun b => (degree name b.expansion.unit.factors).natAbs) u.factors :=
      congrArg List.sum (List.map_congr_left spreads)
    rw [sums]
    exact bound

/-- A name that counts has no more exponents in an expansion than the unit weighs. -/
theorem NamedUnit.natAbs_degree_le_mass (weight : String → Nat) {name : String}
    (counts : 1 ≤ weight name) (u : NamedUnit α) :
    (degree name u.expansion.unit.factors).natAbs ≤ u.mass fun symbol _ => weight symbol := by
  refine (Product.natAbs_degree_le name _).trans (le_trans ?_ (u.expansion_weigh_le weight))
  apply Product.spread_le_weigh
  rintro f - rfl
  exact counts

/-- The same for all primitive units at once, and values that are theirs. -/
theorem CompoundUnit.expansion_total_bases {u : CompoundUnit α} {value : String → Int}
    (bound : u.mass (fun symbol _ => (value symbol).natAbs) < 2147483648) :
    total (fun b => value (key b)) (CompoundUnit.expansion u).unit.factors
      = total (fun b => total (fun c => value (key c)) b.expansion.unit.factors) u.factors := by
  have exponents : ∀ name, value name ≠ 0 →
      Product.exponents (CompoundUnit.expansion u).unit.factors name
        = total (fun b => Product.exponents b.expansion.unit.factors) u.factors name := by
    intro name counts
    have lighter : weigh (fun b => (degree name b.expansion.unit.factors).natAbs) u.factors
        ≤ u.mass fun symbol _ => (value symbol).natAbs :=
      Product.weigh_mono fun f _ =>
        f.base.natAbs_degree_le_mass (fun symbol => (value symbol).natAbs)
          (Int.natAbs_pos.mpr counts)
    rw [Product.exponents_apply, CompoundUnit.expansion_degree (by omega)]
    induction u.factors with
    | nil => rfl
    | cons f fs ih => simp [ih, Product.exponents_apply]
  rw [Product.total_key, Product.combination_congr exponents]
  induction u.factors with
  | nil => simp
  | cons f fs ih => simp [ih, Product.total_key]

/-- The expansion of a named unit has the exponents that follow from its definition, as long as
those that count stay in range. -/
theorem NamedUnit.expansion_total {u : NamedUnit α} {value : String → Int}
    (bound : u.mass (fun symbol _ => (value symbol).natAbs) < 2147483648) :
    total (fun b => value (key b)) u.expansion.unit.factors
      = u.linear fun symbol _ => value symbol := by
  induction u using NamedUnit.inductionOn with
  | primitive names dimension =>
      rw [NamedUnit.expansion_unit_primitive]
      simp [Exponent.one, Keyed.key, NamedUnit.symbol, NamedUnit.names]
  | derived names factor definition ih =>
      rw [NamedUnit.mass_derived] at bound
      rw [NamedUnit.expansion_unit_derived, NamedUnit.linear_derived,
        CompoundUnit.expansion_total_bases bound, CompoundUnit.linear]
      -- A base with the exponent zero may extend beyond the range, but it does not count.
      refine congrArg List.sum (List.map_congr_left fun f hf => ?_)
      by_cases zero : f.exponent.val = 0
      · simp [zero]
      · exact congrArg (f.exponent.val • ·)
          (ih f hf ((CompoundUnit.mass_base_le _ hf zero).trans_lt bound))

/-- The expansion of a unit has the exponents that follow from its definitions, as long as those
that count stay in range. -/
theorem CompoundUnit.expansion_total {u : CompoundUnit α} {value : String → Int}
    (bound : u.mass (fun symbol _ => (value symbol).natAbs) < 2147483648) :
    total (fun b => value (key b)) (CompoundUnit.expansion u).unit.factors
      = u.linear fun symbol _ => value symbol := by
  have named := NamedUnit.expansion_total
    (u := NamedUnit.derived (.ofSymbol "") (1 : α) u) (by rwa [NamedUnit.mass_derived])
  rwa [NamedUnit.expansion_unit_derived, NamedUnit.linear_derived] at named

end QuantityCalculus
