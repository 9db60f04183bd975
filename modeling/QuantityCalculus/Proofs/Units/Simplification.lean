/-
Module: QuantityCalculus.Proofs.Units.Simplification
Layer: Proofs
Purpose: Bringing a unit into a more readable form does not change its dimension, and introduces no
  units but registered ones.
Imports: QuantityCalculus.Proofs.Units.Registry, QuantityCalculus.Units.Simplification
Trusted boundary: none
Main exports: MergedFactors.append_cases, Replaces, foldl_append_spec, matchingUnit?_spec,
  mergeSameDimension_dimension, simplify_dimensionExponent, simplify_dimension, base_mem_simplify
Open obligations: none
-/
import QuantityCalculus.Proofs.Units.Registry
import QuantityCalculus.Units.Simplification

namespace QuantityCalculus

open Product (total weigh degree)

variable {α : Type} [Scalar α]

/-! ### Merging -/

/-- The partner of a unit is another factor with the same dimension. -/
theorem partner?_spec {factors : List (Factor (NamedUnit α))} {unit target : NamedUnit α}
    (h : partner? factors unit (CompoundUnit.ofNamed unit).dimension = some target) :
    ∃ g ∈ factors, g.base = target
      ∧ ∀ name, target.dimensionExponent name = unit.dimensionExponent name := by
  obtain ⟨g, found, rfl⟩ := Option.map_eq_some_iff.mp h
  have suitable := List.find?_some found
  rw [Bool.and_eq_true] at suitable
  exact ⟨g, List.mem_of_find?_eq_some found, rfl,
    (CompoundUnit.dimension_agrees_iff _ _).mp suitable.2⟩

/-- A factor is appended as it is, or in terms of an earlier unit of the same dimension. -/
theorem MergedFactors.append_cases (m : MergedFactors α) (f : Factor (NamedUnit α)) :
    m.append f = ⟨m.factors ++ [f], m.scalar⟩
      ∨ ∃ g ∈ m.factors,
        (∀ name, g.base.dimensionExponent name = f.base.dimensionExponent name)
        ∧ m.append f = ⟨m.factors ++ [⟨g.base, f.exponent⟩],
            m.scalar * Scalar.powInt ((CompoundUnit.ofNamed f.base).factor
              / (CompoundUnit.ofNamed g.base).factor) f.exponent.val⟩ := by
  rw [MergedFactors.append]
  dsimp only
  split
  next target found =>
    split at found
    next isBase =>
      obtain ⟨g, hg, rfl, same⟩ := partner?_spec found
      exact .inr ⟨g, hg, same, rfl⟩
    next => cases found
  next => exact .inl rfl

/-- A factor that stands in for another one. -/
structure Replaces (f g : Factor (NamedUnit α)) : Prop where
  exponent : g.exponent = f.exponent
  dimension : ∀ name, g.base.dimensionExponent name = f.base.dimensionExponent name

/-- Merging replaces factor by factor, in terms of units that were there. -/
theorem foldl_append_spec (m : MergedFactors α) (fs : List (Factor (NamedUnit α))) :
    ∃ gs, (fs.foldl MergedFactors.append m).factors = m.factors ++ gs
      ∧ List.Forall₂ Replaces fs gs
      ∧ ∀ g ∈ gs, ∃ f ∈ m.factors ++ fs, g.base = f.base := by
  induction fs generalizing m with
  | nil => exact ⟨[], by simp, .nil, by simp⟩
  | cons f fs ih =>
      obtain ⟨gs, factors, replaced, bases⟩ := ih (m.append f)
      rw [List.foldl_cons, factors]
      rcases m.append_cases f with kept | ⟨g, hg, same, merged⟩
      · refine ⟨f :: gs, by rw [kept]; simp, .cons ⟨rfl, fun _ => rfl⟩ replaced, ?_⟩
        intro e he
        rcases List.mem_cons.mp he with rfl | later
        · exact ⟨e, by simp, rfl⟩
        · obtain ⟨d, hd, base⟩ := bases e later
          rw [kept] at hd
          exact ⟨d, by simpa [or_assoc] using hd, base⟩
      · refine ⟨⟨g.base, f.exponent⟩ :: gs, by rw [merged]; simp, .cons ⟨rfl, same⟩ replaced, ?_⟩
        intro e he
        rcases List.mem_cons.mp he with rfl | later
        · exact ⟨g, List.mem_append_left _ hg, rfl⟩
        · obtain ⟨d, hd, base⟩ := bases e later
          rw [merged, List.mem_append, List.mem_append, List.mem_singleton] at hd
          rcases hd with (old | rfl) | new
          · exact ⟨d, List.mem_append_left _ old, base⟩
          · exact ⟨g, List.mem_append_left _ hg, base⟩
          · exact ⟨d, List.mem_append_right _ (List.mem_cons_of_mem _ new), base⟩

/-- Partners change no exponent of a dimension. -/
theorem total_replaces {fs gs : List (Factor (NamedUnit α))} (h : List.Forall₂ Replaces fs gs)
    (name : String) :
    total (NamedUnit.dimensionExponent name) gs = total (NamedUnit.dimensionExponent name) fs := by
  induction h with
  | nil => rfl
  | cons replaces _ ih =>
      rw [Product.total_cons, Product.total_cons, ih, replaces.exponent, replaces.dimension]

/-- Nor what the factors weigh in it. -/
theorem weigh_replaces {fs gs : List (Factor (NamedUnit α))} (h : List.Forall₂ Replaces fs gs)
    (name : String) :
    weigh (fun b => (b.dimensionExponent name).natAbs) gs
      = weigh (fun b => (b.dimensionExponent name).natAbs) fs := by
  induction h with
  | nil => rfl
  | cons replaces _ ih =>
      rw [Product.weigh_cons, Product.weigh_cons, ih, replaces.exponent, replaces.dimension]

theorem magnitude_replaces {fs gs : List (Factor (NamedUnit α))} (h : List.Forall₂ Replaces fs gs) :
    weigh (fun _ => 1) gs = weigh (fun _ => 1) fs := by
  induction h with
  | nil => rfl
  | cons replaces _ ih => rw [Product.weigh_cons, Product.weigh_cons, ih, replaces.exponent]

/-- A unit is merged into one that its own factors, in terms of its own bases, make up. -/
theorem mergeSameDimension_spec (u : CompoundUnit α) :
    ∃ gs, (mergeSameDimension u).unit = Product.ofFactors gs ∧ List.Forall₂ Replaces u.factors gs
      ∧ ∀ g ∈ gs, ∃ f ∈ u.factors, g.base = f.base := by
  obtain ⟨gs, factors, replaced, bases⟩ := foldl_append_spec ⟨[], 1⟩ u.factors
  rw [List.nil_append] at factors bases
  exact ⟨gs, by rw [mergeSameDimension, factors], replaced, bases⟩

/-- Merging brings in no other unit. -/
theorem base_mem_mergeSameDimension {u : CompoundUnit α} {g : Factor (NamedUnit α)}
    (h : g ∈ (mergeSameDimension u).unit.factors) : ∃ f ∈ u.factors, g.base = f.base := by
  obtain ⟨gs, merged, -, bases⟩ := mergeSameDimension_spec u
  rw [merged] at h
  obtain ⟨e, he, same⟩ := Product.base_mem_ofFactors h
  rw [same]
  exact bases e he

theorem parts_mergeSameDimension_subset {us : List (NamedUnit α)} {u : CompoundUnit α}
    (inside : CompoundUnit.parts u ⊆ us) :
    CompoundUnit.parts (mergeSameDimension u).unit ⊆ us := by
  rw [CompoundUnit.parts_subset_iff] at inside ⊢
  exact CompoundUnit.parts_subset_of_bases inside fun _ => base_mem_mergeSameDimension

/-! ### Registered units -/

theorem CompoundUnit.primitiveProduct_eq_named (u : CompoundUnit α) :
    u.primitiveProduct = (CompoundUnit.expansion u).unit.named :=
  u.expansion_canonical.named.ofFactors_eq

theorem CompoundUnit.degree_primitiveProduct (u : CompoundUnit α) (name : String) :
    degree name u.primitiveProduct.factors
      = degree name (CompoundUnit.expansion u).unit.factors := by
  rw [u.primitiveProduct_eq_named, Product.degree_named]

/-- A product that matches a primitive unit is that unit, with the exponent one. -/
theorem UnitRegistry.primitiveMatch?_spec {r : UnitRegistry α} (indexed : r.Indexed)
    {p : Product String} {name : String} (h : r.primitiveMatch? p = some name) :
    p = ⟨[⟨name, Exponent.one⟩]⟩
      ∧ ∃ names dimension schemes, names.symbol = name
        ∧ (name, ⟨CompoundUnit.ofNamed (.primitive names dimension), schemes⟩) ∈ r.entries := by
  rw [UnitRegistry.primitiveMatch?] at h
  split at h
  next f single =>
    split at h
    next isPrimitive =>
      cases h
      rw [Bool.and_eq_true, decide_eq_true_eq] at isPrimitive
      obtain ⟨e, found⟩ := Option.isSome_iff_exists.mp isPrimitive.2
      have same : e.name = f.base := by simpa using List.find?_some found
      obtain ⟨names, dimension, unit, symbol⟩ := indexed.base e (List.mem_of_find?_eq_some found)
      obtain ⟨factors⟩ := p
      obtain ⟨base, exponent⟩ := f
      obtain ⟨entryName, entryUnit, schemes⟩ := e
      dsimp only at *
      subst single same unit
      refine ⟨by rw [isPrimitive.1], names, dimension, schemes, symbol, ?_⟩
      exact List.mem_append_left _ (List.mem_map_of_mem (List.mem_of_find?_eq_some found))
    next => cases h
  next => cases h

/-- The registered unit that a unit amounts to is made of the same primitive units. -/
theorem UnitRegistry.matchingUnit?_spec {r : UnitRegistry α} (indexed : r.Indexed)
    {u k : CompoundUnit α} (h : r.matchingUnit? u = some k) :
    ∃ v ∈ r.named, k = CompoundUnit.ofNamed v
      ∧ sameFactor k.factor u.factor = true
      ∧ ∀ name, degree name (CompoundUnit.expansion k).unit.factors
          = degree name (CompoundUnit.expansion u).unit.factors := by
  rw [UnitRegistry.matchingUnit?] at h
  split at h
  next => cases h
  next =>
    have sameFactors := List.find?_some h
    obtain ⟨name, candidate, found⟩ := List.mem_filterMap.mp (List.mem_of_find?_eq_some h)
    obtain ⟨entry, registered, rfl⟩ := Option.map_eq_some_iff.mp found
    obtain ⟨v, hv, unit, symbol⟩ := indexed.find? registered
    refine ⟨v, hv, unit, sameFactors, ?_⟩
    have member : (name, entry) ∈ r.entries := Catalog.mem_contents_of_find? registered
    intro other
    rcases List.mem_append.mp candidate with isPrimitive | isDerived
    · obtain ⟨product, names, dimension, schemes, rfl, primitiveMember⟩ :=
        UnitRegistry.primitiveMatch?_spec indexed (Option.mem_toList.mp isPrimitive)
      have same := Catalog.contents_unique indexed.nodup member primitiveMember rfl
      rw [Prod.mk.injEq] at same
      rw [same.2, CompoundUnit.expansion_unit_ofNamed, NamedUnit.expansion_unit_primitive,
        ← u.degree_primitiveProduct, product, Product.degree_cons, Product.degree_cons]
      rfl
    · obtain ⟨e, he, rfl⟩ := List.mem_map.mp isDerived
      obtain ⟨inCatalog, agrees⟩ := List.mem_filter.mp he
      obtain ⟨-, -, -, expansion⟩ := indexed.derived e inCatalog
      have derivedMember : (e.name, e.content) ∈ r.entries :=
        List.mem_append_right _ (List.mem_map_of_mem inCatalog)
      have same := Catalog.contents_unique indexed.nodup member derivedMember rfl
      rw [Prod.mk.injEq] at same
      rw [expansion] at agrees
      rw [same.2, ← CompoundUnit.degree_primitiveProduct, ← CompoundUnit.degree_primitiveProduct]
      exact (Product.agrees_iff_degree (Product.canonical_ofFactors _)
        (Product.canonical_ofFactors _)).mp agrees other

/-- What simplification may do to a unit. -/
theorem UnitRegistry.simplify_cases (r : UnitRegistry α) (u : CompoundUnit α) :
    (u = CompoundUnit.scalar ∧ r.simplify u = ⟨CompoundUnit.scalar, 1⟩)
      ∨ (u.isDimensionless = true ∧ r.simplify u = ⟨CompoundUnit.scalar, u.factor⟩)
      ∨ (∃ k, r.matchingUnit? u = some k ∧ r.simplify u = ⟨k, 1⟩)
      ∨ (∃ k, r.matchingUnit? (mergeSameDimension u).unit = some k
          ∧ r.simplify u = ⟨k, (mergeSameDimension u).factor⟩)
      ∨ r.simplify u = mergeSameDimension u := by
  rw [UnitRegistry.simplify]
  split
  next isScalar =>
    exact .inl ⟨congrArg Product.mk (List.isEmpty_iff.mp isScalar), rfl⟩
  next =>
    split
    next isDimensionless => exact .inr (.inl ⟨isDimensionless, rfl⟩)
    next =>
      split
      next k matched => exact .inr (.inr (.inl ⟨k, matched, rfl⟩))
      next =>
        dsimp only
        cases matched : r.matchingUnit? (mergeSameDimension u).unit with
        | some k => exact .inr (.inr (.inr (.inl ⟨k, rfl, rfl⟩)))
        | none => exact .inr (.inr (.inr (.inr rfl)))

/-- Every factor of a simplified unit stems from the unit, or is registered. -/
theorem UnitRegistry.base_mem_simplify {r : UnitRegistry α} (indexed : r.Indexed)
    {u : CompoundUnit α} {g : Factor (NamedUnit α)} (h : g ∈ (r.simplify u).unit.factors) :
    (∃ f ∈ u.factors, g.base = f.base) ∨ g.base ∈ r.named := by
  have registered : ∀ {w k : CompoundUnit α}, r.matchingUnit? w = some k → g ∈ k.factors →
      g.base ∈ r.named := by
    intro w k matched inside
    obtain ⟨v, hv, rfl, -⟩ := UnitRegistry.matchingUnit?_spec indexed matched
    rw [CompoundUnit.ofNamed_eq] at inside
    rw [List.mem_singleton.mp inside]
    exact hv
  rcases r.simplify_cases u with ⟨-, same⟩ | ⟨-, same⟩ | ⟨k, matched, same⟩ | ⟨k, matched, same⟩
    | same
  · rw [same] at h
    cases h
  · rw [same] at h
    cases h
  · rw [same] at h
    exact .inr (registered matched h)
  · rw [same] at h
    exact .inr (registered matched h)
  · rw [same] at h
    exact .inl (base_mem_mergeSameDimension h)

/-! ### Dimensions -/

/-- Simplification keeps an exponent that merging keeps and that replacing a unit by a registered
one keeps. -/
theorem UnitRegistry.simplify_dimensionExponent {r : UnitRegistry α} {u : CompoundUnit α}
    {name : String}
    (merged : (mergeSameDimension u).unit.dimensionExponent name = u.dimensionExponent name)
    (matched : ∀ w k, w = u ∨ w = (mergeSameDimension u).unit → r.matchingUnit? w = some k →
      k.dimensionExponent name = w.dimensionExponent name) :
    (r.simplify u).unit.dimensionExponent name = u.dimensionExponent name := by
  rcases r.simplify_cases u with ⟨isScalar, same⟩ | ⟨isDimensionless, same⟩ | ⟨k, found, same⟩
    | ⟨k, found, same⟩ | same
  · rw [same, isScalar]
  · rw [same, (CompoundUnit.isDimensionless_iff u).mp isDimensionless name]
    rfl
  · rw [same]
    exact matched u k (.inl rfl) found
  · rw [same]
    exact (matched _ k (.inr rfl) found).trans merged
  · rw [same]
    exact merged

section OneDefinition

variable {us : List (NamedUnit α)} (oneDefinition : OneDefinition us)

include oneDefinition

/-- Merging keeps the dimension where each base dimension has one primitive unit. -/
theorem mergeSameDimension_dimension (onePrimitive : OnePrimitive us) {u : CompoundUnit α}
    (inside : CompoundUnit.parts u ⊆ us) {name : String} (bound : u.load name < 2147483648) :
    (mergeSameDimension u).unit.dimensionExponent name = u.dimensionExponent name := by
  obtain ⟨gs, merged, replaced, bases⟩ := mergeSameDimension_spec u
  have insideNew :=
    CompoundUnit.parts_subset_of_bases (CompoundUnit.parts_subset_iff.mp inside) bases
  have light : weigh (fun b => (b.dimensionExponent name).natAbs) gs < 2147483648 := by
    rw [weigh_replaces replaced name]
    exact bound
  calc
    (mergeSameDimension u).unit.dimensionExponent name
      = CompoundUnit.dimensionExponent (Product.ofFactors gs) name := by rw [merged]
    _ = total (NamedUnit.dimensionExponent name) gs :=
        CompoundUnit.dimensionExponent_ofFactors oneDefinition onePrimitive insideNew light
    _ = total (NamedUnit.dimensionExponent name) u.factors := total_replaces replaced name
    _ = u.dimensionExponent name :=
        (CompoundUnit.dimensionExponent_eq_total oneDefinition onePrimitive inside bound).symm

/-- The registered unit that a unit amounts to has its dimension, if the unit has one primitive unit
for each base dimension: the registered one is made of the same ones. -/
theorem matchingUnit?_dimension {r : UnitRegistry α} (indexed : r.Indexed)
    (registered : r.parts ⊆ us) {u k : CompoundUnit α} (inside : CompoundUnit.parts u ⊆ us)
    (onePrimitive : OnePrimitive (CompoundUnit.parts u)) (h : r.matchingUnit? u = some k)
    (name : String) : k.dimensionExponent name = u.dimensionExponent name := by
  obtain ⟨v, hv, rfl, -, same⟩ := UnitRegistry.matchingUnit?_spec indexed h
  refine CompoundUnit.dimensionExponent_of_expansion oneDefinition ?_ inside onePrimitive same name
  rw [CompoundUnit.parts_ofNamed]
  exact List.Subset.trans (indexed.parts_subset_of_named hv) registered

/-- A simplified unit has the dimension of the unit, if that has one primitive unit for each base
dimension. -/
theorem simplify_dimension {r : UnitRegistry α} (indexed : r.Indexed) (registered : r.parts ⊆ us)
    {u : CompoundUnit α} (inside : CompoundUnit.parts u ⊆ us)
    (onePrimitive : OnePrimitive (CompoundUnit.parts u)) {name : String}
    (bound : u.load name < 2147483648) :
    (r.simplify u).unit.dimensionExponent name = u.dimensionExponent name := by
  have insideMerged : CompoundUnit.parts (mergeSameDimension u).unit ⊆ CompoundUnit.parts u :=
    parts_mergeSameDimension_subset (List.Subset.refl _)
  apply UnitRegistry.simplify_dimensionExponent
  · exact mergeSameDimension_dimension (oneDefinition.mono inside) onePrimitive (List.Subset.refl _)
      bound
  · rintro w k (rfl | rfl) found
    · exact matchingUnit?_dimension oneDefinition indexed registered inside onePrimitive found name
    · exact matchingUnit?_dimension oneDefinition indexed registered
        (List.Subset.trans insideMerged inside) (onePrimitive.mono insideMerged) found name

end OneDefinition

end QuantityCalculus
