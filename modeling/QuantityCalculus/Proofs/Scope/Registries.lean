/-
Module: QuantityCalculus.Proofs.Scope.Registries
Layer: Proofs
Purpose: The dimensions and the units of a scope agree, whatever has been declared, refused and
  evaluated in whatever order: no name is used twice, every primitive unit is the only one of a
  declared base dimension, and every unit is entered under its own name and with its own expansion.
Imports: QuantityCalculus.Proofs.Scope.History
Trusted boundary: none
Main exports: CompoundUnit.dimension_ofPrimitive, Scope.Linked, Change.linked, Reachable.linked,
  Scope.RegistriesAgree, Linked.agree, registries_agree
Open obligations: none
-/
import QuantityCalculus.Proofs.Scope.History

namespace QuantityCalculus

variable {α : Type}

/-- A primitive unit has the dimension that it measures. -/
theorem CompoundUnit.dimension_ofPrimitive [Scalar α] (names : UnitNames) (dimension : String) :
    CompoundUnit.dimension (CompoundUnit.ofNamed (.primitive names dimension : NamedUnit α))
      = Dimension.base dimension := by
  rw [CompoundUnit.dimension, CompoundUnit.expansion_unit_ofNamed,
    NamedUnit.expansion_unit_primitive, CompoundUnit.primitiveDimension_eq]
  exact Product.ofProducts_singleton (Product.canonical_ofFactors _)

namespace Scope

variable [Scalar α]

/-! ### The invariant -/

/-- No dimension is declared twice, the units are those of a registry that units have been added to,
and the primitive ones among them measure declared base dimensions. -/
structure Linked (s : Scope α) : Prop where
  dimensions : s.dimensions.catalog.names.Nodup
  units : s.units.WellFormed
  measured : ∀ v ∈ s.units.named, ∀ dimension, v.baseDimension? = some dimension →
    s.dimensions.isBase dimension = true

theorem linked_empty : (empty : Scope α).Linked where
  dimensions := List.nodup_nil
  units := UnitRegistry.wellFormed_empty
  measured := fun v hv => by cases hv

theorem linked_standard [Elementary α] : (standard : Scope α).Linked where
  dimensions := List.nodup_nil
  units := UnitRegistry.wellFormed_empty
  measured := fun v hv => by cases hv

/-- A declared dimension stays the base dimension that it was. -/
theorem Linked.grow {s : Scope α} (h : s.Linked) {dimensions : DimensionRegistry}
    (grown : s.dimensions.Grows dimensions) : Linked { s with dimensions := dimensions } where
  dimensions := grown.nodup_names h.dimensions
  units := h.units
  measured := fun v hv dimension measures => grown.keeps.isBase (h.measured v hv dimension measures)

/-- A primitive unit of a base dimension keeps the registries linked. -/
theorem Linked.addPrimitive {s : Scope α} (h : s.Linked) {names : UnitNames} {dimension : String}
    {schemes : List String} {u : CompoundUnit α} {units : UnitRegistry α}
    (isBase : s.dimensions.isBase dimension = true)
    (added : s.units.addPrimitive (.primitive names dimension) schemes = .ok (u, units)) :
    Linked { s with units := units } where
  dimensions := h.dimensions
  units := UnitRegistry.wellFormed_addPrimitive h.units added
  measured := by
    intro v hv other measures
    have entries := UnitRegistry.entries_addPrimitive added
    rcases (UnitRegistry.named_of_entries rfl entries v).mp hv with
      old | rfl
    · exact h.measured v old other measures
    · cases measures
      exact isBase

/-- So does a derived unit, since it is no primitive one. -/
theorem Linked.addDerived {s : Scope α} (h : s.Linked) {names : UnitNames} {factor : α}
    {definition : CompoundUnit α} {schemes : List String} {u : CompoundUnit α}
    {units : UnitRegistry α}
    (added : s.units.addDerived (.derived names factor definition) schemes = .ok (u, units)) :
    Linked { s with units := units } where
  dimensions := h.dimensions
  units := UnitRegistry.wellFormed_addDerived h.units added
  measured := by
    intro v hv other measures
    rcases (UnitRegistry.named_of_entries rfl (UnitRegistry.entries_addDerived added) v).mp hv with
      old | rfl
    · exact h.measured v old other measures
    · cases measures

/-- So does every declaration. -/
theorem Declares.linked {s s' : Scope α} {d : Declaration α} (declared : s.Declares d s')
    (h : s.Linked) : s'.Linked := by
  cases declared with
  | dimensions grown => exact h.grow grown
  | primitiveUnit grown isBase added => exact (h.grow grown).addPrimitive isBase added
  | derivedUnit added => exact h.addDerived added
  | binding defined =>
      rw [defineVariable_ok defined]
      exact ⟨h.dimensions, h.units, h.measured⟩

/-- Nothing that can be done to a scope breaks the agreement, be it granted or refused. -/
theorem Change.linked {s s' : Scope α} (change : s.Change s') (h : s.Linked) : s'.Linked := by
  cases change with
  | declaration declared => exact declared.linked h
  | operator => exact ⟨h.dimensions, h.units, h.measured⟩
  | updates updates =>
      obtain ⟨dimensions, units, -⟩ := updates.frame
      obtain ⟨declared, wellFormed, measured⟩ := h
      rw [← dimensions] at declared measured
      rw [← units] at wellFormed measured
      exact ⟨declared, wellFormed, measured⟩
  | @memory units same =>
      obtain ⟨catalog, memory⟩ := units
      obtain rfl : catalog = s.units.catalog := same
      obtain ⟨base, derived, nodup, onePrimitive⟩ := h.units
      exact ⟨h.dimensions, ⟨base, derived, nodup, onePrimitive⟩, h.measured⟩

section Elementary

variable [Elementary α]

theorem Reachable.linked {s : Scope α} (reachable : s.Reachable) : s.Linked := by
  induction reachable with
  | standard => exact linked_standard
  | empty => exact linked_empty
  | perform _ action ih => exact (perform_change _ action).linked ih

end Elementary

/-! ### What agrees -/

/-- How the dimensions and the units of a scope belong together. -/
structure RegistriesAgree (s : Scope α) : Prop where
  /-- No dimension has the name of another one, so none is both a base and a derived entry. -/
  dimensionNames : s.dimensions.catalog.names.Nodup
  /-- No unit has the name of another one, so none is both a base and a derived entry. -/
  unitNames : s.units.catalog.names.Nodup
  /-- The base entries are primitive units, and measure exactly a declared base dimension each. -/
  primitive : ∀ e ∈ s.units.catalog.base, ∃ names dimension,
    e.content.unit = CompoundUnit.ofNamed (.primitive names dimension) ∧ names.symbol = e.name
      ∧ s.dimensions.isBase dimension = true ∧ e.content.unit.dimension = Dimension.base dimension
  /-- The derived entries are derived units, and stored with the expansion of their unit. -/
  derived : ∀ e ∈ s.units.catalog.derived, ∃ names factor definition,
    e.content.unit = CompoundUnit.ofNamed (.derived names factor definition)
      ∧ names.symbol = e.name ∧ e.expansion = e.content.unit.primitiveProduct
  /-- No base dimension has two primitive units. -/
  oneToOne : ∀ v ∈ s.units.named, ∀ w ∈ s.units.named, ∀ dimension,
    v.baseDimension? = some dimension → w.baseDimension? = some dimension → v = w
  /-- The unit of a name is the single factor of that name, to the power one. -/
  unit : ∀ name u, s.unit name = .ok u →
    ∃ v, u.factors = [⟨v, Exponent.one⟩] ∧ v.symbol = name

/-- Linked registries agree. -/
theorem Linked.agree {s : Scope α} (h : s.Linked) : s.RegistriesAgree where
  dimensionNames := h.dimensions
  unitNames := h.units.nodup
  primitive := by
    intro e he
    obtain ⟨names, dimension, unit, symbol, named⟩ := h.units.indexed.named_of_base he
    refine ⟨names, dimension, unit, symbol, h.measured _ named dimension rfl, ?_⟩
    rw [unit, CompoundUnit.dimension_ofPrimitive]
  derived := h.units.derived
  oneToOne := by
    intro v hv w hw dimension measuresV measuresW
    exact h.units.indexed.named_unique hv hw
      (h.units.onePrimitive v hv w hw dimension measuresV measuresW)
  unit := by
    intro name u found
    obtain ⟨entry, inCatalog, rfl⟩ := UnitRegistry.get_eq_ok_iff.mp found
    obtain ⟨v, -, unit, symbol⟩ := h.units.indexed.find? inCatalog
    refine ⟨v, ?_, symbol⟩
    rw [unit, CompoundUnit.ofNamed_eq]

/-- Whatever is declared, refused, evaluated and asked, in whatever order, the dimensions and the
units of a scope agree. -/
theorem registries_agree [Elementary α] (actions : List (ScopeAction α)) :
    ((standard : Scope α).performAll actions).RegistriesAgree
      ∧ ((empty : Scope α).performAll actions).RegistriesAgree :=
  ⟨(Reachable.standard.performAll actions).linked.agree,
    (Reachable.empty.performAll actions).linked.agree⟩

end Scope

end QuantityCalculus
