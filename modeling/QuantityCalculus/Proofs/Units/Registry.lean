/-
Module: QuantityCalculus.Proofs.Units.Registry
Layer: Proofs
Purpose: What is true of every registry that units have been added to one after another: each entry
  is a unit of its own name, no name is used twice, and no base dimension has two primitive units.
Imports: QuantityCalculus.Proofs.Catalog.Entries, QuantityCalculus.Proofs.Units.Dimension,
  QuantityCalculus.Units.Registry
Trusted boundary: none
Main exports: UnitRegistry.named, UnitRegistry.parts, UnitRegistry.Indexed, UnitRegistry.WellFormed,
  indexed_addPrimitive, indexed_addDerived, wellFormed_empty, wellFormed_addPrimitive,
  wellFormed_addDerived, UnitRegistry.Builds, UnitRegistry.Closed, closed_addPrimitive,
  closed_addDerived
Open obligations: none
-/
import QuantityCalculus.Proofs.Catalog.Entries
import QuantityCalculus.Proofs.Units.Dimension
import QuantityCalculus.Units.Registry

namespace QuantityCalculus

open Product (degree)

/-! ### Units in a registry -/

variable {α : Type}

theorem CompoundUnit.ofNamed_injective {v w : NamedUnit α}
    (h : CompoundUnit.ofNamed v = CompoundUnit.ofNamed w) : v = w := by
  rw [CompoundUnit.ofNamed_eq, CompoundUnit.ofNamed_eq, Product.mk.injEq, List.cons.injEq,
    Factor.mk.injEq] at h
  exact h.1.1

theorem CompoundUnit.asNamed?_ofNamed (v : NamedUnit α) :
    (CompoundUnit.ofNamed v).asNamed? = some v := by
  rw [CompoundUnit.ofNamed_eq]
  rfl

namespace UnitRegistry

/-- The named units that stand in a registry. -/
def named (r : UnitRegistry α) : List (NamedUnit α) :=
  r.entries.flatMap fun e => e.2.unit.factors.map (·.base)

/-- All units that occur in the entries of a registry, at whatever depth. -/
def parts (r : UnitRegistry α) : List (NamedUnit α) :=
  r.entries.flatMap fun e => CompoundUnit.parts e.2.unit

theorem get_eq_ok_iff {r : UnitRegistry α} {name : String} {u : CompoundUnit α} :
    r.get name = .ok u ↔ ∃ entry, r.catalog.find? name = some entry ∧ entry.unit = u := by
  cases found : r.catalog.find? name with
  | some entry => simp [get, Catalog.get, found]
  | none => simp [get, Catalog.get, found]

variable [Scalar α]

/-- Every entry is a unit of the name that it is entered under, a base entry a primitive one, and a
derived entry comes with the expansion of its unit.  No name is used twice. -/
structure Indexed (r : UnitRegistry α) : Prop where
  base : ∀ e ∈ r.catalog.base, ∃ names dimension,
    e.content.unit = CompoundUnit.ofNamed (.primitive names dimension) ∧ names.symbol = e.name
  derived : ∀ e ∈ r.catalog.derived, ∃ v, e.content.unit = CompoundUnit.ofNamed v
    ∧ v.symbol = e.name ∧ e.expansion = e.content.unit.primitiveProduct
  nodup : r.catalog.names.Nodup

/-- Every entry is a unit under its own symbol. -/
theorem Indexed.entry {r : UnitRegistry α} (indexed : r.Indexed) {e : String × UnitEntry α}
    (he : e ∈ r.entries) : ∃ v, e.2.unit = CompoundUnit.ofNamed v ∧ v.symbol = e.1 := by
  rcases List.mem_append.mp he with inBase | inDerived
  · obtain ⟨d, hd, rfl⟩ := List.mem_map.mp inBase
    obtain ⟨names, dimension, unit, symbol⟩ := indexed.base d hd
    exact ⟨_, unit, symbol⟩
  · obtain ⟨d, hd, rfl⟩ := List.mem_map.mp inDerived
    obtain ⟨v, unit, symbol, -⟩ := indexed.derived d hd
    exact ⟨v, unit, symbol⟩

/-- The registered units are those of the entries. -/
theorem Indexed.mem_named {r : UnitRegistry α} (indexed : r.Indexed) {v : NamedUnit α} :
    v ∈ r.named ↔ ∃ e ∈ r.entries, e.2.unit = CompoundUnit.ofNamed v ∧ v.symbol = e.1 := by
  constructor
  · intro hv
    obtain ⟨e, he, inside⟩ := List.mem_flatMap.mp hv
    obtain ⟨w, unit, symbol⟩ := indexed.entry he
    rw [unit, CompoundUnit.ofNamed_eq, List.map_singleton, List.mem_singleton] at inside
    subst inside
    exact ⟨e, he, unit, symbol⟩
  · rintro ⟨e, he, unit, -⟩
    refine List.mem_flatMap.mpr ⟨e, he, ?_⟩
    rw [unit, CompoundUnit.ofNamed_eq]
    exact List.mem_singleton_self v

/-- The base entries are primitive units. -/
theorem Indexed.named_of_base {r : UnitRegistry α} (indexed : r.Indexed)
    {e : BaseEntry (UnitEntry α)} (he : e ∈ r.catalog.base) :
    ∃ names dimension, e.content.unit = CompoundUnit.ofNamed (.primitive names dimension)
      ∧ names.symbol = e.name ∧ .primitive names dimension ∈ r.named := by
  obtain ⟨names, dimension, unit, symbol⟩ := indexed.base e he
  have entered : (e.name, e.content) ∈ r.entries :=
    List.mem_append_left _ (List.mem_map_of_mem he)
  exact ⟨names, dimension, unit, symbol, indexed.mem_named.mpr ⟨_, entered, unit, symbol⟩⟩

/-- Named units of a registry that share a name are the same. -/
theorem Indexed.named_unique {r : UnitRegistry α} (indexed : r.Indexed) {v w : NamedUnit α}
    (hv : v ∈ r.named) (hw : w ∈ r.named) (same : v.symbol = w.symbol) : v = w := by
  obtain ⟨d, hd, unit, symbol⟩ := indexed.mem_named.mp hv
  obtain ⟨e, he, other, otherSymbol⟩ := indexed.mem_named.mp hw
  have one : d = e :=
    Catalog.contents_unique indexed.nodup hd he (symbol.symm.trans (same.trans otherSymbol))
  rw [← one, unit] at other
  exact CompoundUnit.ofNamed_injective other

/-- What is found under a symbol is a registered unit with that symbol. -/
theorem Indexed.find? {r : UnitRegistry α} (indexed : r.Indexed) {name : String}
    {entry : UnitEntry α} (h : r.catalog.find? name = some entry) :
    ∃ v ∈ r.named, entry.unit = CompoundUnit.ofNamed v ∧ v.symbol = name := by
  have member : (name, entry) ∈ r.entries := Catalog.mem_contents_of_find? h
  obtain ⟨v, unit, symbol⟩ := indexed.entry member
  exact ⟨v, indexed.mem_named.mpr ⟨_, member, unit, symbol⟩, unit, symbol⟩

/-- The parts of a registered unit are parts of the registry. -/
theorem Indexed.parts_subset_of_named {r : UnitRegistry α} (indexed : r.Indexed)
    {v : NamedUnit α} (hv : v ∈ r.named) : v.parts ⊆ r.parts := by
  intro w hw
  obtain ⟨e, he, unit, -⟩ := indexed.mem_named.mp hv
  refine List.mem_flatMap.mpr ⟨e, he, ?_⟩
  rwa [unit, CompoundUnit.parts_ofNamed]

/-- Every entry is a unit of the name that it is entered under, and a derived one is entered with
its expansion.  No name is used twice, and no base dimension has two primitive units. -/
structure WellFormed (r : UnitRegistry α) : Prop where
  base : ∀ e ∈ r.catalog.base, ∃ names dimension,
    e.content.unit = CompoundUnit.ofNamed (.primitive names dimension) ∧ names.symbol = e.name
  derived : ∀ e ∈ r.catalog.derived, ∃ names factor definition,
    e.content.unit = CompoundUnit.ofNamed (.derived names factor definition)
      ∧ names.symbol = e.name ∧ e.expansion = e.content.unit.primitiveProduct
  nodup : r.catalog.names.Nodup
  onePrimitive : OnePrimitive r.named

/-- In a well-formed registry all entries are found under their symbols. -/
theorem WellFormed.indexed {r : UnitRegistry α} (wf : r.WellFormed) : r.Indexed where
  base := wf.base
  derived := fun e he => by
    obtain ⟨names, factor, definition, unit, symbol, expansion⟩ := wf.derived e he
    exact ⟨_, unit, symbol, expansion⟩
  nodup := wf.nodup

/-! ### Registration -/

theorem wellFormed_empty : (empty : UnitRegistry α).WellFormed where
  base := fun e he => by cases he
  derived := fun e he => by cases he
  nodup := List.nodup_nil
  onePrimitive := fun v hv => by cases hv

omit [Scalar α] in
/-- A primitive unit that is accepted is the first of its dimension, and a base entry.  All answers
are forgotten. -/
theorem addPrimitive_spec {r r' : UnitRegistry α} {unit : NamedUnit α} {schemes : List String}
    {u : CompoundUnit α} (h : r.addPrimitive unit schemes = .ok (u, r')) :
    ∃ names dimension, unit = .primitive names dimension
      ∧ r.primitiveUnitFor? dimension = none
      ∧ r.catalog.addBase names.symbol ⟨CompoundUnit.ofNamed unit, schemes⟩ = .ok r'.catalog
      ∧ r'.memory = SchemeMemory.empty := by
  cases unit with
  | derived names factor definition => cases h
  | primitive names dimension =>
      rw [addPrimitive] at h
      split at h
      next => cases h
      next unmeasured =>
        dsimp only at h
        split at h
        next => cases h
        next catalog added =>
          cases h
          exact ⟨names, dimension, rfl, unmeasured, added, rfl⟩

/-- A derived unit that is accepted is a derived entry.  All answers are forgotten. -/
theorem addDerived_spec {r r' : UnitRegistry α} {unit : NamedUnit α} {schemes : List String}
    {u : CompoundUnit α} (h : r.addDerived unit schemes = .ok (u, r')) :
    r.catalog.addDerived unit.symbol (CompoundUnit.ofNamed unit).primitiveProduct
        ⟨CompoundUnit.ofNamed unit, schemes⟩ = .ok r'.catalog
      ∧ r'.memory = SchemeMemory.empty := by
  rw [addDerived] at h
  split at h
  next => cases h
  next catalog added =>
    cases h
    exact ⟨added, rfl⟩

omit [Scalar α] in
/-- No name comes to stand for another unit. -/
theorem extends_addPrimitive {r r' : UnitRegistry α} {unit : NamedUnit α} {schemes : List String}
    {u : CompoundUnit α} (h : r.addPrimitive unit schemes = .ok (u, r')) :
    r.catalog.Extends r'.catalog := by
  obtain ⟨names, dimension, -, -, added, -⟩ := addPrimitive_spec h
  exact Catalog.extends_addBase added

theorem extends_addDerived {r r' : UnitRegistry α} {unit : NamedUnit α} {schemes : List String}
    {u : CompoundUnit α} (h : r.addDerived unit schemes = .ok (u, r')) :
    r.catalog.Extends r'.catalog := Catalog.extends_addDerived (addDerived_spec h).1

omit [Scalar α] in
/-- One more entry is one more registered unit. -/
theorem named_of_entries {r r' : UnitRegistry α} {unit : NamedUnit α} {x : String × UnitEntry α}
    (unit_eq : x.2.unit = CompoundUnit.ofNamed unit)
    (entries : ∀ e, e ∈ r'.entries ↔ e ∈ r.entries ∨ e = x) (v : NamedUnit α) :
    v ∈ r'.named ↔ v ∈ r.named ∨ v = unit := by
  have single : x.2.unit.factors.map (·.base) = [unit] := by
    rw [unit_eq, CompoundUnit.ofNamed_eq]
    rfl
  simp only [named, List.mem_flatMap, entries]
  constructor
  · rintro ⟨e, old | rfl, inside⟩
    · exact .inl ⟨e, old, inside⟩
    · rw [single, List.mem_singleton] at inside
      exact .inr inside
  · rintro (⟨e, old, inside⟩ | rfl)
    · exact ⟨e, .inl old, inside⟩
    · exact ⟨x, .inr rfl, by rw [single]; exact List.mem_singleton_self v⟩

omit [Scalar α] in
/-- One more entry adds the parts of its unit. -/
theorem parts_of_entries {r r' : UnitRegistry α} {unit : NamedUnit α} {x : String × UnitEntry α}
    (unit_eq : x.2.unit = CompoundUnit.ofNamed unit)
    (entries : ∀ e, e ∈ r'.entries ↔ e ∈ r.entries ∨ e = x) (v : NamedUnit α) :
    v ∈ r'.parts ↔ v ∈ r.parts ∨ v ∈ unit.parts := by
  have single : CompoundUnit.parts x.2.unit = unit.parts := by
    rw [unit_eq, CompoundUnit.parts_ofNamed]
  simp only [parts, List.mem_flatMap, entries]
  constructor
  · rintro ⟨e, old | rfl, inside⟩
    · exact .inl ⟨e, old, inside⟩
    · exact .inr (single ▸ inside)
  · rintro (⟨e, old, inside⟩ | inside)
    · exact ⟨e, .inl old, inside⟩
    · exact ⟨x, .inr rfl, single ▸ inside⟩

omit [Scalar α] in
/-- A primitive unit is one more entry, under its symbol. -/
theorem entries_addPrimitive {r r' : UnitRegistry α} {unit : NamedUnit α} {schemes : List String}
    {u : CompoundUnit α} (h : r.addPrimitive unit schemes = .ok (u, r'))
    (e : String × UnitEntry α) :
    e ∈ r'.entries
      ↔ e ∈ r.entries ∨ e = (unit.symbol, ⟨CompoundUnit.ofNamed unit, schemes⟩) := by
  obtain ⟨names, dimension, rfl, -, added, -⟩ := addPrimitive_spec h
  obtain ⟨-, same⟩ := Catalog.addBase_spec added
  rw [entries, entries, same]
  exact Catalog.mem_contents_addBase

/-- A derived unit is one more entry, under its symbol. -/
theorem entries_addDerived {r r' : UnitRegistry α} {unit : NamedUnit α} {schemes : List String}
    {u : CompoundUnit α} (h : r.addDerived unit schemes = .ok (u, r')) (e : String × UnitEntry α) :
    e ∈ r'.entries
      ↔ e ∈ r.entries ∨ e = (unit.symbol, ⟨CompoundUnit.ofNamed unit, schemes⟩) := by
  rw [entries, entries, (Catalog.addDerived_spec (addDerived_spec h).1).2]
  exact Catalog.mem_contents_addDerived

/-- A dimension without a primitive unit is measured by no unit of the registry. -/
theorem WellFormed.unmeasured {r : UnitRegistry α} (wf : r.WellFormed) {dimension : String}
    (h : r.primitiveUnitFor? dimension = none) {v : NamedUnit α} (hv : v ∈ r.named) :
    v.baseDimension? ≠ some dimension := by
  obtain ⟨e, he, unit, -⟩ := wf.indexed.mem_named.mp hv
  rcases List.mem_append.mp he with inBase | inDerived
  · obtain ⟨d, hd, rfl⟩ := List.mem_map.mp inBase
    have unmatched := List.find?_eq_none.mp (Option.map_eq_none_iff.mp h) d hd
    have asNamed : d.content.unit.asNamed? = some v := by
      rw [unit]
      exact CompoundUnit.asNamed?_ofNamed v
    rw [asNamed] at unmatched
    simpa using unmatched
  · obtain ⟨d, hd, rfl⟩ := List.mem_map.mp inDerived
    obtain ⟨names, factor, definition, other, -⟩ := wf.derived d hd
    have same : v = .derived names factor definition :=
      CompoundUnit.ofNamed_injective (unit.symm.trans other)
    rw [same]
    exact Option.some_ne_none dimension ∘ Eq.symm

/-- A primitive unit keeps the registry indexed. -/
theorem indexed_addPrimitive {r r' : UnitRegistry α} (indexed : r.Indexed) {unit : NamedUnit α}
    {schemes : List String} {u : CompoundUnit α} (h : r.addPrimitive unit schemes = .ok (u, r')) :
    r'.Indexed := by
  obtain ⟨names, dimension, rfl, -, added, -⟩ := addPrimitive_spec h
  obtain ⟨free, catalog⟩ := Catalog.addBase_spec added
  constructor
  · intro e he
    rw [catalog] at he
    rcases List.mem_append.mp he with old | new
    · exact indexed.base e old
    · rw [List.mem_singleton.mp new]
      exact ⟨names, dimension, rfl, rfl⟩
  · intro e he
    rw [catalog] at he
    exact indexed.derived e he
  · rw [catalog]
    exact Catalog.nodup_names_addBase indexed.nodup free

/-- Whatever unit is entered as a derived one, even if it is primitive. -/
theorem indexed_addDerived {r r' : UnitRegistry α} (indexed : r.Indexed) {unit : NamedUnit α}
    {schemes : List String} {u : CompoundUnit α} (h : r.addDerived unit schemes = .ok (u, r')) :
    r'.Indexed := by
  obtain ⟨free, catalog⟩ := Catalog.addDerived_spec (addDerived_spec h).1
  constructor
  · intro e he
    rw [catalog] at he
    exact indexed.base e he
  · intro e he
    rw [catalog] at he
    rcases List.mem_append.mp he with old | new
    · exact indexed.derived e old
    · rw [List.mem_singleton.mp new]
      exact ⟨unit, rfl, rfl, rfl⟩
  · rw [catalog]
    exact Catalog.nodup_names_addDerived indexed.nodup free

/-- A primitive unit keeps the registry well-formed, as the first one of its dimension. -/
theorem wellFormed_addPrimitive {r r' : UnitRegistry α} (wf : r.WellFormed) {unit : NamedUnit α}
    {schemes : List String} {u : CompoundUnit α} (h : r.addPrimitive unit schemes = .ok (u, r')) :
    r'.WellFormed := by
  have named := named_of_entries (x := (unit.symbol, ⟨CompoundUnit.ofNamed unit, schemes⟩)) rfl
    (entries_addPrimitive h)
  have indexed := indexed_addPrimitive wf.indexed h
  obtain ⟨names, dimension, rfl, unmeasured, added, -⟩ := addPrimitive_spec h
  obtain ⟨-, catalog⟩ := Catalog.addBase_spec added
  refine ⟨indexed.base, ?_, indexed.nodup, ?_⟩
  · intro e he
    rw [catalog] at he
    exact wf.derived e he
  · intro v hv w hw name measuredV measuredW
    rcases (named v).mp hv with oldV | rfl
    · rcases (named w).mp hw with oldW | rfl
      · exact wf.onePrimitive v oldV w oldW name measuredV measuredW
      · cases measuredW
        exact absurd measuredV (wf.unmeasured unmeasured oldV)
    · rcases (named w).mp hw with oldW | rfl
      · cases measuredV
        exact absurd measuredW (wf.unmeasured unmeasured oldW)
      · rfl

/-- A derived unit keeps the registry well-formed. -/
theorem wellFormed_addDerived {r r' : UnitRegistry α} (wf : r.WellFormed) {names : UnitNames}
    {factor : α} {definition : CompoundUnit α} {schemes : List String} {u : CompoundUnit α}
    (h : r.addDerived (.derived names factor definition) schemes = .ok (u, r')) :
    r'.WellFormed := by
  have named := named_of_entries
    (x := (names.symbol, ⟨CompoundUnit.ofNamed (.derived names factor definition), schemes⟩)) rfl
    (entries_addDerived h)
  have indexed := indexed_addDerived wf.indexed h
  obtain ⟨-, catalog⟩ := Catalog.addDerived_spec (addDerived_spec h).1
  refine ⟨indexed.base, ?_, indexed.nodup, ?_⟩
  · intro e he
    rw [catalog] at he
    rcases List.mem_append.mp he with old | new
    · exact wf.derived e old
    · rw [List.mem_singleton.mp new]
      exact ⟨names, factor, definition, rfl, rfl, rfl⟩
  · intro v hv w hw name measuredV measuredW
    rcases (named v).mp hv with oldV | rfl
    · rcases (named w).mp hw with oldW | rfl
      · exact wf.onePrimitive v oldV w oldW name measuredV measuredW
      · cases measuredW
    · cases measuredV

/-! ### Units that are built from registered ones -/

/-- A unit that is a product of registered units, as such products are built. -/
structure Builds (r : UnitRegistry α) (u : CompoundUnit α) : Prop where
  canonical : Product.Canonical u
  base : ∀ f ∈ u.factors, f.base ∈ r.named

section Builds

variable {r : UnitRegistry α}

omit [Scalar α]

theorem builds_scalar : r.Builds CompoundUnit.scalar where
  canonical := Product.canonical_unity
  base := fun f hf => by cases hf

/-- A registered unit is built from registered ones. -/
theorem builds_ofNamed {v : NamedUnit α} (hv : v ∈ r.named) :
    r.Builds (CompoundUnit.ofNamed v) where
  canonical := Product.canonical_ofFactors _
  base := by
    intro f hf
    rw [CompoundUnit.ofNamed_eq] at hf
    rw [List.mem_singleton.mp hf]
    exact hv

/-- So is a product of registered units. -/
theorem builds_ofFactors {fs : List (Factor (NamedUnit α))} (h : ∀ f ∈ fs, f.base ∈ r.named) :
    r.Builds (Product.ofFactors fs) where
  canonical := Product.canonical_ofFactors fs
  base := by
    intro g hg
    obtain ⟨f, hf, same⟩ := Product.base_mem_ofFactors hg
    rw [same]
    exact h f hf

theorem Builds.mono {r' : UnitRegistry α} {u : CompoundUnit α} (h : r.Builds u)
    (grown : r.named ⊆ r'.named) : r'.Builds u where
  canonical := h.canonical
  base := fun f hf => grown (h.base f hf)

end Builds

/-- So is every unit that can be looked up. -/
theorem Indexed.builds_get {r : UnitRegistry α} (indexed : r.Indexed) {name : String}
    {u : CompoundUnit α} (h : r.get name = .ok u) : r.Builds u := by
  obtain ⟨entry, found, rfl⟩ := get_eq_ok_iff.mp h
  obtain ⟨v, hv, unit, -⟩ := indexed.find? found
  rw [unit]
  exact builds_ofNamed hv

/-- The parts of a unit that is built from registered ones occur in registered units. -/
theorem Indexed.parts_of_builds {r : UnitRegistry α} (indexed : r.Indexed) {u : CompoundUnit α}
    (h : r.Builds u) : CompoundUnit.parts u ⊆ r.parts :=
  CompoundUnit.parts_subset_iff.mpr fun f hf => indexed.parts_subset_of_named (h.base f hf)

/-- Every unit that a registered unit is defined by is registered as well. -/
def Closed (r : UnitRegistry α) : Prop := r.parts ⊆ r.named

theorem Closed.oneDefinition {r : UnitRegistry α} (closed : r.Closed) (wf : r.WellFormed) :
    OneDefinition r.parts := by
  intro v hv w hw same
  rw [wf.indexed.named_unique (closed hv) (closed hw) same]

theorem Closed.onePrimitive {r : UnitRegistry α} (closed : r.Closed) (wf : r.WellFormed) :
    OnePrimitive r.parts := wf.onePrimitive.mono closed

omit [Scalar α] in
theorem closed_empty : (empty : UnitRegistry α).Closed := List.nil_subset _

omit [Scalar α] in
theorem named_subset_addPrimitive {r r' : UnitRegistry α} {unit : NamedUnit α}
    {schemes : List String} {u : CompoundUnit α} (h : r.addPrimitive unit schemes = .ok (u, r')) :
    r.named ⊆ r'.named := fun v hv =>
  (named_of_entries rfl (entries_addPrimitive h) v).mpr (.inl hv)

theorem named_subset_addDerived {r r' : UnitRegistry α} {unit : NamedUnit α}
    {schemes : List String} {u : CompoundUnit α} (h : r.addDerived unit schemes = .ok (u, r')) :
    r.named ⊆ r'.named := fun v hv =>
  (named_of_entries rfl (entries_addDerived h) v).mpr (.inl hv)

omit [Scalar α] in
/-- A primitive unit needs no definition. -/
theorem closed_addPrimitive {r r' : UnitRegistry α} (closed : r.Closed) {names : UnitNames}
    {dimension : String} {schemes : List String} {u : CompoundUnit α}
    (h : r.addPrimitive (.primitive names dimension) schemes = .ok (u, r')) : r'.Closed := by
  intro v hv
  rw [named_of_entries rfl (entries_addPrimitive h)]
  rcases (parts_of_entries rfl (entries_addPrimitive h) v).mp hv with old | new
  · exact .inl (closed old)
  · rw [NamedUnit.parts, List.mem_singleton] at new
    exact .inr new

/-- A derived unit keeps the registry closed if it is defined by registered units. -/
theorem closed_addDerived {r r' : UnitRegistry α} (closed : r.Closed) (wf : r.WellFormed)
    {names : UnitNames} {factor : α} {definition : CompoundUnit α} (built : r.Builds definition)
    {schemes : List String} {u : CompoundUnit α}
    (h : r.addDerived (.derived names factor definition) schemes = .ok (u, r')) : r'.Closed := by
  intro v hv
  rw [named_of_entries rfl (entries_addDerived h)]
  rcases (parts_of_entries rfl (entries_addDerived h) v).mp hv with old | new
  · exact .inl (closed old)
  · rw [NamedUnit.parts] at new
    rcases List.mem_cons.mp new with rfl | inside
    · exact .inr rfl
    · exact .inl (closed (wf.indexed.parts_of_builds built inside))

end UnitRegistry

end QuantityCalculus
