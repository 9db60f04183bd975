/-
Module: QuantityCalculus.Proofs.Units.PrimitiveUnits
Layer: Proofs
Purpose: The base dimensions that the units of a registry measure.  No two units that are registered
  as primitive ones measure the same base dimension, whereas a primitive unit that is registered as
  a derived one is not looked at.
Imports: QuantityCalculus.Proofs.Units.Scheme
Trusted boundary: none
Main exports: UnitEntry.baseDimension?, UnitRegistry.measured, Reached.nodup_measured,
  UnitRegistry.EnteredAsDerived, mem_derived_performAll, Indexed.named_unique_of_measured,
  primitive_unit_unique_or_entered_as_derived
Open obligations: none
-/
import QuantityCalculus.Proofs.Units.Scheme

namespace QuantityCalculus

variable {α : Type}

/-- The base dimension that an entry measures, if its unit is a primitive one. -/
def UnitEntry.baseDimension? (entry : UnitEntry α) : Option String :=
  entry.unit.asNamed?.bind NamedUnit.baseDimension?

theorem UnitEntry.baseDimension?_of_unit {entry : UnitEntry α} {v : NamedUnit α}
    (unit : entry.unit = CompoundUnit.ofNamed v) : entry.baseDimension? = v.baseDimension? := by
  rw [UnitEntry.baseDimension?, unit, CompoundUnit.asNamed?_ofNamed, Option.bind_some]

namespace UnitRegistry

/-- What the base entries of a registry measure, in the order of their registration. -/
def measured (r : UnitRegistry α) : List (Option String) :=
  r.catalog.base.map fun e => e.content.baseDimension?

theorem primitiveUnitFor?_eq_none_iff {r : UnitRegistry α} {dimension : String} :
    r.primitiveUnitFor? dimension = none ↔ some dimension ∉ r.measured := by
  simp [primitiveUnitFor?, measured, UnitEntry.baseDimension?]

/-! ### One registration -/

/-- A primitive unit is entered with its dimension. -/
theorem measured_addPrimitive {r r' : UnitRegistry α} {names : UnitNames} {dimension : String}
    {schemes : List String} {u : CompoundUnit α}
    (added : r.addPrimitive (.primitive names dimension) schemes = .ok (u, r')) :
    r'.measured = r.measured ++ [some dimension] := by
  obtain ⟨_, _, -, -, entered, -⟩ := addPrimitive_spec added
  obtain ⟨-, catalog⟩ := Catalog.addBase_spec entered
  have own : (⟨CompoundUnit.ofNamed (.primitive names dimension), schemes⟩
      : UnitEntry α).baseDimension? = some dimension :=
    UnitEntry.baseDimension?_of_unit (v := .primitive names dimension) rfl
  rw [measured, catalog, List.map_append, List.map_singleton, own, measured]

/-- No dimension is measured by two units that are registered as primitive ones. -/
theorem nodup_measured_addPrimitive {r r' : UnitRegistry α} {unit : NamedUnit α}
    {schemes : List String} {u : CompoundUnit α}
    (added : r.addPrimitive unit schemes = .ok (u, r')) (nodup : r.measured.Nodup) :
    r'.measured.Nodup := by
  obtain ⟨names, dimension, rfl, unmeasured, -⟩ := addPrimitive_spec added
  rw [measured_addPrimitive added, ← List.concat_eq_append]
  exact nodup.concat (primitiveUnitFor?_eq_none_iff.mp unmeasured)

variable [Scalar α]

/-- A unit that is registered as a derived one leaves what is measured alone, even if it is
primitive. -/
theorem measured_addDerived {r r' : UnitRegistry α} {unit : NamedUnit α} {schemes : List String}
    {u : CompoundUnit α} (added : r.addDerived unit schemes = .ok (u, r')) :
    r'.measured = r.measured := by
  obtain ⟨-, catalog⟩ := Catalog.addDerived_spec (addDerived_spec added).1
  rw [measured, catalog, measured]

/-- Over every history, no two base entries measure the same base dimension. -/
theorem Reached.nodup_measured {r : UnitRegistry α} {asked : List (SchemeQuestion α)}
    (reached : r.Reached asked) : r.measured.Nodup := by
  induction reached with
  | empty => exact List.nodup_nil
  | addPrimitive _ added ih => exact nodup_measured_addPrimitive added ih
  | addDerived _ added ih => rwa [measured_addDerived added]
  | ask _ question ih => rwa [measured, ask_catalog]
  | copy _ ih => exact ih

/-! ### Derived entries -/

/-- A unit stands among the derived entries since an action that registered it as a derived one. -/
def EnteredAsDerived (r : UnitRegistry α) (actions : List (RegistryAction α)) (v : NamedUnit α) :
    Prop :=
  ∃ e ∈ r.catalog.derived, e.content.unit = CompoundUnit.ofNamed v
    ∧ RegistryAction.addDerived v e.content.schemes ∈ actions

/-- The only action that enters a derived entry is the one that registers its unit as derived. -/
theorem mem_derived_perform {r : UnitRegistry α} {action : RegistryAction α}
    {e : DerivedEntry (UnitEntry α)} (he : e ∈ (r.perform action).catalog.derived) :
    e ∈ r.catalog.derived ∨ ∃ v, e.content.unit = CompoundUnit.ofNamed v
      ∧ action = .addDerived v e.content.schemes := by
  cases action with
  | addPrimitive unit schemes =>
      left
      rw [perform] at he
      rcases r.afterwards_cases (r.addPrimitive unit schemes) with ⟨u, added⟩ | refused
      · obtain ⟨_, _, -, -, entered, -⟩ := addPrimitive_spec added
        rwa [(Catalog.addBase_spec entered).2] at he
      · rwa [refused] at he
  | addDerived unit schemes =>
      rw [perform] at he
      rcases r.afterwards_cases (r.addDerived unit schemes) with ⟨u, added⟩ | refused
      · rw [(Catalog.addDerived_spec (addDerived_spec added).1).2] at he
        rcases List.mem_append.mp he with old | new
        · exact .inl old
        · rw [List.mem_singleton.mp new]
          exact .inr ⟨unit, rfl, rfl⟩
      · rw [refused] at he
        exact .inl he
  | ask question =>
      rw [perform, ask_catalog] at he
      exact .inl he
  | copy => exact .inl he

/-- What is among the derived entries was there before or was added as a derived unit. -/
theorem mem_derived_performAll {r : UnitRegistry α} {actions : List (RegistryAction α)}
    {e : DerivedEntry (UnitEntry α)} (he : e ∈ (r.performAll actions).catalog.derived) :
    e ∈ r.catalog.derived ∨ ∃ v, e.content.unit = CompoundUnit.ofNamed v
      ∧ .addDerived v e.content.schemes ∈ actions := by
  induction actions generalizing r with
  | nil => exact .inl he
  | cons action rest ih =>
      rcases ih he with before | ⟨v, unit, later⟩
      · rcases mem_derived_perform before with old | ⟨v, unit, now⟩
        · exact .inl old
        · exact .inr ⟨v, unit, now ▸ List.mem_cons_self⟩
      · exact .inr ⟨v, unit, List.mem_cons_of_mem _ later⟩

/-! ### One primitive unit for each dimension -/

/-- Where no two base entries measure the same, two primitive units of one dimension are the same,
or one of them is a derived entry. -/
theorem Indexed.named_unique_of_measured {r : UnitRegistry α} (indexed : r.Indexed)
    (nodup : r.measured.Nodup) {v w : NamedUnit α} (hv : v ∈ r.named) (hw : w ∈ r.named)
    {dimension : String} (measuredV : v.baseDimension? = some dimension)
    (measuredW : w.baseDimension? = some dimension) :
    v = w ∨ (∃ e ∈ r.catalog.derived, e.content.unit = CompoundUnit.ofNamed v)
      ∨ ∃ e ∈ r.catalog.derived, e.content.unit = CompoundUnit.ofNamed w := by
  obtain ⟨_, entryV, unitV, -⟩ := indexed.mem_named.mp hv
  obtain ⟨_, entryW, unitW, -⟩ := indexed.mem_named.mp hw
  rcases List.mem_append.mp entryV with baseV | derivedV
  · rcases List.mem_append.mp entryW with baseW | derivedW
    · obtain ⟨d, hd, rfl⟩ := List.mem_map.mp baseV
      obtain ⟨e, he, rfl⟩ := List.mem_map.mp baseW
      have alike : d.content.baseDimension? = e.content.baseDimension? := by
        rw [UnitEntry.baseDimension?_of_unit unitV, UnitEntry.baseDimension?_of_unit unitW,
          measuredV, measuredW]
      obtain rfl : d = e := List.inj_on_of_nodup_map nodup hd he alike
      exact .inl (CompoundUnit.ofNamed_injective (unitV.symm.trans unitW))
    · obtain ⟨e, he, rfl⟩ := List.mem_map.mp derivedW
      exact .inr (.inr ⟨e, he, unitW⟩)
  · obtain ⟨d, hd, rfl⟩ := List.mem_map.mp derivedV
    exact .inr (.inl ⟨d, hd, unitV⟩)

/-- Whatever units are registered, in whatever order and whether they are refused or not: two
registered units that are primitive units of one base dimension are the same unit, unless one of
them is a derived entry, because it was registered as a derived unit. -/
theorem primitive_unit_unique_or_entered_as_derived (actions : List (RegistryAction α)) :
    let r : UnitRegistry α := empty.performAll actions
    ∀ v ∈ r.named, ∀ w ∈ r.named, ∀ dimension, v.baseDimension? = some dimension →
      w.baseDimension? = some dimension →
        v = w ∨ r.EnteredAsDerived actions v ∨ r.EnteredAsDerived actions w := by
  intro r v hv w hw dimension measuredV measuredW
  obtain ⟨asked, reached⟩ := exists_reached actions
  have entered : ∀ u, (∃ e ∈ r.catalog.derived, e.content.unit = CompoundUnit.ofNamed u) →
      r.EnteredAsDerived actions u := by
    rintro u ⟨e, he, unit⟩
    rcases mem_derived_performAll he with before | ⟨other, same, registered⟩
    · cases before
    · rw [← CompoundUnit.ofNamed_injective (unit.symm.trans same)] at registered
      exact ⟨e, he, unit, registered⟩
  rcases reached.indexed.named_unique_of_measured reached.nodup_measured hv hw measuredV measuredW
    with same | derivedV | derivedW
  · exact .inl same
  · exact .inr (.inl (entered v derivedV))
  · exact .inr (.inr (entered w derivedW))

end UnitRegistry

/-! ### A metre and a foot -/

section Lengths

def metreUnit : NamedUnit Float := .primitive (.ofSymbol "m") "Length"

/-- The metre is registered as a primitive unit, and the foot, which is primitive as well, as a
derived one. -/
def lengthActions : List (RegistryAction Float) :=
  [.addPrimitive metreUnit [], .addDerived foot []]

/-- Foot and metre both measure lengths, because the foot was entered as a derived unit. -/
theorem foot_entered_as_derived :
    let r : UnitRegistry Float := UnitRegistry.empty.performAll lengthActions
    metreUnit ∈ r.named ∧ foot ∈ r.named ∧ metreUnit.baseDimension? = some "Length"
      ∧ foot.baseDimension? = some "Length" ∧ r.EnteredAsDerived lengthActions foot := by
  intro r
  have listed : r.named = [metreUnit, foot] := rfl
  have first : metreUnit ∈ r.named := by simp [listed]
  have second : foot ∈ r.named := by simp [listed]
  refine ⟨first, second, rfl, rfl, ?_⟩
  rcases UnitRegistry.primitive_unit_unique_or_entered_as_derived lengthActions metreUnit first foot
    second "Length" rfl rfl with same | ⟨e, -, -, registered⟩ | derived
  · exact absurd (congrArg NamedUnit.symbol same) (by decide)
  · simp only [lengthActions, List.mem_cons, List.not_mem_nil, or_false, reduceCtorEq, false_or,
      RegistryAction.addDerived.injEq] at registered
    exact absurd (congrArg NamedUnit.symbol registered.1) (by decide)
  · exact derived

/-- Both the metre and the foot are registered, and both are primitive units of length. -/
theorem two_primitive_units_of_length :
    let r : UnitRegistry Float := UnitRegistry.empty.performAll lengthActions
    ∃ v ∈ r.named, ∃ w ∈ r.named, v ≠ w ∧ v.baseDimension? = some "Length"
      ∧ w.baseDimension? = some "Length" := by
  intro r
  have listed : r.named = [metreUnit, foot] := rfl
  refine ⟨metreUnit, by simp [listed], foot, by simp [listed], fun same => ?_, rfl, rfl⟩
  exact absurd (congrArg NamedUnit.symbol same) (by decide)

end Lengths

end QuantityCalculus
