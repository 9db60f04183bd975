/-
Module: QuantityCalculus.Proofs.Scope.Refusal
Layer: Proofs
Purpose: What is refused changes nothing, over every history of a scope, with one exception: a
  primitive unit of an unknown dimension that is refused for its name leaves the dimension behind.
Imports: QuantityCalculus.Proofs.Scope.Registries
Trusted boundary: none
Main exports: Scope.Measured, Reachable.measured, Scope.LeavesDimension, attempt_refused,
  width_left_behind
Open obligations: none
-/
import QuantityCalculus.Proofs.Scope.Registries

namespace QuantityCalculus

variable {α : Type}

/-! ### Primitive units of a dimension -/

namespace UnitRegistry

variable {r r' : UnitRegistry α} {names : UnitNames} {dimension : String} {schemes : List String}

/-- The primitive unit that is remembered for a dimension is registered. -/
theorem WellFormed.exists_named [Scalar α] (wf : r.WellFormed) {existing : String}
    (h : r.primitiveUnitFor? dimension = some existing) :
    ∃ v ∈ r.named, v.baseDimension? = some dimension := by
  obtain ⟨e, found, -⟩ := Option.map_eq_some_iff.mp h
  have measures := List.find?_some found
  obtain ⟨_, _, unit, -, named⟩ := wf.indexed.named_of_base (List.mem_of_find?_eq_some found)
  refine ⟨_, named, ?_⟩
  simpa [unit, CompoundUnit.asNamed?_ofNamed] using measures

/-- The first primitive unit of a dimension is refused for its name only. -/
theorem addPrimitive_refused {e : UnitRegistryError}
    (h : r.addPrimitive (.primitive names dimension) schemes = .error e)
    (unmeasured : r.primitiveUnitFor? dimension = none) :
    r.contains names.symbol = true ∧ e = .catalog (.entryExists names.symbol) := by
  by_cases taken : r.catalog.contains names.symbol = true
  · simp [addPrimitive, unmeasured, Catalog.addBase, taken] at h
    exact ⟨taken, h.symm⟩
  · simp [addPrimitive, unmeasured, Catalog.addBase, taken] at h

end UnitRegistry

theorem UnitDeclaration.symbol_names (details : UnitDeclaration) (symbol : String) :
    (details.names symbol).symbol = symbol := by
  rw [UnitDeclaration.names]
  split <;> rfl

namespace Scope

variable [Scalar α]

/-- Every primitive unit measures a dimension that is known. -/
def Measured (s : Scope α) : Prop :=
  ∀ dimension, s.dimensions.contains dimension = false → s.units.primitiveUnitFor? dimension = none

/-- No unit is remembered as the primitive one of a dimension that is not declared. -/
theorem Linked.unmeasured {s : Scope α} (h : s.Linked) : s.Measured := by
  intro dimension unknown
  cases existing : s.units.primitiveUnitFor? dimension with
  | none => rfl
  | some name =>
      obtain ⟨v, hv, measures⟩ := h.units.exists_named existing
      have known := Catalog.contains_of_isBase (h.measured v hv dimension measures)
      exact absurd known (Bool.eq_false_iff.mp unknown)

theorem Reachable.measured [Elementary α] {s : Scope α} (reachable : s.Reachable) : s.Measured :=
  reachable.linked.unmeasured

/-! ### Refusals -/

/-- A primitive unit is refused for its name after its dimension has been declared. -/
def LeavesDimension (s after : Scope α) (request : Request α) (e : ScopeError) : Prop :=
  ∃ symbol dimension details dimensions,
    request = .declare (.primitiveUnit symbol dimension details)
      ∧ s.dimensions.contains dimension = false ∧ s.units.contains symbol = true
      ∧ e = .unit (.catalog (.entryExists symbol))
      ∧ s.dimensions.addBase dimension = .ok (Dimension.base dimension, dimensions)
      ∧ after = { s with dimensions := dimensions }

/-- A dimension that is not known has no primitive unit, so the unit is refused for its name. -/
theorem attempt_primitiveUnit_refused {s : Scope α} (measured : s.Measured)
    {symbol dimension : String} {details : UnitDeclaration} {e : ScopeError}
    (refused : (s.attempt (.declare (.primitiveUnit symbol dimension details))).1 = .error e) :
    (s.attempt (.declare (.primitiveUnit symbol dimension details))).2 = s
      ∨ s.LeavesDimension (s.attempt (.declare (.primitiveUnit symbol dimension details))).2
          (.declare (.primitiveUnit symbol dimension details)) e := by
  rw [attempt] at refused ⊢
  rcases s.addPrimitiveUnit_cases symbol dimension details with ⟨-, same⟩ | notBase
    | ⟨unknown, dimensions, declared, same⟩
  · left
    rw [same] at refused ⊢
    rcases s.registerPrimitiveUnit_cases symbol dimension details with ⟨u, units, -, after⟩
      | ⟨e', -, after⟩ <;>
      simp [verdict, Except.map, after] at refused ⊢
  · left
    rw [notBase]
    rfl
  · right
    rw [same] at refused ⊢
    rcases registerPrimitiveUnit_cases { s with dimensions := dimensions } symbol dimension details
      with ⟨u, units, -, after⟩ | ⟨e', notAdded, after⟩
    · rw [after] at refused
      cases refused
    · obtain ⟨taken, rfl⟩ :=
        UnitRegistry.addPrimitive_refused notAdded (measured dimension unknown)
      rw [after] at refused ⊢
      cases refused
      rw [UnitDeclaration.symbol_names] at taken ⊢
      exact ⟨symbol, dimension, details, dimensions, rfl, unknown, taken, rfl, declared, rfl⟩

/-- Whatever has been done to a scope before: a request that is refused changes nothing at all,
unless it is one for a primitive unit of an unknown dimension under a name that is taken.  Such a
request changes nothing but that the dimension is known afterwards. -/
theorem attempt_refused [Elementary α] {s : Scope α} (reachable : s.Reachable) {request : Request α}
    {e : ScopeError} (refused : (s.attempt request).1 = .error e) :
    (s.attempt request).2 = s ∨ s.LeavesDimension (s.attempt request).2 request e := by
  cases request with
  | register op =>
      left
      rcases s.registerOperator_cases op with ⟨operators, -, after⟩ | ⟨e', after⟩ <;>
        simp [attempt, verdict, Except.map, after] at refused ⊢
  | declare d =>
      cases d with
      | baseDimension name =>
          left
          rcases s.addBaseDimension_cases name with ⟨d, dimensions, -, after⟩ | ⟨e', after⟩ <;>
            simp [attempt, verdict, Except.map, after] at refused ⊢
      | derivedDimension name dimension =>
          left
          rcases s.addDerivedDimension_cases name dimension with ⟨d, dimensions, -, after⟩
            | ⟨e', after⟩ <;>
            simp [attempt, verdict, Except.map, after] at refused ⊢
      | primitiveUnit symbol dimension details =>
          exact attempt_primitiveUnit_refused reachable.measured refused
      | derivedUnit symbol definition details =>
          left
          rcases s.addDerivedUnit_cases symbol definition details with ⟨u, units, -, after⟩
            | ⟨e', after⟩ <;>
            simp [attempt, verdict, Except.map, after] at refused ⊢
      | binding name value constant =>
          left
          rw [attempt] at refused ⊢
          split at refused
          next => cases refused
          next => rfl

end Scope

/-! ### A second metre -/

section Metres

/-- The metre and its dimension. -/
def metreScope : Scope Float :=
  Scope.standard.perform (.request (.declare (.primitiveUnit "m" "Length" ⟨none, []⟩)))

/-- A second primitive unit of a dimension that has one is refused, and nothing changes. -/
theorem second_unit_refused :
    let request : Request Float := .declare (.primitiveUnit "yd" "Length" ⟨none, []⟩)
    metreScope.Reachable
      ∧ (metreScope.attempt request).1
          = .error (.unit (.duplicatePrimitiveUnit "Length" "m"))
      ∧ (metreScope.attempt request).2 = metreScope := by
  intro request
  have reachable : metreScope.Reachable := .perform .standard _
  have refused : (metreScope.attempt request).1
      = .error (.unit (.duplicatePrimitiveUnit "Length" "m")) := rfl
  refine ⟨reachable, refused, (Scope.attempt_refused reachable refused).resolve_right ?_⟩
  rintro ⟨_, _, _, _, _, _, _, other, _⟩
  cases other

/-- A unit of a new dimension is refused under the name of the metre, and the dimension is known all
the same. -/
theorem width_left_behind :
    let request : Request Float := .declare (.primitiveUnit "m" "Width" ⟨none, []⟩)
    metreScope.Reachable
      ∧ (metreScope.attempt request).1 = .error (.unit (.catalog (.entryExists "m")))
      ∧ metreScope.dimensions.contains "Width" = false
      ∧ (metreScope.attempt request).2.dimensions.contains "Width" = true
      ∧ (metreScope.attempt request).2.dimensions ≠ metreScope.dimensions := by
  intro request
  have before : metreScope.dimensions.contains "Width" = false := rfl
  have after : (metreScope.attempt request).2.dimensions.contains "Width" = true := rfl
  refine ⟨.perform .standard _, rfl, before, after, fun same => ?_⟩
  rw [same, before] at after
  cases after

end Metres

end QuantityCalculus
