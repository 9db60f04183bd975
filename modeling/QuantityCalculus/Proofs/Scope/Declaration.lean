/-
Module: QuantityCalculus.Proofs.Scope.Declaration
Layer: Proofs
Purpose: The scopes that arise from declarations, and what every one of them has in common.
Imports: QuantityCalculus.Proofs.Dimension.Registry, QuantityCalculus.Proofs.Units.Registry,
  QuantityCalculus.Evaluation.Scope
Trusted boundary: none
Main exports: Declaration, Scope.declare, Scope.declareAll,
  addPrimitiveUnit_cases, Scope.Declares, declares, declareAll_operators, declareAll_wellFormed
Open obligations: none
-/
import QuantityCalculus.Proofs.Dimension.Registry
import QuantityCalculus.Proofs.Units.Registry
import QuantityCalculus.Evaluation.Scope

namespace QuantityCalculus

/-- What a scope may be asked to declare.  The operators are not among it. -/
inductive Declaration (α : Type) where
  | baseDimension (name : String)
  | derivedDimension (name : String) (dimension : Dimension)
  | primitiveUnit (symbol dimension : String) (details : UnitDeclaration)
  | derivedUnit (symbol : String) (definition : Quantity α) (details : UnitDeclaration)
  | binding (name : String) (value : Quantity α) (constant : Bool)

/-! ### Declaring -/

namespace Scope

variable {α : Type} [Scalar α]

/-- The scope after a declaration, which may have been refused. -/
def declare (s : Scope α) : Declaration α → Scope α
  | .baseDimension name => (s.addBaseDimension name).2
  | .derivedDimension name dimension => (s.addDerivedDimension name dimension).2
  | .primitiveUnit symbol dimension details => (s.addPrimitiveUnit symbol dimension details).2
  | .derivedUnit symbol definition details => (s.addDerivedUnit symbol definition details).2
  | .binding name value constant =>
      match s.defineVariable name value constant with
      | .ok s => s
      | .error _ => s

/-- The scope after several declarations. -/
def declareAll (s : Scope α) (declarations : List (Declaration α)) : Scope α :=
  declarations.foldl declare s

/-! ### What a single declaration may change -/

omit [Scalar α] in
/-- A dimension name is declared or refused, and nothing else happens. -/
theorem addBaseDimension_cases (s : Scope α) (name : String) :
    (∃ dimension dimensions, s.dimensions.addBase name = .ok (dimension, dimensions)
        ∧ s.addBaseDimension name = (.ok dimension, { s with dimensions := dimensions }))
      ∨ ∃ e, s.addBaseDimension name = (.error (.dimension e), s) := by
  rw [addBaseDimension]
  split
  next dimension dimensions added => exact .inl ⟨dimension, dimensions, added, rfl⟩
  next e _ => exact .inr ⟨e, rfl⟩

omit [Scalar α] in
/-- A derived dimension is entered, or refused without a trace. -/
theorem addDerivedDimension_cases (s : Scope α) (name : String) (dimension : Dimension) :
    (∃ named dimensions, s.dimensions.addDerived name dimension = .ok (named, dimensions)
        ∧ s.addDerivedDimension name dimension = (.ok named, { s with dimensions := dimensions }))
      ∨ ∃ e, s.addDerivedDimension name dimension = (.error (.dimension e), s) := by
  rw [addDerivedDimension]
  split
  next named dimensions added => exact .inl ⟨named, dimensions, added, rfl⟩
  next e _ => exact .inr ⟨e, rfl⟩

omit [Scalar α] in
/-- A primitive unit is registered, or refused without a trace. -/
theorem registerPrimitiveUnit_cases (s : Scope α) (symbol dimension : String)
    (details : UnitDeclaration) :
    (∃ u units, s.units.addPrimitive (.primitive (details.names symbol) dimension) details.schemes
            = .ok (u, units)
        ∧ s.registerPrimitiveUnit symbol dimension details = (.ok u, { s with units := units }))
      ∨ ∃ e, s.units.addPrimitive (.primitive (details.names symbol) dimension) details.schemes
            = .error e
        ∧ s.registerPrimitiveUnit symbol dimension details = (.error (.unit e), s) := by
  rw [registerPrimitiveUnit]
  split
  next u units added => exact .inl ⟨u, units, added, rfl⟩
  next e refused => exact .inr ⟨e, refused, rfl⟩

omit [Scalar α] in
/-- A primitive unit of an unknown dimension is registered after the dimension has been declared,
which cannot fail. -/
theorem addPrimitiveUnit_cases (s : Scope α) (symbol dimension : String)
    (details : UnitDeclaration) :
    (s.dimensions.isBase dimension = true
        ∧ s.addPrimitiveUnit symbol dimension details
          = s.registerPrimitiveUnit symbol dimension details)
      ∨ s.addPrimitiveUnit symbol dimension details = (.error (.notABaseDimension dimension), s)
      ∨ (s.dimensions.contains dimension = false
        ∧ ∃ dimensions, s.dimensions.addBase dimension = .ok (Dimension.base dimension, dimensions)
          ∧ s.addPrimitiveUnit symbol dimension details
            = registerPrimitiveUnit { s with dimensions := dimensions } symbol
              dimension details) := by
  rw [addPrimitiveUnit]
  split
  next =>
    split
    next isBase => exact .inl ⟨isBase, rfl⟩
    next => exact .inr (.inl rfl)
  next unknown =>
    have free : s.dimensions.catalog.contains dimension = false := Bool.eq_false_iff.mpr unknown
    have added : s.dimensions.addBase dimension = .ok (Dimension.base dimension,
        ⟨{ s.dimensions.catalog with
            base := s.dimensions.catalog.base ++ [⟨dimension, ()⟩] }⟩) := by
      rw [DimensionRegistry.addBase, Catalog.addBase, free]
      rfl
    refine .inr (.inr ⟨free, _, added, ?_⟩)
    rw [addBaseDimension, added]

/-- A derived unit is registered, or refused without a trace. -/
theorem addDerivedUnit_cases (s : Scope α) (symbol : String) (definition : Quantity α)
    (details : UnitDeclaration) :
    (∃ u units, s.units.addDerived
            (.derived (details.names symbol) definition.number definition.unit) details.schemes
            = .ok (u, units)
        ∧ s.addDerivedUnit symbol definition details = (.ok u, { s with units := units }))
      ∨ ∃ e, s.addDerivedUnit symbol definition details = (.error (.unit e), s) := by
  rw [addDerivedUnit]
  split
  next u units added => exact .inl ⟨u, units, added, rfl⟩
  next e _ => exact .inr ⟨e, rfl⟩

omit [Scalar α] in
/-- A variable that may be defined is bound, and nothing else changes. -/
theorem defineVariable_ok {s s' : Scope α} {name : String} {value : Quantity α} {constant : Bool}
    (h : s.defineVariable name value constant = .ok s') :
    s' = { s with bindings := bind s.bindings ⟨name, value, constant⟩ } := by
  rw [defineVariable] at h
  split at h
  next b found =>
    split at h
    · cases h
    · exact (Except.ok.inj h).symm
  next => exact (Except.ok.inj h).symm

/-- All that a declaration may do to a scope: it declares a dimension, adds a unit, of a base
dimension if it is primitive, or binds a name. -/
inductive Declares (s : Scope α) : Declaration α → Scope α → Prop where
  | dimensions {d : Declaration α} {dimensions : DimensionRegistry}
      (grown : s.dimensions.Grows dimensions) :
      Declares s d { s with dimensions := dimensions }
  | primitiveUnit {symbol dimension : String} {details : UnitDeclaration}
      {dimensions : DimensionRegistry} {u : CompoundUnit α} {units : UnitRegistry α}
      (grown : s.dimensions.Grows dimensions)
      (isBase : dimensions.isBase dimension = true)
      (added : s.units.addPrimitive (.primitive (details.names symbol) dimension) details.schemes
        = .ok (u, units)) :
      Declares s (.primitiveUnit symbol dimension details)
        { s with dimensions := dimensions, units := units }
  | derivedUnit {symbol : String} {definition : Quantity α} {details : UnitDeclaration}
      {u : CompoundUnit α} {units : UnitRegistry α}
      (added : s.units.addDerived
        (.derived (details.names symbol) definition.number definition.unit) details.schemes
        = .ok (u, units)) :
      Declares s (.derivedUnit symbol definition details) { s with units := units }
  | binding {name : String} {value : Quantity α} {constant : Bool} {s' : Scope α}
      (defined : s.defineVariable name value constant = .ok s') :
      Declares s (.binding name value constant) s'

/-- A declaration that is refused changes nothing, or only the dimensions. -/
theorem Declares.refused (s : Scope α) (d : Declaration α) : s.Declares d s :=
  .dimensions .refl

/-- Whatever is declared changes a scope in one of the ways that are listed. -/
theorem declares (s : Scope α) (d : Declaration α) : s.Declares d (s.declare d) := by
  cases d with
  | baseDimension name =>
      rw [declare]
      rcases s.addBaseDimension_cases name with ⟨dimension, dimensions, added, after⟩ | ⟨e, after⟩
      · rw [after]
        exact .dimensions (.addBase added)
      · rw [after]
        exact .refused s _
  | derivedDimension name dimension =>
      rw [declare]
      rcases s.addDerivedDimension_cases name dimension with ⟨named, dimensions, added, after⟩
        | ⟨e, after⟩
      · rw [after]
        exact .dimensions (.addDerived added)
      · rw [after]
        exact .refused s _
  | primitiveUnit symbol dimension details =>
      rw [declare]
      rcases s.addPrimitiveUnit_cases symbol dimension details with ⟨isBase, same⟩ | refused
        | ⟨-, dimensions, declared, same⟩
      · rw [same]
        rcases s.registerPrimitiveUnit_cases symbol dimension details with ⟨u, units, added, after⟩
          | ⟨e, -, after⟩
        · rw [after]
          exact .primitiveUnit .refl isBase added
        · rw [after]
          exact .refused s _
      · rw [refused]
        exact .refused s _
      · rw [same]
        rcases registerPrimitiveUnit_cases { s with dimensions := dimensions } symbol dimension
          details
          with ⟨u, units, added, after⟩ | ⟨e, -, after⟩
        · rw [after]
          exact .primitiveUnit (.addBase declared) (DimensionRegistry.isBase_addBase declared) added
        · rw [after]
          exact .dimensions (.addBase declared)
  | derivedUnit symbol definition details =>
      rw [declare]
      rcases s.addDerivedUnit_cases symbol definition details with ⟨u, units, added, after⟩
        | ⟨e, after⟩
      · rw [after]
        exact .derivedUnit added
      · rw [after]
        exact .refused s _
  | binding name value constant =>
      rw [declare]
      split
      next s' defined => exact .binding defined
      next => exact .refused s _

/-- No declaration changes the operators. -/
theorem declare_operators (s : Scope α) (d : Declaration α) :
    (s.declare d).operators = s.operators := by
  have step := s.declares d
  generalize s.declare d = s' at step ⊢
  cases step with
  | dimensions => rfl
  | primitiveUnit => rfl
  | derivedUnit => rfl
  | binding defined => rw [defineVariable_ok defined]

/-- Declarations keep the registry well-formed, accepted or not. -/
theorem declare_wellFormed {s : Scope α} (wf : s.units.WellFormed) (d : Declaration α) :
    (s.declare d).units.WellFormed := by
  have step := s.declares d
  generalize s.declare d = s' at step ⊢
  cases step with
  | dimensions => exact wf
  | primitiveUnit _ _ added => exact UnitRegistry.wellFormed_addPrimitive wf added
  | derivedUnit added => exact UnitRegistry.wellFormed_addDerived wf added
  | binding defined =>
      rw [defineVariable_ok defined]
      exact wf

/-! ### Any number of declarations -/

/-- No declarations change the operators. -/
theorem declareAll_operators (s : Scope α) (declarations : List (Declaration α)) :
    (s.declareAll declarations).operators = s.operators := by
  induction declarations generalizing s with
  | nil => rfl
  | cons d declarations ih =>
      rw [declareAll, List.foldl_cons]
      exact (ih (s.declare d)).trans (s.declare_operators d)

/-- Nor do they spoil the registry. -/
theorem declareAll_wellFormed {s : Scope α} (wf : s.units.WellFormed)
    (declarations : List (Declaration α)) : (s.declareAll declarations).units.WellFormed := by
  induction declarations generalizing s with
  | nil => exact wf
  | cons d declarations ih =>
      rw [declareAll, List.foldl_cons]
      exact ih (declare_wellFormed wf d)

end Scope

end QuantityCalculus
