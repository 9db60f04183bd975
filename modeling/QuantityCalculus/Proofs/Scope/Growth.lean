/-
Module: QuantityCalculus.Proofs.Scope.Growth
Layer: Proofs
Purpose: The names of a scope only ever become more.  Whatever is done to it, a dimension, a unit or
  an operator that is found is found ever after, variables stay bound and in order, and constants
  keep their values.
Imports: QuantityCalculus.Proofs.Scope.History
Trusted boundary: none
Main exports: Scope.Extends, resolve?_register, find?_bind, names_bind, extends_defineVariable,
  Change.grows, performAll_extends, names_only_grow
Open obligations: none
-/
import QuantityCalculus.Proofs.Scope.History

namespace QuantityCalculus

variable {α : Type}

/-! ### Operators and bindings -/

/-- An operator is registered behind those that are found already. -/
theorem OperatorTable.resolve?_register {t t' : OperatorTable α} {op : Operator α}
    (added : t.register op = .ok t') {symbol : String} {signature : Signature} {found : Operator α}
    (before : t.resolve? symbol signature = some found) :
    t'.resolve? symbol signature = some found := by
  rw [register] at added
  split at added
  next => cases added
  next =>
    cases added
    rw [resolve?] at before ⊢
    simp [List.find?_append, before]

namespace Scope

/-- The new value is found under its name, and under any other name what was found before. -/
theorem find?_bind (bindings : List (Binding α)) (new : Binding α) (name : String) :
    (bind bindings new).find? (fun b => b.name == name)
      = if new.name = name then some new else bindings.find? fun b => b.name == name := by
  induction bindings with
  | nil => by_cases bound : new.name = name <;> simp [bind, bound]
  | cons b rest ih =>
      rw [bind]
      split
      next same => by_cases bound : new.name = name <;> simp [same, bound]
      next different =>
        by_cases found : b.name = name
        · have other : new.name ≠ name := fun bound => different (found.trans bound.symm)
          simp [found, other]
        · simp [found, ih]

/-- A name that is bound again keeps its place, and a new one comes last. -/
theorem names_bind (bindings : List (Binding α)) (new : Binding α) :
    (bind bindings new).map Binding.name
      = if new.name ∈ bindings.map Binding.name then bindings.map Binding.name
        else bindings.map Binding.name ++ [new.name] := by
  induction bindings with
  | nil => simp [bind]
  | cons b rest ih =>
      rw [bind]
      split
      next same => simp [same]
      next different =>
        have other : new.name ≠ b.name := fun same => different same.symm
        by_cases bound : new.name ∈ rest.map Binding.name
        · simp [ih, bound]
        · simp [ih, bound, other]

/-- What is redefined was no constant. -/
theorem defineVariable_variable {s s' : Scope α} {name : String} {value : Quantity α}
    {constant : Bool} (defined : s.defineVariable name value constant = .ok s') {b : Binding α}
    (bound : s.binding? name = some b) : b.constant = false := by
  rw [defineVariable, bound] at defined
  dsimp only at defined
  split at defined
  next => cases defined
  next isVariable => exact Bool.eq_false_iff.mpr isVariable

/-! ### Growth -/

/-- Everything that is found in a scope is found in a later one. -/
structure Extends (s s' : Scope α) : Prop where
  dimension : ∀ name d, s.dimensions.get name = .ok d → s'.dimensions.get name = .ok d
  unit : ∀ name u, s.unit name = .ok u → s'.unit name = .ok u
  operator : ∀ symbol signature op, s.operators.resolve? symbol signature = some op →
    s'.operators.resolve? symbol signature = some op
  /-- A bound variable stays bound. -/
  bound : ∀ name b, s.binding? name = some b → ∃ b', s'.binding? name = some b'
  /-- A constant keeps its value and stays a constant. -/
  constant : ∀ name b, s.binding? name = some b → b.constant = true → s'.binding? name = some b
  /-- The variables keep the order in which they were first defined. -/
  order : s.bindings.map Binding.name <+: s'.bindings.map Binding.name

namespace Extends

variable {s s' s'' : Scope α}

/-- A scope that extends an extended one extends the first. -/
theorem trans (h : s.Extends s') (k : s'.Extends s'') : s.Extends s'' where
  dimension := fun name d found => k.dimension name d (h.dimension name d found)
  unit := fun name u found => k.unit name u (h.unit name u found)
  operator := fun symbol signature op found =>
    k.operator symbol signature op (h.operator symbol signature op found)
  bound := fun name b found => by
    obtain ⟨b', later⟩ := h.bound name b found
    exact k.bound name b' later
  constant := fun name b found isConstant =>
    k.constant name b (h.constant name b found isConstant) isConstant
  order := h.order.trans k.order

/-- Where no name is bound, the registries and the operators tell what is found. -/
theorem of_registries (dimensions : s.dimensions.catalog.Extends s'.dimensions.catalog)
    (units : s.units.catalog.Extends s'.units.catalog)
    (operators : ∀ symbol signature op, s.operators.resolve? symbol signature = some op →
      s'.operators.resolve? symbol signature = some op)
    (bindings : s'.bindings = s.bindings) : s.Extends s' where
  dimension := fun _ _ found => dimensions.expansion found
  unit := fun name u found => by
    obtain ⟨entry, inCatalog, same⟩ := UnitRegistry.get_eq_ok_iff.mp found
    exact UnitRegistry.get_eq_ok_iff.mpr ⟨entry, units.find? inCatalog, same⟩
  operator := operators
  bound := fun name b found => ⟨b, by rwa [binding?, bindings]⟩
  constant := fun name b found _ => by rwa [binding?, bindings]
  order := by rw [bindings]

theorem refl (s : Scope α) : s.Extends s :=
  of_registries (.refl _) (.refl _) (fun _ _ _ found => found) rfl

end Extends

/-- A definition binds a new name, or one that is not bound to a constant. -/
theorem extends_defineVariable {s s' : Scope α} {name : String} {value : Quantity α}
    {constant : Bool} (defined : s.defineVariable name value constant = .ok s') : s.Extends s' := by
  have rebound := fun b => defineVariable_variable (b := b) defined
  obtain rfl := defineVariable_ok defined
  have unbound := Extends.refl s
  refine { unbound with bound := ?_, constant := ?_, order := ?_ }
  · intro other b found
    rw [binding?] at found ⊢
    simp only [find?_bind, found]
    split <;> simp
  · intro other b found isConstant
    have different : name ≠ other := by
      rintro rfl
      rw [rebound b found] at isConstant
      cases isConstant
    rw [binding?] at found ⊢
    simp [find?_bind, found, different]
  · simp only [names_bind]
    split
    next => exact List.prefix_refl _
    next => exact List.prefix_append _ _

theorem Update.grows {s s' : Scope α} (h : s.Update s') : s.Extends s' := by
  cases h with
  | define defined => exact extends_defineVariable defined
  | finish value => exact .of_registries (.refl _) (.refl _) (fun _ _ _ found => found) rfl

theorem Updates.grows {s s' : Scope α} (h : s.Updates s') : s.Extends s' := by
  induction h with
  | refl => exact .refl s
  | tail _ update ih => exact ih.trans update.grows

variable [Scalar α]

/-- No declaration takes anything away. -/
theorem Declares.grows {s s' : Scope α} {d : Declaration α} (h : s.Declares d s') :
    s.Extends s' := by
  cases h with
  | dimensions grown => exact .of_registries grown.keeps (.refl _) (fun _ _ _ found => found) rfl
  | primitiveUnit grown _ added =>
      exact .of_registries grown.keeps (UnitRegistry.extends_addPrimitive added)
        (fun _ _ _ found => found) rfl
  | derivedUnit added =>
      exact .of_registries (.refl _) (UnitRegistry.extends_addDerived added)
        (fun _ _ _ found => found) rfl
  | binding defined => exact extends_defineVariable defined

/-- No change loses a name or gives it another meaning. -/
theorem Change.grows {s s' : Scope α} (h : s.Change s') : s.Extends s' := by
  cases h with
  | declaration declared => exact declared.grows
  | operator added =>
      exact .of_registries (.refl _) (.refl _)
        (fun _ _ _ => OperatorTable.resolve?_register added) rfl
  | updates updates => exact updates.grows
  | memory same =>
      refine .of_registries (.refl _) ?_ (fun _ _ _ found => found) rfl
      rw [same]
      exact .refl _

variable [Elementary α]

theorem performAll_extends (s : Scope α) (actions : List (ScopeAction α)) :
    s.Extends (s.performAll actions) := by
  induction actions generalizing s with
  | nil => exact .refl s
  | cons action actions ih => exact (s.perform_change action).grows.trans (ih (s.perform action))

/-- After whatever has been done to a scope, everything that is found in it is found in it ever
after, and evaluating a tree leaves the dimensions, the units and the operators alone. -/
theorem names_only_grow (s : Scope α) (before later : List (ScopeAction α)) :
    (s.performAll before).Extends (s.performAll (before ++ later))
      ∧ ∀ preferences n,
          let after := (evaluateStatement (s.performAll before) preferences n).2
          after.dimensions = (s.performAll before).dimensions
            ∧ after.units = (s.performAll before).units
            ∧ after.operators = (s.performAll before).operators := by
  constructor
  · rw [performAll, performAll, List.foldl_append]
    exact performAll_extends _ later
  · intro preferences n
    exact (evaluate_updates preferences n _).frame

end Scope

end QuantityCalculus
