/-
Module: QuantityCalculus.Proofs.Scope.History
Layer: Proofs
Purpose: Everything that can be done to a scope, in any order: declarations and operators, which may
  be refused, evaluations, questions about schemes, setting the last result, and copying.
Imports: QuantityCalculus.Proofs.Units.History, QuantityCalculus.Proofs.Evaluation.Updates
Trusted boundary: none
Main exports: Request, Scope.attempt, ScopeAction, Scope.perform, Scope.performAll, Scope.Reachable,
  Reachable.performAll, Scope.Change, perform_change, Scope.registration?, Scope.Registers,
  perform_registers, Reachable.reached_units
Open obligations: none
-/
import QuantityCalculus.Proofs.Units.History
import QuantityCalculus.Proofs.Evaluation.Updates

namespace QuantityCalculus

/-- What a scope may be asked for and may refuse. -/
inductive Request (α : Type) where
  | declare (declaration : Declaration α)
  | register (operator : Operator α)

/-- What can be done to a scope. -/
inductive ScopeAction (α : Type) where
  | request (request : Request α)
  | evaluate (preferences : Preferences) (n : Node)
  | remember (value : Quantity α)
  | ask (question : SchemeQuestion α)
  | copy

namespace Scope

variable {α : Type}

/-- Whether something is granted, without what it leads to, and the scope afterwards. -/
def verdict {β : Type} (answer : Except ScopeError β × Scope α) :
    Except ScopeError Unit × Scope α :=
  (answer.1.map fun _ => (), answer.2)

variable [Scalar α]

/-- Whether a request is granted, and the scope afterwards. -/
def attempt (s : Scope α) : Request α → Except ScopeError Unit × Scope α
  | .declare (.baseDimension name) => verdict (s.addBaseDimension name)
  | .declare (.derivedDimension name dimension) =>
      verdict (s.addDerivedDimension name dimension)
  | .declare (.primitiveUnit symbol dimension details) =>
      verdict (s.addPrimitiveUnit symbol dimension details)
  | .declare (.derivedUnit symbol definition details) =>
      verdict (s.addDerivedUnit symbol definition details)
  | .declare (.binding name value constant) =>
      match s.defineVariable name value constant with
      | .ok s => (.ok (), s)
      | .error e => (.error e, s)
  | .register op => verdict (s.registerOperator op)

/-- To attempt a declaration is to declare, with an answer. -/
theorem attempt_declare (s : Scope α) (d : Declaration α) :
    (s.attempt (.declare d)).2 = s.declare d := by
  cases d with
  | binding name value constant =>
      cases defined : s.defineVariable name value constant with
      | ok s' => simp [attempt, declare, defined]
      | error e => simp [attempt, declare, defined]
  | _ => rfl

omit [Scalar α] in
/-- An operator is registered, or refused without a trace. -/
theorem registerOperator_cases (s : Scope α) (op : Operator α) :
    (∃ operators, s.operators.register op = .ok operators
        ∧ s.registerOperator op = (.ok op, { s with operators := operators }))
      ∨ ∃ e, s.registerOperator op = (.error (.operator e), s) := by
  rw [registerOperator]
  split
  next operators added => exact .inl ⟨operators, added, rfl⟩
  next e _ => exact .inr ⟨e, rfl⟩

variable [Elementary α]

/-- The scope after an action. -/
def perform (s : Scope α) : ScopeAction α → Scope α
  | .request request => (s.attempt request).2
  | .evaluate preferences n => (QuantityCalculus.evaluate preferences n s).scope
  | .remember value => { s with lastResult := some value }
  | .ask question => { s with units := s.units.ask question }
  | .copy => s.copy

/-- The scope after several actions. -/
def performAll (s : Scope α) (actions : List (ScopeAction α)) : Scope α :=
  actions.foldl perform s

/-- The scopes that actions lead to, starting with the standard operators or with no names at
all. -/
inductive Reachable : Scope α → Prop where
  | standard : Reachable standard
  | empty : Reachable empty
  | perform {s : Scope α} (before : Reachable s) (action : ScopeAction α) :
      Reachable (s.perform action)

theorem Reachable.performAll {s : Scope α} (reachable : s.Reachable)
    (actions : List (ScopeAction α)) : (s.performAll actions).Reachable := by
  induction actions generalizing s with
  | nil => exact reachable
  | cons action rest ih => exact ih (reachable.perform action)

/-- All that an action may do to a scope. -/
inductive Change (s : Scope α) : Scope α → Prop where
  | declaration {d : Declaration α} {s' : Scope α} (declared : s.Declares d s') : Change s s'
  | operator {op : Operator α} {operators : OperatorTable α}
      (added : s.operators.register op = .ok operators) :
      Change s { s with operators := operators }
  | updates {s' : Scope α} (updates : s.Updates s') : Change s s'
  | memory {units : UnitRegistry α} (same : units.catalog = s.units.catalog) :
      Change s { s with units := units }

/-- An action declares something, registers an operator, updates names as an evaluation does, or
changes what the registry remembers. -/
theorem perform_change (s : Scope α) (action : ScopeAction α) : s.Change (s.perform action) := by
  cases action with
  | request request =>
      cases request with
      | declare d =>
          rw [perform, attempt_declare]
          exact .declaration (s.declares d)
      | register op =>
          rw [perform, attempt]
          rcases s.registerOperator_cases op with ⟨operators, added, after⟩ | ⟨e, after⟩
          · rw [after]
            exact .operator added
          · rw [after]
            exact .updates .refl
  | evaluate preferences n => exact .updates (evaluate_updates preferences n s)
  | remember value => exact .updates (.single (.finish value))
  | ask question => exact .memory (s.units.ask_catalog question)
  | copy => exact .memory rfl

/-! ### What happens to the registry -/

omit [Elementary α] in
/-- The unit that an action registers, with its schemes, unless the action is refused or registers
none. -/
def registration? (s : Scope α) : ScopeAction α → Option (UnitEntry α)
  | .request (.declare (.primitiveUnit symbol dimension details)) =>
      (s.addPrimitiveUnit symbol dimension details).1.toOption.map (⟨·, details.schemes⟩)
  | .request (.declare (.derivedUnit symbol definition details)) =>
      (s.addDerivedUnit symbol definition details).1.toOption.map (⟨·, details.schemes⟩)
  | _ => none

/-- All that an action may do to a registry, together with the unit that it registers. -/
inductive Registers (r : UnitRegistry α) : Option (UnitEntry α) → UnitRegistry α → Prop where
  | primitive {names : UnitNames} {dimension : String} {schemes : List String} {u : CompoundUnit α}
      {r' : UnitRegistry α}
      (added : r.addPrimitive (.primitive names dimension) schemes = .ok (u, r')) :
      Registers r (some ⟨u, schemes⟩) r'
  | derived {names : UnitNames} {factor : α} {definition : CompoundUnit α} {schemes : List String}
      {u : CompoundUnit α} {r' : UnitRegistry α}
      (added : r.addDerived (.derived names factor definition) schemes = .ok (u, r')) :
      Registers r (some ⟨u, schemes⟩) r'
  | question (question : SchemeQuestion α) : Registers r none (r.ask question)
  | copy : Registers r none r.copy
  | nothing : Registers r none r

omit [Elementary α] in
/-- A primitive unit that is answered for is the new entry, and there is no other. -/
theorem registerPrimitiveUnit_registers (s : Scope α) (symbol dimension : String)
    (details : UnitDeclaration) :
    let (answer, after) := s.registerPrimitiveUnit symbol dimension details
    Registers s.units (answer.toOption.map (⟨·, details.schemes⟩)) after.units := by
  rcases s.registerPrimitiveUnit_cases symbol dimension details with ⟨u, units, added, after⟩
    | ⟨e, -, after⟩
  · rw [after]
    exact .primitive added
  · rw [after]
    exact .nothing

omit [Elementary α] in
/-- A declaration registers what is declared, if it is a unit and granted. -/
theorem declare_registers (s : Scope α) (d : Declaration α) :
    Registers s.units (s.registration? (.request (.declare d))) (s.declare d).units := by
  cases d with
  | baseDimension name =>
      rw [declare]
      rcases s.addBaseDimension_cases name with ⟨_, _, -, after⟩ | ⟨_, after⟩
      · rw [after]
        exact .nothing
      · rw [after]
        exact .nothing
  | derivedDimension name dimension =>
      rw [declare]
      rcases s.addDerivedDimension_cases name dimension with ⟨_, _, -, after⟩ | ⟨_, after⟩
      · rw [after]
        exact .nothing
      · rw [after]
        exact .nothing
  | primitiveUnit symbol dimension details =>
      rw [declare, registration?]
      rcases s.addPrimitiveUnit_cases symbol dimension details with ⟨-, same⟩ | refused
        | ⟨-, dimensions, -, same⟩
      · rw [same]
        exact s.registerPrimitiveUnit_registers symbol dimension details
      · rw [refused]
        exact .nothing
      · rw [same]
        exact registerPrimitiveUnit_registers { s with dimensions := dimensions } symbol dimension
          details
  | derivedUnit symbol definition details =>
      rw [declare, registration?]
      rcases s.addDerivedUnit_cases symbol definition details with ⟨u, units, added, after⟩
        | ⟨e, after⟩
      · rw [after]
        exact .derived added
      · rw [after]
        exact .nothing
  | binding name value constant =>
      rw [declare]
      split
      next s' defined =>
        rw [defineVariable_ok defined]
        exact .nothing
      next => exact .nothing

/-- An action registers a unit, asks a question, forgets what was asked or leaves the registry
alone. -/
theorem perform_registers (s : Scope α) (action : ScopeAction α) :
    Registers s.units (s.registration? action) (s.perform action).units := by
  cases action with
  | request request =>
      cases request with
      | declare d =>
          rw [perform, attempt_declare]
          exact s.declare_registers d
      | register op =>
          rw [perform, attempt]
          rcases s.registerOperator_cases op with ⟨operators, -, after⟩ | ⟨e, after⟩
          · rw [after]
            exact .nothing
          · rw [after]
            exact .nothing
  | evaluate preferences n =>
      rw [perform, (evaluate_updates preferences n s).frame.2.1]
      exact .nothing
  | remember value => exact .nothing
  | ask question => exact .question question
  | copy => exact .copy

omit [Elementary α] in
/-- A registry that was reached is reached again by one more registration. -/
theorem Registers.reached {r r' : UnitRegistry α} {entry : Option (UnitEntry α)}
    (h : Registers r entry r') (before : ∃ asked, r.Reached asked) : ∃ asked, r'.Reached asked := by
  obtain ⟨asked, reached⟩ := before
  cases h with
  | primitive added => exact ⟨[], .addPrimitive reached added⟩
  | derived added => exact ⟨[], .addDerived reached added⟩
  | question question => exact ⟨question :: asked, .ask reached question⟩
  | copy => exact ⟨[], .copy reached⟩
  | nothing => exact ⟨asked, reached⟩

/-- Whatever is done to a scope, its registry stays one that registrations and questions lead to. -/
theorem performAll_reached_units {s : Scope α} (before : ∃ asked, s.units.Reached asked)
    (actions : List (ScopeAction α)) : ∃ asked, (s.performAll actions).units.Reached asked := by
  induction actions generalizing s with
  | nil => exact before
  | cons action rest ih => exact ih ((s.perform_registers action).reached before)

/-- Whatever happens to a scope, registrations and questions have led to its units. -/
theorem Reachable.reached_units {s : Scope α} (reachable : s.Reachable) :
    ∃ asked, s.units.Reached asked := by
  induction reachable with
  | standard => exact ⟨[], .empty⟩
  | empty => exact ⟨[], .empty⟩
  | perform _ action ih => exact (perform_registers _ action).reached ih

end Scope

end QuantityCalculus
