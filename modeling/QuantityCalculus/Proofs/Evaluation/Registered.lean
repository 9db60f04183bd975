/-
Module: QuantityCalculus.Proofs.Evaluation.Registered
Layer: Proofs
Purpose: Evaluation makes no units up.  Where all units are defined from registered ones, every
  value that is bound, remembered or computed is in a product of registered units.
Imports: QuantityCalculus.Proofs.Operator.UnitRule, QuantityCalculus.Proofs.Scope.Declaration,
  QuantityCalculus.Proofs.Units.Built, QuantityCalculus.Evaluation.Evaluator
Trusted boundary: none
Main exports: Scope.Rooted, Scope.Grown, Declaration.MadeIn, evaluate_rooted, Scope.Grown.rooted
Open obligations: none
-/
import QuantityCalculus.Proofs.Operator.UnitRule
import QuantityCalculus.Proofs.Scope.Declaration
import QuantityCalculus.Proofs.Units.Built
import QuantityCalculus.Evaluation.Evaluator

namespace QuantityCalculus

variable {α : Type}

/-! ### Simplified units -/

section Units

variable {r : UnitRegistry α} [Scalar α]

/-- A simplified unit is built from registered ones, since units are only merged and matched. -/
theorem UnitRegistry.Builds.simplify (wf : r.WellFormed) {u : CompoundUnit α} (hu : r.Builds u) :
    r.Builds (r.simplify u).unit where
  canonical := by
    have matched : ∀ {w k : CompoundUnit α}, r.matchingUnit? w = some k → Product.Canonical k := by
      intro w k found
      obtain ⟨v, -, rfl, -⟩ := UnitRegistry.matchingUnit?_spec wf.indexed found
      exact Product.canonical_ofFactors _
    rcases r.simplify_cases u with ⟨-, same⟩ | ⟨-, same⟩ | ⟨k, found, same⟩
      | ⟨k, found, same⟩ | same
    · rw [same]
      exact Product.canonical_unity
    · rw [same]
      exact Product.canonical_unity
    · rw [same]
      exact matched found
    · rw [same]
      exact matched found
    · rw [same]
      exact Product.canonical_ofFactors _
  base := by
    intro g hg
    rcases UnitRegistry.base_mem_simplify wf.indexed hg with ⟨f, hf, same⟩ | registered
    · rw [same]
      exact hu.base f hf
    · exact registered

end Units

/-! ### Operators -/

section Operators

variable [Scalar α] {env : Environment α} {left : Operand α} {right : Option (Operand α)}

/-- Matched operands have the unit of one of them. -/
theorem UnitRule.matchOperands_builds {right : Operand α} (hl : env.units.Builds left.value.unit)
    (hr : env.units.Builds right.value.unit) {c : Calculation α}
    (h : UnitRule.matchOperands left right = .ok c) : env.units.Builds c.unit := by
  rcases UnitRule.matchOperands_cases h with ⟨-, -, rfl⟩ | ⟨-, -, rfl⟩ | ⟨-, -, rfl⟩
    | ⟨-, -, converted, -, rfl⟩
  · exact UnitRegistry.builds_scalar
  · exact hr
  · exact hl
  · exact hl

/-- Powers of units that are built from registered ones are built from these. -/
theorem UnitRule.raiseOperand_builds {exponent : Operand α} (hl : env.units.Builds left.value.unit)
    {c : Calculation α} (h : UnitRule.raiseOperand left exponent = .ok c) :
    env.units.Builds c.unit := by
  rw [UnitRule.raiseOperand] at h
  split at h
  next =>
    cases h
    exact UnitRegistry.builds_scalar
  next =>
    split at h
    next unit raised =>
      cases h
      exact hl.scalarPower raised
    next => cases h

/-- So are roots. -/
theorem UnitRule.rootOperand_builds (hl : env.units.Builds left.value.unit) {c : Calculation α}
    (h : UnitRule.rootOperand left = .ok c) : env.units.Builds c.unit := by
  rw [UnitRule.rootOperand] at h
  split at h
  next =>
    cases h
    exact UnitRegistry.builds_scalar
  next =>
    split at h
    next unit raised =>
      cases h
      exact hl.scalarPower raised
    next => cases h

theorem Quantity.convertTo_builds {q converted : Quantity α} {target : CompoundUnit α}
    (hq : env.units.Builds q.unit) (ht : env.units.Builds target)
    (h : q.convertTo target = .ok converted) : env.units.Builds converted.unit := by
  rcases Quantity.convertTo_ok h with ⟨-, rfl⟩ | ⟨-, rfl⟩
  · exact hq
  · exact ht

theorem UnitRule.multiplyOperands_builds {right : Operand α} (hl : env.units.Builds left.value.unit)
    (hr : env.units.Builds right.value.unit) {c : Calculation α}
    (h : UnitRule.multiplyOperands left right = .ok c) : env.units.Builds c.unit := by
  obtain ⟨unit, multiplied, rfl⟩ := UnitRule.multiplyOperands_ok h
  exact hl.productWith hr multiplied

theorem UnitRule.divideOperands_builds {right : Operand α} (hl : env.units.Builds left.value.unit)
    (hr : env.units.Builds right.value.unit) {c : Calculation α}
    (h : UnitRule.divideOperands left right = .ok c) : env.units.Builds c.unit := by
  rcases UnitRule.divideOperands_ok h with ⟨unit, divided, rfl⟩ | ⟨-, unit, divided, rfl⟩
  · exact hl.quotientBy hr divided
  · exact UnitRegistry.builds_scalar.quotientBy hr divided

/-- A share is in the unit of the base, on whichever side that stands. -/
theorem UnitRule.percentOperands_builds {left right : Quantity α}
    (hl : env.units.Builds left.unit) (hr : env.units.Builds right.unit) :
    env.units.Builds (UnitRule.percentOperands left right).unit := by
  rw [UnitRule.percentOperands]
  dsimp only [UnitRule.plainly]
  split
  · exact hr
  · exact hl

/-- An angle is in the preferred unit for angles. -/
theorem UnitRule.fromRadians_builds (angle : ∀ u, env.angleUnit = some u → env.units.Builds u)
    {c : Calculation α} (h : UnitRule.fromRadians.calculate env ⟨left, right⟩ = .ok c) :
    env.units.Builds c.unit := by
  rw [UnitRule.calculate] at h
  dsimp only at h
  split at h
  next unit preferred =>
    cases h
    exact angle unit preferred
  next =>
    cases h
    exact UnitRegistry.builds_scalar

/-- The result of a comparison has no unit. -/
theorem UnitRule.matchingScalar_builds {right : Operand α} {c : Calculation α}
    (h : UnitRule.matchingScalar.calculate env ⟨left, some right⟩ = .ok c) :
    env.units.Builds c.unit := by
  rw [UnitRule.calculate] at h
  dsimp only at h
  cases matched : UnitRule.matchOperands left right with
  | error reports =>
      rw [matched] at h
      cases h
  | ok c =>
      rw [matched] at h
      cases h
      exact UnitRegistry.builds_scalar

/-- What is converted is in one of the two units. -/
theorem UnitRule.conversion_builds {right : Operand α} (hl : env.units.Builds left.value.unit)
    (hr : env.units.Builds right.value.unit) {c : Calculation α}
    (h : UnitRule.conversion.calculate env ⟨left, some right⟩ = .ok c) :
    env.units.Builds c.unit := by
  rw [UnitRule.calculate] at h
  dsimp only at h
  split at h
  next converted found =>
    cases h
    exact Quantity.convertTo_builds hl hr found
  next => cases h

/-- The unit of a calculation is built from registered ones, whatever the rule. -/
theorem UnitRule.calculate_builds (angle : ∀ u, env.angleUnit = some u → env.units.Builds u)
    (hl : env.units.Builds left.value.unit)
    (hr : ∀ o, right = some o → env.units.Builds o.value.unit) {rule : UnitRule}
    {c : Calculation α} (h : rule.calculate env ⟨left, right⟩ = .ok c) :
    env.units.Builds c.unit := by
  cases rule
  case sameUnit =>
    cases h
    exact hl
  case scalarUnit | toRadians =>
    cases h
    exact UnitRegistry.builds_scalar
  case rootUnit => exact UnitRule.rootOperand_builds hl h
  case fromRadians => exact UnitRule.fromRadians_builds angle h
  -- All other rules are for two operands.
  all_goals
    cases right with
    | none => cases h
    | some right => ?_
    have hr := hr right rfl
  case matching => exact UnitRule.matchOperands_builds hl hr h
  case matchingScalar => exact UnitRule.matchingScalar_builds h
  case productUnit => exact UnitRule.multiplyOperands_builds hl hr h
  case quotientUnit => exact UnitRule.divideOperands_builds hl hr h
  case powerUnit => exact UnitRule.raiseOperand_builds hl h
  case percentOf =>
    cases h
    exact UnitRule.percentOperands_builds hl hr
  case conversion => exact UnitRule.conversion_builds hl hr h

/-- The result of an operator is in a unit that is built from registered ones. -/
theorem Operator.apply_builds (wf : env.units.WellFormed)
    (angle : ∀ u, env.angleUnit = some u → env.units.Builds u)
    (hl : env.units.Builds left.value.unit)
    (hr : ∀ o, right = some o → env.units.Builds o.value.unit) {op : Operator α} {q : Quantity α}
    (h : op.apply env ⟨left, right⟩ = .ok q) : env.units.Builds q.unit := by
  obtain ⟨-, c, calculated, rfl⟩ := Operator.apply_ok h
  have built := UnitRule.calculate_builds angle hl hr calculated
  rw [Operator.finish]
  dsimp only
  split
  · exact built.simplify wf
  · exact built

end Operators

/-! ### Scopes -/

section Scopes

variable [Scalar α] [Elementary α]

/-- A scope with the standard operators, in which everything is built from registered units. -/
structure Scope.Rooted (s : Scope α) : Prop where
  wellFormed : s.units.WellFormed
  closed : s.units.Closed
  operators : s.operators = OperatorTable.standard
  bindings : ∀ b ∈ s.bindings, s.units.Builds b.value.unit
  lastResult : ∀ q, s.lastResult = some q → s.units.Builds q.unit

/-- A declaration whose quantities are in units that are built from the registered ones. -/
def Declaration.MadeIn (s : Scope α) : Declaration α → Prop
  | .derivedUnit _ definition _ => s.units.Builds definition.unit
  | .binding _ value _ => s.units.Builds value.unit
  | .baseDimension _ | .derivedDimension _ _ | .primitiveUnit _ _ _ => True

/-- The scopes that declarations and evaluations lead to, if all units are defined from registered
ones. -/
inductive Scope.Grown : Scope α → Prop where
  | standard : Scope.Grown Scope.standard
  | declare {s : Scope α} (grown : Scope.Grown s) (d : Declaration α) (made : d.MadeIn s) :
      Scope.Grown (s.declare d)
  | evaluate {s : Scope α} (grown : Scope.Grown s) (preferences : Preferences) (n : Node) :
      Scope.Grown (evaluateStatement s preferences n).2

theorem Scope.rooted_standard : (Scope.standard : Scope α).Rooted where
  wellFormed := UnitRegistry.wellFormed_empty
  closed := UnitRegistry.closed_empty
  operators := rfl
  bindings := fun b hb => by cases hb
  lastResult := fun q hq => by cases hq

omit [Scalar α] [Elementary α] in
/-- A binding is the new one or was there before. -/
theorem Scope.mem_bind {bindings : List (Binding α)} {new b : Binding α}
    (h : b ∈ Scope.bind bindings new) : b = new ∨ b ∈ bindings := by
  induction bindings with
  | nil =>
      rw [Scope.bind, List.mem_singleton] at h
      exact .inl h
  | cons c rest ih =>
      rw [Scope.bind] at h
      split at h
      next =>
        rcases List.mem_cons.mp h with rfl | later
        · exact .inl rfl
        · exact .inr (List.mem_cons_of_mem _ later)
      next =>
        rcases List.mem_cons.mp h with rfl | later
        · exact .inr List.mem_cons_self
        · rcases ih later with same | old
          · exact .inl same
          · exact .inr (List.mem_cons_of_mem _ old)

/-- A variable may be bound to any value in registered units. -/
theorem Scope.Rooted.bind {s : Scope α} (h : s.Rooted) {new : Binding α}
    (built : s.units.Builds new.value.unit) :
    Scope.Rooted { s with bindings := Scope.bind s.bindings new } where
  wellFormed := h.wellFormed
  closed := h.closed
  operators := h.operators
  bindings := by
    intro b hb
    rcases Scope.mem_bind hb with rfl | old
    · exact built
    · exact h.bindings b old
  lastResult := h.lastResult

/-- Adding a unit keeps the scope rooted, as long as it is defined from registered units. -/
theorem Scope.Rooted.addUnit {s : Scope α} (h : s.Rooted) {units : UnitRegistry α}
    (wf : units.WellFormed) (closed : units.Closed) (grown : s.units.named ⊆ units.named)
    (dimensions : DimensionRegistry) :
    Scope.Rooted { s with dimensions := dimensions, units := units } where
  wellFormed := wf
  closed := closed
  operators := h.operators
  bindings := fun b hb => (h.bindings b hb).mono grown
  lastResult := fun q hq => (h.lastResult q hq).mono grown

/-- A scope stays rooted when something is declared, accepted or not. -/
theorem Scope.Rooted.declare {s : Scope α} (h : s.Rooted) {d : Declaration α} (made : d.MadeIn s) :
    (s.declare d).Rooted := by
  have step := s.declares d
  generalize s.declare d = s' at step ⊢
  cases step with
  | dimensions => exact ⟨h.wellFormed, h.closed, h.operators, h.bindings, h.lastResult⟩
  | primitiveUnit _ _ added =>
      exact h.addUnit (UnitRegistry.wellFormed_addPrimitive h.wellFormed added)
        (UnitRegistry.closed_addPrimitive h.closed added)
        (UnitRegistry.named_subset_addPrimitive added) _
  | derivedUnit added =>
      exact h.addUnit (UnitRegistry.wellFormed_addDerived h.wellFormed added)
        (UnitRegistry.closed_addDerived h.closed h.wellFormed made added)
        (UnitRegistry.named_subset_addDerived added) s.dimensions
  | binding defined =>
      rw [defineVariable_ok defined]
      exact h.bind made

/-! ### Evaluation -/

/-- An outcome whose scope has the given units and is rooted, and whose value, if there is one, is
in a unit that is built from these. -/
structure Outcome.Rooted (r : UnitRegistry α) (o : Outcome α) : Prop where
  scope : o.scope.Rooted
  units : o.scope.units = r
  value : ∀ q, o.value = some q → r.Builds q.unit

variable {s : Scope α}

theorem Outcome.rooted_success (h : s.Rooted) {q : Quantity α} (built : s.units.Builds q.unit) :
    (Outcome.success q s).Rooted s.units where
  scope := h
  units := rfl
  value := fun other same => by
    cases same
    exact built

theorem Outcome.rooted_failure (h : s.Rooted) (reports : List (Diagnostic α)) :
    (Outcome.failure reports s).Rooted s.units where
  scope := h
  units := rfl
  value := fun other same => by cases same

theorem Outcome.rooted_ofExcept (h : s.Rooted)
    {result : Except (List (Diagnostic α)) (Quantity α)}
    (built : ∀ q, result = .ok q → s.units.Builds q.unit) :
    (Outcome.ofExcept s result).Rooted s.units := by
  cases result with
  | ok q => exact Outcome.rooted_success h (built q rfl)
  | error reports => exact Outcome.rooted_failure h reports

/-- Evaluation goes on from a rooted outcome to another one. -/
theorem Outcome.Rooted.andThen {units : UnitRegistry α} {o : Outcome α} (first : o.Rooted units)
    {f : Quantity α → Scope α → Outcome α}
    (next : ∀ q s, s.Rooted → s.units.Builds q.unit → (f q s).Rooted s.units) :
    (o.andThen f).Rooted units := by
  rw [Outcome.andThen]
  split
  next => exact first
  next q valued =>
    have after := next q o.scope first.scope (first.units ▸ first.value q valued)
    rw [first.units] at after
    exact ⟨after.scope, after.units, after.value⟩

/-- Two nodes are evaluated one after the other, and both outcomes are rooted. -/
theorem Outcome.Rooted.both {units : UnitRegistry α} {o : Outcome α} (first : o.Rooted units)
    {second : Scope α → Outcome α} (later : ∀ s, s.Rooted → (second s).Rooted s.units)
    {f : Quantity α → Quantity α → Scope α → Outcome α}
    (next : ∀ x y s, s.Rooted → s.units.Builds x.unit → s.units.Builds y.unit →
      (f x y s).Rooted s.units) :
    (o.both second f).Rooted units := by
  have after := later o.scope first.scope
  rw [first.units] at after
  rw [Outcome.both]
  dsimp only
  split
  next x y firstValued secondValued =>
    have last := next x y (second o.scope).scope after.scope
      (after.units ▸ first.value x firstValued) (after.units ▸ after.value y secondValued)
    rw [after.units] at last
    exact ⟨last.scope, last.units, last.value⟩
  next => exact ⟨after.scope, after.units, fun q same => by cases same⟩

omit [Elementary α] in
theorem literalValue_builds {r : UnitRegistry α} {span : Span} {literal : String} {q : Quantity α}
    (found : (literalValue span literal).map Quantity.plain = .ok q) : r.Builds q.unit := by
  cases parsed : (literalValue span literal : Except (List (Diagnostic α)) α) with
  | error reports =>
      rw [parsed] at found
      cases found
  | ok x =>
      rw [parsed] at found
      cases found
      exact UnitRegistry.builds_scalar

/-- A name stands for a variable, the last result or a unit, all of them registered. -/
theorem identifierValue_builds (h : s.Rooted) {name : String} {span : Span} {q : Quantity α}
    (found : identifierValue s name span = .ok q) : s.units.Builds q.unit := by
  rw [identifierValue] at found
  split at found
  next value bound =>
    cases found
    rw [Scope.valueOf?] at bound
    obtain ⟨b, hb, rfl⟩ := Option.map_eq_some_iff.mp bound
    exact h.bindings b (List.mem_of_find?_eq_some hb)
  next =>
    split at found
    next value remembered =>
      cases found
      split at remembered
      · exact h.lastResult q remembered
      · cases remembered
    next =>
      split at found
      next unit known =>
        cases found
        exact h.wellFormed.indexed.builds_get known
      next => cases found

theorem unitValue_builds (h : s.Rooted) {name : String} {span : Span} {q : Quantity α}
    (found : unitValue s name span = .ok q) : s.units.Builds q.unit := by
  rw [unitValue] at found
  split at found
  next unit known =>
    cases found
    exact h.wellFormed.indexed.builds_get known
  next => cases found

theorem unitPowerValue_builds {r : UnitRegistry α} {base q : Quantity α}
    (built : r.Builds base.unit) {exponent : String} {span : Span}
    (found : unitPowerValue base exponent span = .ok q) : r.Builds q.unit := by
  rw [unitPowerValue] at found
  split at found
  next => cases found
  next =>
    split at found
    next unit raised =>
      cases found
      exact built.scalarPower raised
    next => cases found

omit [Elementary α] in
/-- Products and quotients of registered units are built from these. -/
theorem unitProductValue_builds {r : UnitRegistry α} {left right q : Quantity α}
    (hl : r.Builds left.unit) (hr : r.Builds right.unit) {operator : UnitOperator} {span : Span}
    (found : unitProductValue operator left right span = .ok q) : r.Builds q.unit := by
  cases operator with
  | multiply =>
      unfold unitProductValue at found
      dsimp only at found
      cases multiplied : left.unit.productWith right.unit with
      | error e =>
          rw [multiplied] at found
          cases found
      | ok unit =>
          rw [multiplied] at found
          cases found
          exact hl.productWith hr multiplied
  | divide =>
      unfold unitProductValue at found
      dsimp only at found
      cases divided : left.unit.quotientBy right.unit with
      | error e =>
          rw [divided] at found
          cases found
      | ok unit =>
          rw [divided] at found
          cases found
          exact hl.quotientBy hr divided

/-- The preferred unit for angles is registered, if there is one. -/
theorem environment_builds (h : s.Rooted) (preferences : Preferences) (u : CompoundUnit α)
    (preferred : (s.environment preferences).angleUnit = some u) : s.units.Builds u := by
  obtain ⟨name, -, known⟩ := Option.bind_eq_some_iff.mp preferred
  cases found : s.unit name with
  | error e =>
      rw [found] at known
      cases known
  | ok unit =>
      rw [found] at known
      cases known
      exact h.wellFormed.indexed.builds_get found

/-- No operator leaves the registered units. -/
theorem applyOperator_builds (h : s.Rooted) {preferences : Preferences} {symbol : String}
    {fixity : Fixity} {left : Operand α} {right : Option (Operand α)} {span : Span}
    (hl : s.units.Builds left.value.unit)
    (hr : ∀ o, right = some o → s.units.Builds o.value.unit) {q : Quantity α}
    (found : applyOperator s preferences symbol fixity ⟨left, right⟩ span = .ok q) :
    s.units.Builds q.unit := by
  rw [applyOperator] at found
  split at found
  next op _ =>
    have wf : (s.environment preferences).units.WellFormed := h.wellFormed
    exact Operator.apply_builds wf (environment_builds h preferences) hl hr found
  next => cases found

/-- Neither does a definition, whether it is allowed or refused. -/
theorem defineValue_rooted (h : s.Rooted) (name : String) (constant : Bool) {value : Quantity α}
    (built : s.units.Builds value.unit) (span : Span) :
    (defineValue s name constant value span).Rooted s.units := by
  rw [defineValue]
  split
  next s' defined =>
    rw [Scope.defineVariable_ok defined]
    have bound :
        Scope.Rooted { s with bindings := Scope.bind s.bindings ⟨name, value, constant⟩ } :=
      h.bind built
    exact Outcome.rooted_success bound built
  next => exact Outcome.rooted_failure h _
  next => exact Outcome.rooted_failure h _

/-- The value of a statement is remembered. -/
theorem Scope.Rooted.remember (h : s.Rooted) {value : Quantity α}
    (built : s.units.Builds value.unit) :
    Scope.Rooted { s with lastResult := some value } where
  wellFormed := h.wellFormed
  closed := h.closed
  operators := h.operators
  bindings := h.bindings
  lastResult := fun q same => by
    cases same
    exact built

/-- A number with a unit is in that unit. -/
theorem evaluate_measured_rooted (preferences : Preferences) {literal : String} {unit : Node}
    {literalSpan span : Span} (inner : (evaluate preferences unit s).Rooted s.units)
    (h : s.Rooted) :
    (evaluate preferences (.measured literal literalSpan unit span) s).Rooted s.units := by
  rw [evaluate]
  split
  next => exact Outcome.rooted_failure h _
  next number _ => exact inner.andThen fun u s' h' built => Outcome.rooted_success h' built

/-- Evaluation leads from registered units to registered units. -/
theorem evaluate_rooted (preferences : Preferences) (n : Node) (h : s.Rooted) :
    (evaluate preferences n s).Rooted s.units := by
  induction n generalizing s with
  | number literal span => exact Outcome.rooted_ofExcept h fun q found => literalValue_builds found
  | measured literal literalSpan unit span ih => exact evaluate_measured_rooted preferences (ih h) h
  | identifier name span =>
      exact Outcome.rooted_ofExcept h fun q found => identifierValue_builds h found
  | unitName name span =>
      exact Outcome.rooted_ofExcept h fun q found => unitValue_builds h found
  | unparsed text span => exact Outcome.rooted_failure h _
  | binary symbol token left right span ihLeft ihRight =>
      refine (ihLeft h).both (fun s' h' => ihRight h') fun x y s' h' hx hy => ?_
      refine Outcome.rooted_ofExcept h' fun q found => applyOperator_builds h' hx ?_ found
      rintro o ⟨⟩
      exact hy
  | unary symbol fixity token operand span ih =>
      refine (ih h).andThen fun x s' h' hx => ?_
      refine Outcome.rooted_ofExcept h' fun q found => applyOperator_builds h' hx ?_ found
      exact nofun
  | parenthesis inner span ih => exact ih h
  | unitPower unit token exponent exponentSpan span ih =>
      refine (ih h).andThen fun base s' h' built => ?_
      exact Outcome.rooted_ofExcept h' fun q found => unitPowerValue_builds built found
  | unitProduct operator token left right span ihLeft ihRight =>
      refine (ihLeft h).both (fun s' h' => ihRight h') fun x y s' h' hx hy => ?_
      exact Outcome.rooted_ofExcept h' fun q found => unitProductValue_builds hx hy found
  | definition name nameSpan constant value span ih =>
      exact (ih h).andThen fun v s' h' built => defineValue_rooted h' name constant built span
  | statement inner span ih =>
      refine (ih h).andThen fun v s' h' built => ?_
      have remembered : Scope.Rooted { s' with lastResult := some v } := h'.remember built
      exact Outcome.rooted_success remembered built

/-- Whatever is declared and evaluated, nothing but registered units comes up. -/
theorem Scope.Grown.rooted (grown : s.Grown) : s.Rooted := by
  induction grown with
  | standard => exact Scope.rooted_standard
  | declare _ d made ih => exact ih.declare made
  | evaluate _ preferences n ih => exact (evaluate_rooted preferences n ih).scope

end Scopes

end QuantityCalculus
