/-
Module: QuantityCalculus.Proofs.Evaluation.Updates
Layer: Proofs
Purpose: All that the evaluation of a tree does to a scope, whether it succeeds or not: one after
  another, it binds names and sets the last result.
Imports: QuantityCalculus.Proofs.Scope.Declaration, QuantityCalculus.Evaluation.Evaluator
Trusted boundary: none
Main exports: Scope.Update, Scope.Updates, evaluate_updates, Scope.Updates.frame
Open obligations: none
-/
import QuantityCalculus.Proofs.Scope.Declaration
import QuantityCalculus.Evaluation.Evaluator

namespace QuantityCalculus

variable {α : Type}

/-- What a single node may do to a scope: a definition binds a name, unless it is bound to a
constant, and a statement leaves its value as the last result. -/
inductive Scope.Update (s : Scope α) : Scope α → Prop where
  | define {name : String} {value : Quantity α} {constant : Bool} {s' : Scope α}
      (defined : s.defineVariable name value constant = .ok s') : Update s s'
  | finish (value : Quantity α) : Update s { s with lastResult := some value }

/-- What several nodes may do to a scope, one after another. -/
abbrev Scope.Updates : Scope α → Scope α → Prop := Relation.ReflTransGen Scope.Update

/-! ### Sequencing -/

namespace Outcome

variable {s : Scope α}

theorem ofExcept_updates (s : Scope α) (result : Except (List (Diagnostic α)) (Quantity α)) :
    s.Updates (ofExcept s result).scope := by
  cases result with
  | ok value => exact .refl
  | error reports => exact .refl

/-- Evaluation goes on to update a scope that was updated before. -/
theorem andThen_updates {o : Outcome α} (first : s.Updates o.scope)
    {f : Quantity α → Scope α → Outcome α} (next : ∀ q (s : Scope α), s.Updates (f q s).scope) :
    s.Updates (o.andThen f).scope := by
  rw [andThen]
  split
  next => exact first
  next q _ => exact first.trans (next q o.scope)

/-- Two nodes update a scope one after the other. -/
theorem both_updates {o : Outcome α} (first : s.Updates o.scope) {second : Scope α → Outcome α}
    (later : ∀ s : Scope α, s.Updates (second s).scope)
    {f : Quantity α → Quantity α → Scope α → Outcome α}
    (next : ∀ x y (s : Scope α), s.Updates (f x y s).scope) :
    s.Updates (o.both second f).scope := by
  have after := first.trans (later o.scope)
  rw [both]
  dsimp only
  split
  next x y _ _ => exact after.trans (next x y _)
  next => exact after

end Outcome

theorem defineValue_updates (s : Scope α) (name : String) (constant : Bool) (value : Quantity α)
    (span : Span) : s.Updates (defineValue s name constant value span).scope := by
  rw [defineValue]
  split
  next s' defined => exact .single (.define defined)
  next => exact .refl
  next => exact .refl

/-! ### Evaluation -/

variable [Scalar α]

/-- The induction is on the tree.  What the children do comes first, then what the node does. -/
theorem evaluate_updates [Elementary α] (preferences : Preferences) (n : Node) (s : Scope α) :
    s.Updates (evaluate preferences n s).scope := by
  induction n generalizing s with
  | number literal span => exact Outcome.ofExcept_updates s _
  | measured literal literalSpan unit span ih =>
      rw [evaluate]
      split
      next => exact .refl
      next => exact Outcome.andThen_updates (ih s) fun _ _ => .refl
  | identifier name span => exact Outcome.ofExcept_updates s _
  | unitName name span => exact Outcome.ofExcept_updates s _
  | unparsed text span => exact .refl
  | binary symbol token left right span ihLeft ihRight =>
      exact Outcome.both_updates (ihLeft s) ihRight fun _ _ s => Outcome.ofExcept_updates s _
  | unary symbol fixity token operand span ih =>
      exact Outcome.andThen_updates (ih s) fun _ s => Outcome.ofExcept_updates s _
  | parenthesis inner span ih => exact ih s
  | unitPower unit token exponent exponentSpan span ih =>
      exact Outcome.andThen_updates (ih s) fun _ s => Outcome.ofExcept_updates s _
  | unitProduct operator token left right span ihLeft ihRight =>
      exact Outcome.both_updates (ihLeft s) ihRight fun _ _ s => Outcome.ofExcept_updates s _
  | definition name nameSpan constant value span ih =>
      exact Outcome.andThen_updates (ih s) fun v s => defineValue_updates s name constant v span
  | statement inner span ih =>
      exact Outcome.andThen_updates (ih s) fun v s => .single (.finish v)

/-! ### What stays as it is -/

namespace Scope

omit [Scalar α]

/-- No evaluation declares anything. -/
theorem Update.frame {s s' : Scope α} (h : s.Update s') :
    s'.dimensions = s.dimensions ∧ s'.units = s.units ∧ s'.operators = s.operators := by
  cases h with
  | define defined =>
      rw [defineVariable_ok defined]
      exact ⟨rfl, rfl, rfl⟩
  | finish value => exact ⟨rfl, rfl, rfl⟩

/-- Updates leave the dimensions, the units and the operators alone. -/
theorem Updates.frame {s s' : Scope α} (h : s.Updates s') :
    s'.dimensions = s.dimensions ∧ s'.units = s.units ∧ s'.operators = s.operators := by
  induction h with
  | refl => exact ⟨rfl, rfl, rfl⟩
  | tail _ update ih =>
      obtain ⟨dimensions, units, operators⟩ := update.frame
      rw [dimensions, units, operators]
      exact ih

end Scope

end QuantityCalculus
