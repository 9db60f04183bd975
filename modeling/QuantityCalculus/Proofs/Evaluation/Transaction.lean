/-
Module: QuantityCalculus.Proofs.Evaluation.Transaction
Layer: Proofs
Purpose: Statements are transactions.  An expression leaves its scope alone, so that a statement
  made of one changes nothing if it has no value, and otherwise nothing but the last result and the
  name that it defines.
Imports: QuantityCalculus.Evaluation.Evaluator
Trusted boundary: none
Main exports: Node.isExpression, evaluate_scope, Scope.isReadOnly, Scope.Binds, bind_binds,
  defineValue_eq, statement_is_transaction
Open obligations: none
-/
import QuantityCalculus.Evaluation.Evaluator

namespace QuantityCalculus

variable {α : Type}

/-- Whether a tree neither defines names nor holds statements of its own. -/
def Node.isExpression : Node → Bool
  | number _ _ => true
  | measured _ _ unit _ => unit.isExpression
  | identifier _ _ => true
  | unitName _ _ => true
  | unparsed _ _ => true
  | binary _ _ left right _ => left.isExpression && right.isExpression
  | unary _ _ _ operand _ => operand.isExpression
  | parenthesis inner _ => inner.isExpression
  | unitPower unit _ _ _ _ => unit.isExpression
  | unitProduct _ _ left right _ => left.isExpression && right.isExpression
  | definition _ _ _ _ _ => false
  | statement _ _ => false

/-! ### Expressions -/

namespace Outcome

variable {s : Scope α}

@[simp] theorem ofExcept_scope (s : Scope α) (result : Except (List (Diagnostic α)) (Quantity α)) :
    (ofExcept s result).scope = s := by
  cases result <;> rfl

theorem andThen_scope {o : Outcome α} {f : Quantity α → Scope α → Outcome α} (first : o.scope = s)
    (next : ∀ x, (f x s).scope = s) : (o.andThen f).scope = s := by
  cases valued : o.value with
  | none => simp [andThen, valued, first]
  | some x => simp [andThen, valued, first, next]

/-- Two nodes that leave the scope as it is do so together. -/
theorem both_scope {o : Outcome α} {second : Scope α → Outcome α}
    {f : Quantity α → Quantity α → Scope α → Outcome α} (first : o.scope = s)
    (later : (second s).scope = s) (next : ∀ x y, (f x y s).scope = s) :
    (o.both second f).scope = s := by
  simp only [both, first]
  split
  next x y _ _ => simp [later, next]
  next => exact later

end Outcome

section Evaluation

variable [Scalar α] [Elementary α]

/-- The evaluation of an expression leaves the scope as it is, whether there is a value or not. -/
theorem evaluate_scope (preferences : Preferences) {n : Node} (expression : n.isExpression = true)
    (s : Scope α) : (evaluate preferences n s).scope = s := by
  induction n with
  | number literal span => exact Outcome.ofExcept_scope s _
  | measured literal literalSpan unit span ih =>
      rw [evaluate]
      split
      next => rfl
      next => exact Outcome.andThen_scope (ih expression) fun _ => rfl
  | identifier name span => exact Outcome.ofExcept_scope s _
  | unitName name span => exact Outcome.ofExcept_scope s _
  | unparsed text span => rfl
  | binary symbol token left right span ihLeft ihRight =>
      obtain ⟨leftPlain, rightPlain⟩ := (Bool.and_eq_true _ _).mp expression
      exact Outcome.both_scope (ihLeft leftPlain) (ihRight rightPlain) fun _ _ => by simp
  | unary symbol fixity token operand span ih =>
      exact Outcome.andThen_scope (ih expression) fun _ => by simp
  | parenthesis inner span ih => exact ih expression
  | unitPower unit token exponent exponentSpan span ih =>
      exact Outcome.andThen_scope (ih expression) fun _ => by simp
  | unitProduct operator token left right span ihLeft ihRight =>
      obtain ⟨leftPlain, rightPlain⟩ := (Bool.and_eq_true _ _).mp expression
      exact Outcome.both_scope (ihLeft leftPlain) (ihRight rightPlain) fun _ _ => by simp
  | definition => cases expression
  | statement => cases expression

end Evaluation

/-! ### Binding a name -/

namespace Scope

/-- Whether a name is bound to a constant, so that it cannot be bound again. -/
def isReadOnly (s : Scope α) (name : String) : Bool :=
  match s.binding? name with
  | some b => b.constant
  | none => false

/-- What becomes of bindings when a name is bound: the first binding of that name is replaced where
it stands, and if there is none the new binding comes last. -/
inductive Binds (new : Binding α) : List (Binding α) → List (Binding α) → Prop where
  | replace {before : List (Binding α)} {old : Binding α} (after : List (Binding α))
      (first : ∀ b ∈ before, b.name ≠ new.name) (same : old.name = new.name) :
      Binds new (before ++ old :: after) (before ++ new :: after)
  | append {bindings : List (Binding α)} (unbound : ∀ b ∈ bindings, b.name ≠ new.name) :
      Binds new bindings (bindings ++ [new])

theorem Binds.cons {new b : Binding α} {bindings bound : List (Binding α)}
    (h : Binds new bindings bound) (other : b.name ≠ new.name) :
    Binds new (b :: bindings) (b :: bound) := by
  cases h with
  | replace after first same => exact .replace after (List.forall_mem_cons.mpr ⟨other, first⟩) same
  | append unbound => exact .append (List.forall_mem_cons.mpr ⟨other, unbound⟩)

/-- A name is bound to the new value, at its old place or at the end. -/
theorem bind_binds (bindings : List (Binding α)) (new : Binding α) :
    Binds new bindings (bind bindings new) := by
  induction bindings with
  | nil => exact .append (by simp)
  | cons b rest ih =>
      rw [bind]
      split
      next same =>
          have first : ∀ c ∈ ([] : List (Binding α)), c.name ≠ new.name := by simp
          exact .replace rest first same
      next other => exact ih.cons other

/-- A variable is bound unless its name is read-only. -/
theorem defineVariable_eq (s : Scope α) (name : String) (value : Quantity α) (constant : Bool) :
    s.defineVariable name value constant
      = if s.isReadOnly name then .error (.readOnlyVariable name)
        else .ok { s with bindings := bind s.bindings ⟨name, value, constant⟩ } := by
  cases found : s.binding? name with
  | none => simp [defineVariable, isReadOnly, found]
  | some b => simp [defineVariable, isReadOnly, found]

end Scope

/-- So is a definition, which reports a read-only name and leaves the scope as it is. -/
theorem defineValue_eq (s : Scope α) (name : String) (constant : Bool) (value : Quantity α)
    (span : Span) :
    defineValue s name constant value span
      = if s.isReadOnly name then .failure (reportAt span (.readOnlyVariable name)) s
        else .success value
          { s with bindings := Scope.bind s.bindings ⟨name, value, constant⟩ } := by
  rw [defineValue, Scope.defineVariable_eq]
  cases s.isReadOnly name <;> rfl

/-! ### Statements -/

section Statements

variable [Scalar α] [Elementary α]

/-- Whatever it is evaluated in, a statement that consists of an expression, or of a definition by
one, has no value and changes nothing, or it has the value of the expression, which becomes the last
result and the value of the defined name, and changes nothing else.  A definition has no value also
if its name is read-only. -/
theorem statement_is_transaction (s : Scope α) (preferences : Preferences) {e : Node}
    (expression : e.isExpression = true) (span : Span) (name : String) (nameSpan : Span)
    (constant : Bool) (definitionSpan : Span) :
    let plain := evaluateStatement s preferences (.statement e span)
    let defining := evaluateStatement s preferences
      (.statement (.definition name nameSpan constant e definitionSpan) span)
    (plain.1.value = (evaluate preferences e s).value
        ∧ (plain.1.value = none → plain.2 = s)
        ∧ ∀ v, plain.1.value = some v → plain.2 = { s with lastResult := some v })
      ∧ defining.1.value = (if s.isReadOnly name then none else (evaluate preferences e s).value)
      ∧ (defining.1.value = none → defining.2 = s)
      ∧ ∀ v, defining.1.value = some v → ∃ bindings,
          Scope.Binds ⟨name, v, constant⟩ s.bindings bindings
            ∧ defining.2 = { s with bindings := bindings, lastResult := some v } := by
  intro plain defining
  have unchanged := evaluate_scope preferences expression s
  cases valued : (evaluate preferences e s).value with
  | none => simp [plain, defining, evaluateStatement, evaluate, Outcome.andThen, valued, unchanged]
  | some v =>
      constructor
      · simp [plain, evaluateStatement, evaluate, Outcome.andThen, Outcome.success, valued,
          unchanged]
      · cases readOnly : s.isReadOnly name with
        | true =>
            simp [defining, evaluateStatement, evaluate, Outcome.andThen, Outcome.failure,
              defineValue_eq, valued, unchanged, readOnly]
        | false =>
            have bound := Scope.bind_binds s.bindings ⟨name, v, constant⟩
            simp [defining, evaluateStatement, evaluate, Outcome.andThen, Outcome.success,
              defineValue_eq, valued, unchanged, readOnly, bound]

end Statements

/-! ### A variable and a constant -/

section Widths

/-- A variable `w` and a constant `c`. -/
def widths : Scope Float :=
  { (Scope.standard : Scope Float) with
    bindings := [⟨"w", Quantity.plain 1, false⟩, ⟨"c", Quantity.plain 2, true⟩] }

/-- The definition of a name as the value of `c`. -/
def defineAsConstant (name : String) : Evaluation Float × Scope Float :=
  evaluateStatement widths Preferences.standard
    (.statement (.definition name ⟨0, 1⟩ false (.identifier "c" ⟨4, 5⟩) ⟨0, 5⟩) ⟨0, 5⟩)

/-- The variable takes the value of the constant and keeps its place, and the constant cannot be
defined again. -/
theorem width_redefined :
    (Node.identifier "c" ⟨4, 5⟩).isExpression = true
      ∧ (∃ bindings, Scope.Binds ⟨"w", Quantity.plain 2, false⟩ widths.bindings bindings
        ∧ (defineAsConstant "w").2
          = { widths with bindings := bindings, lastResult := some (Quantity.plain 2) })
      ∧ (defineAsConstant "c").1.value = none
      ∧ (defineAsConstant "c").2 = widths := by
  have transaction := fun name => statement_is_transaction widths Preferences.standard
    (e := .identifier "c" ⟨4, 5⟩) rfl ⟨0, 5⟩ name ⟨0, 1⟩ false ⟨0, 5⟩
  obtain ⟨-, -, -, committed⟩ := transaction "w"
  obtain ⟨-, refused, unchanged, -⟩ := transaction "c"
  exact ⟨rfl, committed _ rfl, refused, unchanged refused⟩

end Widths

end QuantityCalculus
