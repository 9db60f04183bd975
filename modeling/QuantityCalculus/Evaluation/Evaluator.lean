/-
Module: QuantityCalculus.Evaluation.Evaluator
Layer: Evaluation
Purpose: The evaluation of trees.  Errors never stop it: a node where one occurs is reported and has
  no value, and the nodes above it have no value either.
Imports: QuantityCalculus.Evaluation.Scope, QuantityCalculus.Expression.Node
Trusted boundary: none
Main exports: Outcome, evaluate, Evaluation, evaluateStatement
Open obligations: none
-/
import QuantityCalculus.Evaluation.Scope
import QuantityCalculus.Expression.Node

namespace QuantityCalculus

/-- What the evaluation of a node leads to: its value if it has one, what was reported in the order
of the reports, and the scope afterwards. -/
structure Outcome (α : Type) where
  value : Option (Quantity α)
  reports : List (Diagnostic α)
  scope : Scope α

variable {α : Type}

namespace Outcome

def success (value : Quantity α) (scope : Scope α) : Outcome α := ⟨some value, [], scope⟩

def failure (reports : List (Diagnostic α)) (scope : Scope α) : Outcome α := ⟨none, reports, scope⟩

/-- What a computation that leaves the scope as it is leads to. -/
def ofExcept (scope : Scope α) : Except (List (Diagnostic α)) (Quantity α) → Outcome α
  | .ok value => success value scope
  | .error reports => failure reports scope

/-- Goes on with the value of a node, if it has one. -/
def andThen (o : Outcome α) (f : Quantity α → Scope α → Outcome α) : Outcome α :=
  match o.value with
  | none => o
  | some value =>
      let next := f value o.scope
      ⟨next.value, o.reports ++ next.reports, next.scope⟩

/-- Evaluates two nodes, the second one even if the first has no value, and goes on with their
values if both have one. -/
def both (first : Outcome α) (second : Scope α → Outcome α)
    (f : Quantity α → Quantity α → Scope α → Outcome α) : Outcome α :=
  let second := second first.scope
  let reports := first.reports ++ second.reports
  match first.value, second.value with
  | some x, some y =>
      let next := f x y second.scope
      ⟨next.value, reports ++ next.reports, next.scope⟩
  | _, _ => ⟨none, reports, second.scope⟩

end Outcome

/-- The report of an error at a node. -/
def reportAt (span : Span) (error : EvaluationError α) : List (Diagnostic α) :=
  [⟨error, span, none⟩]

/-- The names of the last result, unless they are bound to something else. -/
def lastResultNames : List String := ["ans", "_"]

/-- All names that an identifier may have been meant for. -/
def Scope.knownNames (s : Scope α) : List String :=
  s.bindings.map (·.name) ++ lastResultNames ++ s.units.entries.map (·.1)

section Nodes

variable [Scalar α]

/-- The number of a literal. -/
def literalValue (span : Span) (literal : String) : Except (List (Diagnostic α)) α :=
  match parseLiteral literal with
  | .ok number => .ok number
  | .error e => .error (reportAt span (.invalidNumber e))

/-- The value of an identifier: that of a variable, else the last result, else one of a unit. -/
def identifierValue (s : Scope α) (name : String) (span : Span) :
    Except (List (Diagnostic α)) (Quantity α) :=
  match s.valueOf? name with
  | some value => .ok value
  | none =>
      match if lastResultNames.contains name then s.lastResult else none with
      | some value => .ok value
      | none =>
          match s.unit name with
          | .ok unit => .ok (Quantity.ofUnit unit)
          | .error _ =>
              .error (reportAt span (.unknownVariable name (Text.suggest s.knownNames name)))

/-- The value of the name of a unit. -/
def unitValue (s : Scope α) (name : String) (span : Span) :
    Except (List (Diagnostic α)) (Quantity α) :=
  match s.unit name with
  | .ok unit => .ok (Quantity.ofUnit unit)
  | .error e =>
      let suggestion := match e with
        | .catalog (.unknownEntry _ suggestion) => suggestion
        | _ => none
      .error (reportAt span (.unknownUnit name suggestion))

/-- Applies the operator for a symbol and the kinds of the operands. -/
def applyOperator (s : Scope α) (preferences : Preferences) (symbol : String) (fixity : Fixity)
    (operands : Operands α) (span : Span) : Except (List (Diagnostic α)) (Quantity α) :=
  let signature := operands.signature fixity
  match s.operators.resolve? symbol signature with
  | some op => op.apply (s.environment preferences) operands
  | none => .error (reportAt span (.unknownOperator symbol signature))

/-- A unit raised to the power of a literal. -/
def unitPowerValue [Elementary α] (base : Quantity α) (exponent : String) (span : Span) :
    Except (List (Diagnostic α)) (Quantity α) :=
  match literalValue span exponent with
  | .error reports => .error reports
  | .ok exponent =>
      match base.unit.scalarPower exponent with
      | .ok unit => .ok (Quantity.of (Elementary.pow base.number exponent) unit)
      | .error e => .error (reportAt span (.unit e))

/-- The product or the quotient of two units. -/
def unitProductValue (operator : UnitOperator) (left right : Quantity α) (span : Span) :
    Except (List (Diagnostic α)) (Quantity α) :=
  let combined := match operator with
    | .multiply => (left.unit.productWith right.unit).map fun unit =>
        Quantity.of (left.number * right.number) unit
    | .divide => (left.unit.quotientBy right.unit).map fun unit =>
        Quantity.of (left.number / right.number) unit
  match combined with
  | .ok q => .ok q
  | .error e => .error (reportAt span (.unit e))

/-- Binds a name to a value, which is also the value of the definition. -/
def defineValue (s : Scope α) (name : String) (constant : Bool) (value : Quantity α) (span : Span) :
    Outcome α :=
  match s.defineVariable name value constant with
  | .ok s => .success value s
  | .error (.readOnlyVariable name) => .failure (reportAt span (.readOnlyVariable name)) s
  | .error _ => .failure [] s

/-- Evaluates a node in a scope.  The children are evaluated first, from left to right. -/
def evaluate [Elementary α] (preferences : Preferences) : Node → Scope α → Outcome α
  | .number literal span, s =>
      .ofExcept s ((literalValue span literal).map Quantity.plain)
  | .measured literal _ unit span, s =>
      match literalValue span literal with
      | .error reports => .failure reports s
      | .ok number =>
          (evaluate preferences unit s).andThen fun u s =>
            .success (Quantity.of (number * u.number) u.unit) s
  | .identifier name span, s => .ofExcept s (identifierValue s name span)
  | .unitName name span, s => .ofExcept s (unitValue s name span)
  | .unparsed _ _, s => .failure [] s
  | .binary symbol _ left right span, s =>
      (evaluate preferences left s).both (evaluate preferences right) fun x y s =>
        .ofExcept s (applyOperator s preferences symbol .leading
          ⟨⟨left.span, x⟩, some ⟨right.span, y⟩⟩ span)
  | .unary symbol fixity _ operand span, s =>
      (evaluate preferences operand s).andThen fun x s =>
        .ofExcept s (applyOperator s preferences symbol fixity ⟨⟨operand.span, x⟩, none⟩ span)
  | .parenthesis inner _, s => evaluate preferences inner s
  | .unitPower unit _ exponent _ span, s =>
      (evaluate preferences unit s).andThen fun base s =>
        .ofExcept s (unitPowerValue base exponent span)
  | .unitProduct operator _ left right span, s =>
      (evaluate preferences left s).both (evaluate preferences right) fun x y s =>
        .ofExcept s (unitProductValue operator x y span)
  | .definition name _ constant value span, s =>
      (evaluate preferences value s).andThen fun v s => defineValue s name constant v span
  | .statement inner _, s =>
      (evaluate preferences inner s).andThen fun v s =>
        .success v { s with lastResult := some v }

end Nodes

/-- The outcome of a statement as it is handed out. -/
structure Evaluation (α : Type) where
  value : Option (Quantity α)
  span : Span
  diagnostics : List (Diagnostic α)

/-- Whether a statement has a value and nothing was reported. -/
def Evaluation.isSuccess (e : Evaluation α) : Bool := e.value.isSome && e.diagnostics.isEmpty

/-- Evaluates a statement in a scope. -/
def evaluateStatement [Scalar α] [Elementary α] (s : Scope α) (preferences : Preferences)
    (n : Node) : Evaluation α × Scope α :=
  let outcome := evaluate preferences n s
  (⟨outcome.value, n.span, outcome.reports⟩, outcome.scope)

end QuantityCalculus
