/-
Module: QuantityCalculus.Proofs.Evaluation.Walk
Layer: Proofs
Purpose: The evaluation of a tree as one walk: the children of a node are evaluated one after
  another, and if all of them have values the node is handled with these.
Imports: QuantityCalculus.Evaluation.Evaluator
Trusted boundary: none
Main exports: Node.isReadable, Node.visited, Node.handle, Outcomes, evaluateAll, Outcomes.finish,
  evaluate_eq
Open obligations: none
-/
import QuantityCalculus.Evaluation.Evaluator

namespace QuantityCalculus

variable {α : Type}

/-! ### Values of children -/

namespace Outcome

/-- Goes on with the only value there is. -/
def withOne (s : Scope α) (values : List (Quantity α)) (f : Quantity α → Outcome α) : Outcome α :=
  match values with
  | [x] => f x
  | _ => .failure [] s

@[simp] theorem withOne_singleton (s : Scope α) (x : Quantity α) (f : Quantity α → Outcome α) :
    withOne s [x] f = f x := rfl

/-- Goes on with the only two values there are. -/
def withTwo (s : Scope α) (values : List (Quantity α))
    (f : Quantity α → Quantity α → Outcome α) : Outcome α :=
  match values with
  | [x, y] => f x y
  | _ => .failure [] s

@[simp] theorem withTwo_pair (s : Scope α) (x y : Quantity α)
    (f : Quantity α → Quantity α → Outcome α) : withTwo s [x, y] f = f x y := rfl

@[simp] theorem andThen_success (o : Outcome α) : o.andThen success = o := by
  obtain ⟨value, reports, scope⟩ := o
  cases value <;> simp [andThen, success]

end Outcome

/-! ### Single nodes -/

section Nodes

variable [Scalar α]

/-- Whether the literal in front of a unit can be read.  Otherwise the unit is not looked at. -/
def Node.isReadable (α : Type) [Scalar α] : Node → Bool
  | measured literal _ _ _ => (parseLiteral literal : Except LiteralError α).toBool
  | _ => true

/-- The children of a node that are evaluated. -/
def Node.visited (α : Type) [Scalar α] (n : Node) : List Node :=
  if n.isReadable α then n.children else []

theorem Node.visited_of_readable {n : Node} (readable : n.isReadable α = true) :
    n.visited α = n.children := by
  simp [visited, readable]

theorem Node.visited_of_unreadable {n : Node} (unreadable : n.isReadable α = false) :
    n.visited α = [] := by
  simp [visited, unreadable]

theorem Node.visited_subset (n : Node) : n.visited α ⊆ n.children := by
  rw [visited]
  split <;> simp

theorem Node.getElem?_visited {n child : Node} {i : Nat}
    (found : (n.visited α)[i]? = some child) : n.children[i]? = some child := by
  cases readable : n.isReadable α with
  | true => rwa [visited_of_readable readable] at found
  | false => simp [visited_of_unreadable readable] at found

/-- What a node does by itself in a scope, given the values of the children that were evaluated. -/
def Node.handle [Elementary α] (preferences : Preferences) (s : Scope α) (n : Node)
    (values : List (Quantity α)) : Outcome α :=
  match n with
  | number literal span => .ofExcept s ((literalValue span literal).map Quantity.plain)
  | measured literal _ _ span =>
      match literalValue span literal with
      | .error reports => .failure reports s
      | .ok x => .withOne s values fun u => .success (Quantity.of (x * u.number) u.unit) s
  | identifier name span => .ofExcept s (identifierValue s name span)
  | unitName name span => .ofExcept s (unitValue s name span)
  | unparsed _ _ => .failure [] s
  | binary symbol _ left right span =>
      .withTwo s values fun x y => .ofExcept s (applyOperator s preferences symbol .leading
        ⟨⟨left.span, x⟩, some ⟨right.span, y⟩⟩ span)
  | unary symbol fixity _ operand span =>
      .withOne s values fun x =>
        .ofExcept s (applyOperator s preferences symbol fixity ⟨⟨operand.span, x⟩, none⟩ span)
  | parenthesis _ _ => .withOne s values fun x => .success x s
  | unitPower _ _ exponent _ span =>
      .withOne s values fun base => .ofExcept s (unitPowerValue base exponent span)
  | unitProduct operator _ _ _ span =>
      .withTwo s values fun x y => .ofExcept s (unitProductValue operator x y span)
  | definition name _ constant _ span =>
      .withOne s values fun v => defineValue s name constant v span
  | statement _ _ => .withOne s values fun v => .success v { s with lastResult := some v }

end Nodes

/-! ### The walk -/

/-- What the evaluation of several nodes leads to: their values if all of them have one, what was
reported, and the scope afterwards. -/
structure Outcomes (α : Type) where
  values : Option (List (Quantity α))
  reports : List (Diagnostic α)
  scope : Scope α

/-- Goes on with the values of several nodes, if all of them have one. -/
def Outcomes.finish (o : Outcomes α) (f : Scope α → List (Quantity α) → Outcome α) : Outcome α :=
  match o.values with
  | none => ⟨none, o.reports, o.scope⟩
  | some values =>
      let next := f o.scope values
      ⟨next.value, o.reports ++ next.reports, next.scope⟩

section Walk

variable [Scalar α] [Elementary α]

/-- Evaluates nodes one after another, whether they have values or not. -/
def evaluateAll (preferences : Preferences) : List Node → Scope α → Outcomes α
  | [], s => ⟨some [], [], s⟩
  | n :: rest, s =>
      let first := evaluate preferences n s
      let others := evaluateAll preferences rest first.scope
      ⟨first.value.bind fun x => others.values.map (x :: ·), first.reports ++ others.reports,
        others.scope⟩

section Finish

variable (preferences : Preferences) (s : Scope α) (f : Scope α → List (Quantity α) → Outcome α)

@[simp] theorem finish_none : (evaluateAll preferences [] s).finish f = f s [] := by
  simp [evaluateAll, Outcomes.finish]

@[simp] theorem finish_one (n : Node) :
    (evaluateAll preferences [n] s).finish f
      = (evaluate preferences n s).andThen fun x s => f s [x] := by
  generalize ran : evaluate preferences n s = o
  obtain ⟨value, reports, after⟩ := o
  cases value <;> simp [evaluateAll, Outcomes.finish, Outcome.andThen, ran]

@[simp] theorem finish_two (left right : Node) :
    (evaluateAll preferences [left, right] s).finish f
      = (evaluate preferences left s).both (evaluate preferences right)
          fun x y s => f s [x, y] := by
  cases first : (evaluate preferences left s).value <;>
    cases second : (evaluate preferences right (evaluate preferences left s).scope).value <;>
    simp [evaluateAll, Outcomes.finish, Outcome.both, first, second]

end Finish

/-- To evaluate a node is to evaluate its children and then to handle it. -/
theorem evaluate_eq (preferences : Preferences) (n : Node) (s : Scope α) :
    evaluate preferences n s
      = (evaluateAll preferences (n.visited α) s).finish fun s => n.handle preferences s := by
  rw [Node.visited]
  cases n with
  | measured literal literalSpan unit span =>
      cases read : (parseLiteral literal : Except LiteralError α) with
      | error e => simp [evaluate, Node.isReadable, Except.toBool, Node.handle, literalValue, read]
      | ok x =>
          simp [evaluate, Node.isReadable, Except.toBool, Node.children, Node.handle, literalValue,
            read]
  | _ => simp [evaluate, Node.isReadable, Node.children, Node.handle]

end Walk

end QuantityCalculus
