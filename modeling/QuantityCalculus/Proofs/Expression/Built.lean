/-
Module: QuantityCalculus.Proofs.Expression.Built
Layer: Proofs
Purpose: The trees that the functions on nodes build: those for single nodes, those for runs, and
  the one that rebuilds a node with other children.  What is kept by the first and the last of these
  holds of all of them, since a run is folded into a tree node by node.
Imports: QuantityCalculus.Expression.Run
Trusted boundary: none
Main exports: foldLeft_of_kept, foldUnits_of_kept, Node.Form, Form.build, Node.Built, Built.of_kept
Open obligations: none
-/
import QuantityCalculus.Expression.Run

namespace QuantityCalculus

namespace Node

/-! ### Building a single node -/

/-- What a node is built of besides its children: the function that builds it, with the texts, the
tokens and the offsets that it is given. -/
inductive Form where
  | number (literal : String) (offset : Nat)
  | quantity (literal : String) (offset : Nat)
  | identifier (name : String) (offset : Nat)
  | unitName (name : String) (offset : Nat)
  | unparsed (text : String) (offset : Nat)
  | binary (token : Token)
  | leading (token : Token)
  | trailing (token : Token)
  | parenthesis (opening closing : Nat)
  | unitPower (token : Token) (exponent : String) (offset : Nat)
  | unitProduct (token : Token)
  | definition (name : String) (offset : Nat) (constant : Bool)
  | statement

namespace Form

/-- The node of a form with the given children, if these are as many as the form takes and no token
that should join units spells something else. -/
def build : Form → List Node → Option Node
  | number literal offset, [] => some (ofNumber literal offset)
  | quantity literal offset, [unit] => some (ofQuantity literal offset unit)
  | identifier name offset, [] => some (ofIdentifier name offset)
  | unitName name offset, [] => some (ofUnitName name offset)
  | unparsed text offset, [] => some (ofText text offset)
  | binary token, [left, right] => some (applyBinary left token right)
  | leading token, [operand] => some (applyLeading token operand)
  | trailing token, [operand] => some (applyTrailing operand token)
  | parenthesis opening closing, [inner] => some (enclose opening inner closing)
  | unitPower token exponent offset, [unit] => some (raiseUnit unit token exponent offset)
  | unitProduct token, [left, right] => (joinUnits left token right).toOption
  | definition name offset constant, [value] => some (define name offset constant value)
  | statement, [inner] => some (asStatement inner)
  | _, _ => none

end Form

/-! ### Folded runs

What holds of all operands of a run, and is kept by its operators, holds of the tree that the run is
folded into. -/

section Folds

variable {P : Node → Prop} {head operand n : Node} {tail : Run}

/-- A run that groups to the left is joined from its head on. -/
theorem foldLeft_of_kept
    (kept : ∀ {left right : Node} (token : Token), P left → P right →
      P (applyBinary left token right))
    (first : P head) (others : ∀ step ∈ tail, P step.2) : P (foldLeft head tail) := by
  induction tail generalizing head with
  | nil => exact first
  | cons step rest ih =>
      obtain ⟨next, later⟩ := List.forall_mem_cons.mp others
      exact ih (kept step.1 first next) later

/-- A run that groups to the right is joined from its end on. -/
theorem foldRight_of_kept
    (kept : ∀ {left right : Node} (token : Token), P left → P right →
      P (applyBinary left token right))
    (first : P head) (others : ∀ step ∈ tail, P step.2) : P (foldRight head tail) := by
  induction tail generalizing head with
  | nil => exact first
  | cons step rest ih =>
      obtain ⟨next, later⟩ := List.forall_mem_cons.mp others
      rw [foldRight_cons]
      exact kept step.1 first (ih next later)

theorem foldLeading_of_kept
    (kept : ∀ {operand : Node} (token : Token), P operand → P (applyLeading token operand))
    (tokens : List Token) (inner : P operand) : P (foldLeading tokens operand) := by
  induction tokens with
  | nil => exact inner
  | cons token rest ih => exact kept token ih

theorem foldTrailing_of_kept
    (kept : ∀ {operand : Node} (token : Token), P operand → P (applyTrailing operand token))
    (inner : P operand) (tokens : List Token) : P (foldTrailing operand tokens) := by
  induction tokens generalizing operand with
  | nil => exact inner
  | cons token rest ih => exact ih (kept token inner)

/-- A run of units is joined from its head on, as long as its operators spell something. -/
theorem foldUnits_of_kept
    (kept : ∀ {left right n : Node} {token : Token}, P left → P right →
      joinUnits left token right = .ok n → P n)
    (first : P head) (others : ∀ step ∈ tail, P step.2) (folds : foldUnits head tail = .ok n) :
    P n := by
  induction tail generalizing head with
  | nil =>
      cases folds
      exact first
  | cons step rest ih =>
      obtain ⟨next, later⟩ := List.forall_mem_cons.mp others
      rw [foldUnits, List.foldlM_cons] at folds
      cases joined : joinUnits head step.1 step.2 with
      | error e => simp [joined, bind, Except.bind] at folds
      | ok grown =>
          simp only [joined, bind, Except.bind] at folds
          exact ih (kept first next joined) later folds

end Folds

/-! ### Trees as they are built -/

/-- The trees that the functions on nodes build, of any texts, tokens and offsets, wherever
parentheses open and close. -/
inductive Built : Node → Prop where
  | build (form : Form) (children : List Node) {n : Node} (parts : ∀ c ∈ children, c.Built)
      (built : form.build children = some n) : n.Built
  | foldLeft {head : Node} {tail : Run} (first : head.Built)
      (others : ∀ step ∈ tail, step.2.Built) : (Node.foldLeft head tail).Built
  | foldRight {head : Node} {tail : Run} (first : head.Built)
      (others : ∀ step ∈ tail, step.2.Built) : (Node.foldRight head tail).Built
  | foldLeading (tokens : List Token) {operand : Node} (inner : operand.Built) :
      (Node.foldLeading tokens operand).Built
  | foldTrailing {operand : Node} (inner : operand.Built) (tokens : List Token) :
      (Node.foldTrailing operand tokens).Built
  | foldUnits {head n : Node} {tail : Run} (first : head.Built)
      (others : ∀ step ∈ tail, step.2.Built) (folds : Node.foldUnits head tail = .ok n) :
      n.Built
  | withChildren {n m : Node} {children : List Node} (old : n.Built)
      (new : ∀ c ∈ children, c.Built) (rebuilt : n.withChildren children = .ok m) : m.Built

/-- Whatever holds of a node if it holds of the children that it is built of, or rebuilt with, holds
of all trees that are built. -/
theorem Built.of_kept {P : Node → Prop}
    (build : ∀ (form : Form) (children : List Node) {n : Node}, (∀ c ∈ children, P c) →
      form.build children = some n → P n)
    (rebuild : ∀ {n m : Node} {children : List Node}, P n → (∀ c ∈ children, P c) →
      n.withChildren children = .ok m → P m)
    {n : Node} (built : n.Built) : P n := by
  have joins {left right : Node} (token : Token) (first : P left) (second : P right) :
      P (applyBinary left token right) :=
    build (.binary token) [left, right] (by simp [first, second]) rfl
  have joinsUnits {left right n : Node} {token : Token} (first : P left) (second : P right)
      (joined : joinUnits left token right = .ok n) : P n :=
    build (.unitProduct token) [left, right] (by simp [first, second])
      (by rw [Form.build, joined]; rfl)
  have leads {operand : Node} (token : Token) (inner : P operand) :
      P (applyLeading token operand) :=
    build (.leading token) [operand] (by simp [inner]) rfl
  have trails {operand : Node} (token : Token) (inner : P operand) :
      P (applyTrailing operand token) :=
    build (.trailing token) [operand] (by simp [inner]) rfl
  induction built with
  | build form children _ built ih => exact build form children ih built
  | foldLeft _ _ ih ihOthers => exact foldLeft_of_kept joins ih ihOthers
  | foldRight _ _ ih ihOthers => exact foldRight_of_kept joins ih ihOthers
  | foldLeading tokens _ ih => exact foldLeading_of_kept leads tokens ih
  | foldTrailing _ tokens ih => exact foldTrailing_of_kept trails ih tokens
  | foldUnits _ _ folds ih ihOthers => exact foldUnits_of_kept joinsUnits ih ihOthers folds
  | withChildren _ _ rebuilt ih ihNew => exact rebuild ih ihNew rebuilt

end Node

end QuantityCalculus
