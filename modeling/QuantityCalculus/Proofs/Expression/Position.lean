/-
Module: QuantityCalculus.Proofs.Expression.Position
Layer: Proofs
Purpose: The places of the nodes in a tree, and the order in which a walk from left to right is done
  with them: what is below a node comes before it.
Imports: Mathlib.Data.List.Pairwise, QuantityCalculus.Expression.Node
Trusted boundary: none
Main exports: Node.inductionOnChildren, Position, Position.Above, Position.Before, Node.at?,
  Node.postOrder, mem_postOrder_iff, pairwise_postOrder
Open obligations: none
-/
import Mathlib.Data.List.Pairwise
import QuantityCalculus.Expression.Node

namespace QuantityCalculus

/-- What holds of a node whenever it holds of its children holds of every node. -/
theorem Node.inductionOnChildren {motive : Node → Prop}
    (node : ∀ n, (∀ c ∈ n.children, motive c) → motive n) (n : Node) : motive n := by
  induction n <;> exact node _ (by simp [children, *])

/-- The place of a node in a tree: the children to go to, one after another, from the root on. -/
abbrev Position := List Nat

namespace Position

/-- A position is strictly above another one if the way to the other one goes on from it. -/
def Above (p q : Position) : Prop := ∃ i rest, q = p ++ i :: rest

/-- What comes first from left to right if nodes come after all that is below them. -/
inductive Before : Position → Position → Prop where
  | under (i : Nat) (p : Position) : Before (i :: p) []
  | left {i j : Nat} (smaller : i < j) (p q : Position) : Before (i :: p) (j :: q)
  | inside (i : Nat) {p q : Position} (inner : Before p q) : Before (i :: p) (i :: q)

/-- No position comes before itself. -/
theorem Before.ne {p q : Position} (h : Before p q) : p ≠ q := by
  induction h with
  | under i p => simp
  | left smaller p q =>
      intro same
      exact absurd (List.cons.inj same).1 (Nat.ne_of_lt smaller)
  | inside i inner ih =>
      intro same
      exact ih (List.cons.inj same).2

/-- The positions below several nodes that are children of one node, numbered from `i` on, given
those in each of them. -/
def among : Nat → List (List Position) → List Position
  | _, [] => []
  | i, inner :: rest => inner.map (i :: ·) ++ among (i + 1) rest

/-- The positions below some children are those below each, with the place of that child in
front. -/
theorem mem_among_iff {i : Nat} {inner : List (List Position)} {p : Position} :
    p ∈ among i inner ↔ ∃ j ps q, inner[j]? = some ps ∧ q ∈ ps ∧ p = (i + j) :: q := by
  induction inner generalizing i with
  | nil => simp [among]
  | cons ps rest ih =>
      rw [among, List.mem_append, ih]
      constructor
      · rintro (first | ⟨j, qs, q, found, inside, rfl⟩)
        · obtain ⟨q, inside, rfl⟩ := List.mem_map.mp first
          exact ⟨0, ps, q, rfl, inside, rfl⟩
        · exact ⟨j + 1, qs, q, found, inside, by simp [Nat.add_assoc, Nat.add_comm 1]⟩
      · rintro ⟨j, qs, q, found, inside, rfl⟩
        cases j with
        | zero =>
            cases found
            exact .inl (List.mem_map.mpr ⟨q, inside, rfl⟩)
        | succ j => exact .inr ⟨j, qs, q, found, inside, by simp [Nat.add_assoc, Nat.add_comm 1]⟩

/-- A position below a child is one of those that begin with its place. -/
theorem cons_mem_among_iff {inner : List (List Position)} {i : Nat} {p : Position} :
    i :: p ∈ among 0 inner ↔ ∃ ps, inner[i]? = some ps ∧ p ∈ ps := by
  rw [mem_among_iff]
  constructor
  · rintro ⟨j, ps, q, found, inside, same⟩
    obtain ⟨rfl, rfl⟩ := List.cons.inj same
    exact ⟨ps, by simpa using found, inside⟩
  · rintro ⟨ps, found, inside⟩
    exact ⟨i, ps, p, found, inside, by simp⟩

/-- Ordered below each child, positions are ordered below all of them. -/
theorem pairwise_among {i : Nat} {inner : List (List Position)}
    (ordered : ∀ ps ∈ inner, ps.Pairwise Before) : (among i inner).Pairwise Before := by
  induction inner generalizing i with
  | nil => exact .nil
  | cons ps rest ih =>
      obtain ⟨first, others⟩ := List.forall_mem_cons.mp ordered
      rw [among, List.pairwise_append, List.pairwise_map]
      refine ⟨first.imp (.inside i), ih others, ?_⟩
      intro p hp q hq
      obtain ⟨p, -, rfl⟩ := List.mem_map.mp hp
      obtain ⟨j, -, q, -, -, rfl⟩ := mem_among_iff.mp hq
      exact .left (by omega) p q

end Position

namespace Node

/-- The node at a position of a tree. -/
def at? (n : Node) : Position → Option Node
  | [] => some n
  | i :: p =>
      match n.children[i]? with
      | some child => child.at? p
      | none => none

/-- To go to a position in a part of a tree is to go on from the position of the part. -/
theorem at?_append (n : Node) (p q : Position) : n.at? (p ++ q) = (n.at? p).bind (·.at? q) := by
  induction p generalizing n with
  | nil => rfl
  | cons i p ih =>
      rw [List.cons_append, at?, at?]
      cases n.children[i]? with
      | none => rfl
      | some child => exact ih child

/-- The positions of a tree, from left to right, each after those below it. -/
def postOrder : Node → List Position
  | number _ _ => [[]]
  | measured _ _ unit _ => Position.among 0 [unit.postOrder] ++ [[]]
  | identifier _ _ => [[]]
  | unitName _ _ => [[]]
  | unparsed _ _ => [[]]
  | binary _ _ left right _ => Position.among 0 [left.postOrder, right.postOrder] ++ [[]]
  | unary _ _ _ operand _ => Position.among 0 [operand.postOrder] ++ [[]]
  | parenthesis inner _ => Position.among 0 [inner.postOrder] ++ [[]]
  | unitPower unit _ _ _ _ => Position.among 0 [unit.postOrder] ++ [[]]
  | unitProduct _ _ left right _ => Position.among 0 [left.postOrder, right.postOrder] ++ [[]]
  | definition _ _ _ value _ => Position.among 0 [value.postOrder] ++ [[]]
  | statement inner _ => Position.among 0 [inner.postOrder] ++ [[]]

theorem postOrder_eq (n : Node) :
    n.postOrder = Position.among 0 (n.children.map postOrder) ++ [[]] := by
  cases n <;> rfl

/-- Every node of a tree has its place in the order. -/
theorem mem_postOrder_iff {n : Node} {p : Position} : p ∈ n.postOrder ↔ ∃ m, n.at? p = some m := by
  induction n using inductionOnChildren generalizing p with
  | node n ih =>
      rw [postOrder_eq, List.mem_append, List.mem_singleton]
      cases p with
      | nil => simp [at?]
      | cons i p =>
          rw [Position.cons_mem_among_iff, List.getElem?_map]
          cases child : n.children[i]? with
          | none => simp [at?, child]
          | some c => simp [at?, child, ih c (List.mem_of_getElem? child)]

/-- Every position comes after those to its left and those below it. -/
theorem pairwise_postOrder (n : Node) : n.postOrder.Pairwise Position.Before := by
  induction n using inductionOnChildren with
  | node n ih =>
      rw [postOrder_eq, List.pairwise_append]
      refine ⟨Position.pairwise_among ?_, List.pairwise_singleton _ _, ?_⟩
      · simpa using ih
      · intro p hp q hq
        obtain ⟨j, -, r, -, -, rfl⟩ := Position.mem_among_iff.mp hp
        rw [List.mem_singleton.mp hq]
        exact .under _ r

theorem nodup_postOrder (n : Node) : n.postOrder.Nodup :=
  n.pairwise_postOrder.imp Position.Before.ne

end Node

end QuantityCalculus
