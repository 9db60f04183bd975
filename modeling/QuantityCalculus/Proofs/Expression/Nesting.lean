/-
Module: QuantityCalculus.Proofs.Expression.Nesting
Layer: Proofs
Purpose: Spans are nested as the nodes are.  Whatever functions a tree was built with, in whatever
  order of offsets, and however often it was rebuilt: the span of every node covers those of all
  nodes below it.
Imports: QuantityCalculus.Proofs.Expression.Built, QuantityCalculus.Proofs.Expression.Position
Trusted boundary: none
Main exports: Span.Covers, Node.Nested, Node.Nested.at?, Node.Nested.withChildren,
  Node.Nested.build, Node.Built.nested
Open obligations: none
-/
import QuantityCalculus.Proofs.Expression.Built
import QuantityCalculus.Proofs.Expression.Position

namespace QuantityCalculus

/-! ### Spans that cover others -/

/-- The first span covers the second one: it starts no later and stops no earlier. -/
structure Span.Covers (s t : Span) : Prop where
  start : s.start ≤ t.start
  stop : t.stop ≤ s.stop

namespace Span

theorem Covers.refl (s : Span) : s.Covers s := ⟨Nat.le_refl _, Nat.le_refl _⟩

theorem Covers.trans {s t u : Span} (outer : s.Covers t) (inner : t.Covers u) : s.Covers u :=
  ⟨Nat.le_trans outer.start inner.start, Nat.le_trans inner.stop outer.stop⟩

theorem extend_covers_left (s t : Span) : (s.extend t).Covers s :=
  ⟨Nat.min_le_left _ _, Nat.le_max_left _ _⟩

theorem extend_covers_right (s t : Span) : (s.extend t).Covers t :=
  ⟨Nat.min_le_right _ _, Nat.le_max_right _ _⟩

/-- What covers a span that does not stop before it starts does not do so either. -/
theorem Covers.ordered {s t : Span} (covers : s.Covers t) (inner : t.start ≤ t.stop) :
    s.start ≤ s.stop :=
  Nat.le_trans covers.start (Nat.le_trans inner covers.stop)

theorem ofText_ordered (offset : Nat) (text : String) :
    (ofText offset text).start ≤ (ofText offset text).stop := Nat.le_add_right _ _

end Span

namespace Node

/-! ### Nested trees -/

/-- A tree in which no span stops before it starts, and every span covers those of the children. -/
inductive Nested : Node → Prop where
  | node {n : Node} (ordered : n.span.start ≤ n.span.stop)
      (covers : ∀ c ∈ n.children, n.span.Covers c.span)
      (inner : ∀ c ∈ n.children, c.Nested) : n.Nested

namespace Nested

variable {n m c left right : Node}

theorem ordered (h : n.Nested) : n.span.start ≤ n.span.stop := by
  cases h with
  | node ordered covers inner => exact ordered

/-- A node without children only has to have a span of its own. -/
theorem leaf (childless : n.children = []) (ordered : n.span.start ≤ n.span.stop) : n.Nested :=
  .node ordered (by simp [childless]) (by simp [childless])

theorem one (only : n.children = [c]) (inner : c.Nested) (covers : n.span.Covers c.span) :
    n.Nested :=
  .node (covers.ordered inner.ordered) (by simpa [only] using covers) (by simpa [only] using inner)

theorem two (both : n.children = [left, right]) (first : left.Nested) (second : right.Nested)
    (coversLeft : n.span.Covers left.span) (coversRight : n.span.Covers right.span) : n.Nested :=
  .node (coversLeft.ordered first.ordered) (by simp [both, coversLeft, coversRight])
    (by simp [both, first, second])

/-- Every node in a nested tree is one itself, and lies within the tree. -/
theorem at? (h : n.Nested) {p : Position} (found : n.at? p = some m) :
    m.Nested ∧ n.span.Covers m.span := by
  induction p generalizing n with
  | nil =>
      cases found
      exact ⟨h, .refl _⟩
  | cons i p ih =>
      obtain ⟨ordered, covers, inner⟩ := h
      cases child : n.children[i]? with
      | none => simp [Node.at?, child] at found
      | some c =>
          have below : c.at? p = some m := by simpa [Node.at?, child] using found
          have mem := List.mem_of_getElem? child
          obtain ⟨nested, within⟩ := ih (inner c mem) below
          exact ⟨nested, (covers c mem).trans within⟩

/-! ### Operators -/

/-- What is joined by a token is covered, wherever the token stands. -/
theorem joined (both : n.children = [left, right]) (token : Token)
    (covering : n.span = (left.span.extend token.span).extend right.span) (first : left.Nested)
    (second : right.Nested) : n.Nested := by
  apply two both first second
  · rw [covering]
    exact (Span.extend_covers_left _ _).trans (Span.extend_covers_left _ _)
  · rw [covering]
    exact Span.extend_covers_right _ _

theorem applyBinary (first : left.Nested) (token : Token) (second : right.Nested) :
    (Node.applyBinary left token right).Nested :=
  joined rfl token rfl first second

theorem applyLeading (token : Token) (h : n.Nested) : (Node.applyLeading token n).Nested :=
  .one rfl h (Span.extend_covers_right _ _)

theorem applyTrailing (h : n.Nested) (token : Token) : (Node.applyTrailing n token).Nested :=
  .one rfl h (Span.extend_covers_left _ _)

/-- Units that a token joins are covered like the operands of any other token. -/
theorem joinUnits (first : left.Nested) {token : Token} (second : right.Nested)
    (joins : Node.joinUnits left token right = .ok n) : n.Nested := by
  rw [Node.joinUnits] at joins
  split at joins
  next operator _ =>
    cases joins
    exact joined rfl token rfl first second
  next => cases joins

theorem asStatement (h : n.Nested) : (Node.asStatement n).Nested := .one rfl h (.refl _)

/-! ### Rebuilding -/

/-- A rebuilt node covers its new children, whatever it covered before. -/
theorem withChildren {children : List Node} (h : n.Nested) (new : ∀ c ∈ children, c.Nested)
    (rebuilt : n.withChildren children = .ok m) : m.Nested := by
  unfold Node.withChildren at rebuilt
  -- The cases are those of the definition, the last one of which is an error.
  split at rebuilt <;> cases rebuilt
  case h_1 | h_3 | h_4 | h_5 => exact h
  case h_2 | h_7 | h_8 | h_11 =>
    exact one rfl (List.forall_mem_singleton.mp new) (Span.extend_covers_right _ _)
  case h_6 token _ _ _ left right =>
    exact applyBinary (new left (by simp)) token (new right (by simp))
  case h_9 => exact one rfl (List.forall_mem_singleton.mp new) (Span.extend_covers_left _ _)
  case h_10 token _ _ _ left right =>
    exact joined rfl token rfl (new left (by simp)) (new right (by simp))
  case h_12 => exact asStatement (List.forall_mem_singleton.mp new)

end Nested

/-! ### Trees as they are built -/

/-- A node covers the children that it is built of, whatever its form. -/
theorem Nested.build (form : Form) (children : List Node) {n : Node}
    (parts : ∀ c ∈ children, c.Nested)
    (built : form.build children = some n) : n.Nested := by
  unfold Form.build at built
  -- The cases are those of the definition, the last one of which builds nothing.
  split at built
  case h_11 token left right =>
    cases joined : Node.joinUnits left token right with
    | error e => simp [joined, Except.toOption] at built
    | ok unit =>
        obtain rfl : unit = n := by simpa [joined, Except.toOption] using built
        exact joinUnits (parts left (by simp)) (parts right (by simp)) joined
  all_goals cases built
  case h_1 text offset | h_3 text offset | h_4 text offset | h_5 text offset =>
    exact leaf rfl (Span.ofText_ordered offset text)
  -- Parentheses cover what is in them even if they stand elsewhere.
  case h_2 | h_9 | h_12 =>
    exact one rfl (List.forall_mem_singleton.mp parts) (Span.extend_covers_right _ _)
  case h_6 token left right =>
    exact applyBinary (parts left (by simp)) token (parts right (by simp))
  case h_7 token _ => exact applyLeading token (List.forall_mem_singleton.mp parts)
  case h_8 token _ => exact applyTrailing (List.forall_mem_singleton.mp parts) token
  case h_10 => exact one rfl (List.forall_mem_singleton.mp parts) (Span.extend_covers_left _ _)
  case h_13 => exact asStatement (List.forall_mem_singleton.mp parts)

/-- However a tree is built, it is nested. -/
theorem Built.nested {n : Node} (built : n.Built) : n.Nested :=
  built.of_kept Nested.build Nested.withChildren

end Node

end QuantityCalculus
