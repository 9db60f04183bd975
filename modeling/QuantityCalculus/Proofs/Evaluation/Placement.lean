/-
Module: QuantityCalculus.Proofs.Evaluation.Placement
Layer: Proofs
Purpose: Where errors are reported.  Whatever holds of the spans of a node and of its children holds
  of the spans that the handling of the node reports, so all reports on a tree mark nodes of the
  tree and lie within it.
Imports: QuantityCalculus.Proofs.Expression.Nesting, QuantityCalculus.Proofs.Evaluation.Cascade
Trusted boundary: none
Main exports: Diagnostic.Marks, Marked, Operands.Placed, Preflight.check_marked,
  Operator.apply_marked, handle_marked, reports_marked, diagnostics_inside_statement
Open obligations: none
-/
import QuantityCalculus.Proofs.Expression.Nesting
import QuantityCalculus.Proofs.Evaluation.Cascade

namespace QuantityCalculus

variable {α : Type} {P : Span → Prop}

/-! ### The spans of reports -/

/-- A diagnostic marks spans of some kind: its primary span is one, and so is its secondary span if
it has one. -/
def Diagnostic.Marks (P : Span → Prop) (d : Diagnostic α) : Prop :=
  P d.primary ∧ ∀ span ∈ d.secondary, P span

/-- Reports all of which mark spans of some kind. -/
def Marked (P : Span → Prop) (reports : List (Diagnostic α)) : Prop := ∀ d ∈ reports, d.Marks P

@[simp] theorem marked_nil : Marked P ([] : List (Diagnostic α)) := by
  simp [Marked]

@[simp] theorem marked_singleton {d : Diagnostic α} : Marked P [d] ↔ d.Marks P := by
  simp [Marked]

theorem marked_ite {c : Prop} [Decidable c] {first second : List (Diagnostic α)}
    (yes : Marked P first) (no : Marked P second) : Marked P (if c then first else second) := by
  split
  · exact yes
  · exact no

@[simp] theorem marked_reportAt {span : Span} {e : EvaluationError α} :
    Marked P (reportAt span e) ↔ P span := by
  simp [reportAt, Diagnostic.Marks]

/-- A computation whose reports, if it fails, mark spans of some kind. -/
abbrev FailsMarked {β : Type} (P : Span → Prop) (result : Except (List (Diagnostic α)) β) : Prop :=
  FailsWith (Marked P) result

/-! ### Operators -/

/-- Operands whose nodes have spans of some kind. -/
structure Operands.Placed (P : Span → Prop) (operands : Operands α) : Prop where
  left : P operands.left.span
  right : ∀ o ∈ operands.right, P o.span

theorem Operands.Placed.toList {operands : Operands α} (placed : operands.Placed P) :
    ∀ o ∈ operands.toList, P o.span := by
  intro o mem
  rcases List.mem_cons.mp mem with rfl | second
  · exact placed.left
  · exact placed.right o (by simpa using second)

section Operators

variable [Scalar α]

namespace Preflight

@[simp] theorem mismatch_marks {expected : Dimension} {offending : Operand α}
    {other : Option (Operand α)} :
    (mismatch expected offending other).Marks P ↔ P offending.span ∧ ∀ o ∈ other, P o.span := by
  simp [mismatch, Diagnostic.Marks]

theorem requireDimensionless_marked {operands : List (Operand α)}
    (placed : ∀ o ∈ operands, P o.span) : Marked P (requireDimensionless operands) := by
  intro d mem
  obtain ⟨o, kept, rfl⟩ := List.mem_map.mp mem
  simpa using placed o (List.mem_filter.mp kept).1

/-- A check marks operands only. -/
theorem check_marked (env : Environment α) {operands : Operands α} (placed : operands.Placed P)
    (p : Preflight) : Marked P (p.check env operands) := by
  obtain ⟨left, right⟩ := operands
  have first : P left.span := placed.left
  have second : ∀ o ∈ right, P o.span := placed.right
  induction p with
  | noCheck => exact marked_nil
  | noUnits => exact requireDimensionless_marked placed.toList
  | percentAware =>
      apply requireDimensionless_marked
      intro o kept
      exact placed.toList o (List.mem_filter.mp kept).1
  | nonZeroDivisor inner ih =>
      rw [check]
      split
      next =>
        cases right with
        | none => exact marked_nil
        | some divisor => exact marked_ite (by simpa [Diagnostic.Marks] using second) marked_nil
      next => exact ih
  | angleOperand =>
      rw [check]
      apply marked_ite marked_nil
      split
      next => exact marked_ite marked_nil (by simp [first])
      next => simp [first]
  | matchingUnits | sameDimension | dimensionlessExponent =>
      cases right with
      | none => exact marked_nil
      | some right =>
          have there : P right.span := second right rfl
          exact marked_ite marked_nil (by simp [first, there])

end Preflight

namespace UnitRule

omit [Scalar α] in
@[simp] theorem failure_marked {e : UnitError α} {primary : Operand α}
    {secondary : Option (Operand α)} :
    Marked P (failure e primary secondary) ↔ P primary.span ∧ ∀ o ∈ secondary, P o.span := by
  simp [failure, Diagnostic.Marks]

section Rules

variable {left right : Operand α}

/-- An operand that does not match is marked itself. -/
theorem matchOperands_marked (second : P right.span) :
    FailsMarked P (matchOperands left right) := by
  rw [matchOperands]
  split
  next => exact failsWith_ok _
  next => exact failsWith_ok _
  next => exact failsWith_ok _
  next => split <;> simp [second]

theorem multiplyOperands_marked (first : P left.span) (second : P right.span) :
    FailsMarked P (multiplyOperands left right) := by
  rw [multiplyOperands]
  split <;> simp [first, second]

theorem divideOperands_marked (first : P left.span) (second : P right.span) :
    FailsMarked P (divideOperands left right) := by
  rw [divideOperands]
  split <;> simp [first, second]

theorem raiseOperand_marked (first : P left.span) (second : P right.span) :
    FailsMarked P (raiseOperand left right) := by
  rw [raiseOperand]
  split
  next => exact failsWith_ok _
  next => split <;> simp [first, second]

theorem rootOperand_marked (first : P left.span) : FailsMarked P (rootOperand left) := by
  rw [rootOperand]
  split
  next => exact failsWith_ok _
  next => split <;> simp [first]

end Rules

/-- A rule for units marks operands only. -/
theorem calculate_marked (env : Environment α) {operands : Operands α} (placed : operands.Placed P)
    (rule : UnitRule) : FailsMarked P (rule.calculate env operands) := by
  obtain ⟨left, right⟩ := operands
  have first : P left.span := placed.left
  cases right with
  | none =>
      cases rule with
      | rootUnit => exact rootOperand_marked first
      | fromRadians =>
          rw [calculate]
          dsimp only
          split <;> simp
      | sameUnit | scalarUnit | toRadians => exact failsWith_ok _
      | _ => exact failsWith_error.mpr marked_nil
  | some right =>
      have second : P right.span := placed.right right rfl
      cases rule with
      | matching => exact matchOperands_marked second
      | matchingScalar => exact (matchOperands_marked second).map _
      | productUnit => exact multiplyOperands_marked first second
      | quotientUnit => exact divideOperands_marked first second
      | powerUnit => exact raiseOperand_marked first second
      | rootUnit => exact rootOperand_marked first
      | sameUnit | scalarUnit | percentOf | toRadians => exact failsWith_ok _
      | fromRadians =>
          rw [calculate]
          dsimp only
          split <;> simp
      | conversion =>
          rw [calculate]
          dsimp only
          split <;> simp [first, second]

end UnitRule

/-- An operator marks operands only. -/
theorem Operator.apply_marked (op : Operator α) (env : Environment α) {operands : Operands α}
    (placed : operands.Placed P) : FailsMarked P (op.apply env operands) := by
  rw [apply]
  split
  next => exact (op.units.calculate_marked env placed).map _
  next => exact failsWith_error.mpr (Preflight.check_marked env placed op.preflight)

/-- An operator that is not known is marked where it is applied. -/
theorem applyOperator_marked (s : Scope α) (preferences : Preferences) (symbol : String)
    (fixity : Fixity) {operands : Operands α} (placed : operands.Placed P) {span : Span}
    (here : P span) : FailsMarked P (applyOperator s preferences symbol fixity operands span) := by
  rw [applyOperator]
  split
  next op _ => exact op.apply_marked _ placed
  next => simp [here]

end Operators

/-! ### Leaves and units -/

section Values

variable [Scalar α] {span : Span}

theorem literalValue_marked (here : P span) (literal : String) :
    FailsMarked P (literalValue span literal : Except (List (Diagnostic α)) α) := by
  rw [literalValue]
  split <;> simp [here]

/-- An unknown name is marked where it stands. -/
theorem identifierValue_marked (s : Scope α) (name : String) (here : P span) :
    FailsMarked P (identifierValue s name span) := by
  rw [identifierValue]
  split
  next => exact failsWith_ok _
  next =>
    split
    next => exact failsWith_ok _
    next => split <;> simp [here]

theorem unitValue_marked (s : Scope α) (name : String) (here : P span) :
    FailsMarked P (unitValue s name span) := by
  rw [unitValue]
  split <;> simp [here]

/-- A power that cannot be formed is marked at its exponent. -/
theorem unitPowerValue_marked [Elementary α] (base : Quantity α) (exponent : String)
    (here : P span) : FailsMarked P (unitPowerValue base exponent span) := by
  rw [unitPowerValue]
  split
  next reports failed =>
    exact failsWith_error.mpr (literalValue_marked here exponent reports failed)
  next => split <;> simp [here]

theorem unitProductValue_marked (operator : UnitOperator) (left right : Quantity α)
    (here : P span) : FailsMarked P (unitProductValue operator left right span) := by
  unfold unitProductValue
  dsimp only
  split <;> simp [here]

end Values

/-! ### Nodes -/

namespace Outcome

theorem marked_ofExcept {result : Except (List (Diagnostic α)) (Quantity α)}
    (marked : FailsMarked P result) (s : Scope α) : Marked P (ofExcept s result).reports := by
  cases result with
  | ok x => exact marked_nil
  | error reports => exact failsWith_error.mp marked

theorem marked_withOne {f : Quantity α → Outcome α} (next : ∀ x, Marked P (f x).reports)
    (s : Scope α) (values : List (Quantity α)) : Marked P (withOne s values f).reports := by
  unfold withOne
  split
  next x => exact next x
  next => exact marked_nil

/-- What two values lead to is marked as their continuation marks it. -/
theorem marked_withTwo {f : Quantity α → Quantity α → Outcome α}
    (next : ∀ x y, Marked P (f x y).reports) (s : Scope α) (values : List (Quantity α)) :
    Marked P (withTwo s values f).reports := by
  unfold withTwo
  split
  next x y => exact next x y
  next => exact marked_nil

end Outcome

/-- A name that must not be defined is marked where its definition stands. -/
theorem defineValue_marked (s : Scope α) (name : String) (constant : Bool) (value : Quantity α)
    {span : Span} (here : P span) : Marked P (defineValue s name constant value span).reports := by
  rw [defineValue]
  split
  next => exact marked_nil
  next => exact marked_reportAt.mpr here
  next => exact marked_nil

variable [Scalar α] [Elementary α]

/-- The handling of a node marks the node itself and its children only. -/
theorem handle_marked (preferences : Preferences) (s : Scope α) {n : Node}
    (values : List (Quantity α)) (here : P n.span) (below : ∀ c ∈ n.children, P c.span) :
    Marked P (n.handle preferences s values).reports := by
  cases n with
  | number literal span =>
      exact Outcome.marked_ofExcept ((literalValue_marked here literal).map Quantity.plain) s
  | measured literal literalSpan unit span =>
      rw [Node.handle]
      split
      next reports failed => exact literalValue_marked here literal reports failed
      next => exact Outcome.marked_withOne (fun _ => marked_nil) s values
  | identifier name span => exact Outcome.marked_ofExcept (identifierValue_marked s name here) s
  | unitName name span => exact Outcome.marked_ofExcept (unitValue_marked s name here) s
  | unparsed text span => exact marked_nil
  | binary symbol token left right span =>
      have first : P left.span := below left (by simp [Node.children])
      have second : P right.span := below right (by simp [Node.children])
      apply Outcome.marked_withTwo
      intro x y
      have placed : Operands.Placed P ⟨⟨left.span, x⟩, some ⟨right.span, y⟩⟩ :=
        ⟨first, by simpa using second⟩
      exact Outcome.marked_ofExcept (applyOperator_marked s preferences symbol _ placed here) s
  | unary symbol fixity token operand span =>
      have first : P operand.span := below operand (by simp [Node.children])
      apply Outcome.marked_withOne
      intro x
      have placed : Operands.Placed P ⟨⟨operand.span, x⟩, none⟩ := ⟨first, by simp⟩
      exact Outcome.marked_ofExcept (applyOperator_marked s preferences symbol _ placed here) s
  | parenthesis inner span => exact Outcome.marked_withOne (fun _ => marked_nil) s values
  | unitPower unit token exponent exponentSpan span =>
      apply Outcome.marked_withOne
      intro base
      exact Outcome.marked_ofExcept (unitPowerValue_marked base exponent here) s
  | unitProduct operator token left right span =>
      apply Outcome.marked_withTwo
      intro x y
      exact Outcome.marked_ofExcept (unitProductValue_marked operator x y here) s
  | definition name nameSpan constant value span =>
      exact Outcome.marked_withOne (fun v => defineValue_marked s name constant v here) s values
  | statement inner span => exact Outcome.marked_withOne (fun _ => marked_nil) s values

/-- The reports on a tree mark nodes of the tree only. -/
theorem reports_marked (preferences : Preferences) {n : Node} (s : Scope α)
    (every : ∀ p m, n.at? p = some m → P m.span) : Marked P (evaluate preferences n s).reports := by
  intro d reported
  rw [reports_eq_flatMap] at reported
  obtain ⟨p, -, made⟩ := List.mem_flatMap.mp reported
  rcases reportsAt_cases preferences n s p with silent | ⟨m, s', values, found, handled⟩
  · simp [silent] at made
  · rw [handled] at made
    refine handle_marked preferences s' values (every p m found) ?_ d made
    intro c child
    obtain ⟨i, at_i⟩ := List.mem_iff_getElem?.mp child
    exact every (p ++ [i]) c (by simp [Node.at?_append, found, Node.at?, at_i])

/-- In a tree that was built by the functions on nodes, no span stops before it starts, and each
covers those of all nodes below.  Whatever is reported of the tree marks spans of its nodes, and
these lie within the span of the evaluation. -/
theorem diagnostics_inside_statement {n : Node} (built : n.Built) (s : Scope α)
    (preferences : Preferences) :
    (∀ p m, n.at? p = some m → m.span.start ≤ m.span.stop
        ∧ ∀ q below, m.at? q = some below → m.span.Covers below.span)
      ∧ let evaluation := (evaluateStatement s preferences n).1
        ∀ d ∈ evaluation.diagnostics, d.Marks fun span =>
          (∃ p m, n.at? p = some m ∧ m.span = span) ∧ evaluation.span.Covers span := by
  refine ⟨?_, ?_⟩
  · intro p m found
    obtain ⟨nested, -⟩ := built.nested.at? found
    refine ⟨nested.ordered, ?_⟩
    intro q below deeper
    exact (nested.at? deeper).2
  · apply reports_marked preferences s
    intro p m found
    exact ⟨⟨p, m, found, rfl⟩, (built.nested.at? found).2⟩

/-! ### A difference in parentheses -/

section Parentheses

/-- The product `(1 - foo) * 2`. -/
def doubledDifference : Node :=
  .foldLeft
    (.enclose 0
      (.applyBinary (.ofNumber "1" 1) (Token.ofText "-" 3) (.ofIdentifier "foo" 5)) 8)
    [(Token.ofText "*" 10, .ofNumber "2" 12)]

/-- The name is reported to be unknown where it stands in the product. -/
theorem unknown_name_inside_product :
    let evaluation := (evaluateStatement (Scope.standard : Scope Float) Preferences.standard
      doubledDifference).1
    doubledDifference.Built
      ∧ evaluation.span = ⟨0, 13⟩
      ∧ evaluation.diagnostics = [⟨.unknownVariable "foo" none, ⟨5, 8⟩, none⟩]
      ∧ (∃ p m, doubledDifference.at? p = some m ∧ m.span = ⟨5, 8⟩)
      ∧ evaluation.span.Covers ⟨5, 8⟩ := by
  intro evaluation
  have one : (Node.ofNumber "1" 1).Built := .build (.number "1" 1) [] nofun rfl
  have two : (Node.ofNumber "2" 12).Built := .build (.number "2" 12) [] nofun rfl
  have foo : (Node.ofIdentifier "foo" 5).Built := .build (.identifier "foo" 5) [] nofun rfl
  have difference : Node.Built
      (.applyBinary (.ofNumber "1" 1) (Token.ofText "-" 3) (.ofIdentifier "foo" 5)) :=
    .build (.binary _) [_, _] (by simp [one, foo]) rfl
  have enclosed : Node.Built
      (.enclose 0
        (.applyBinary (.ofNumber "1" 1) (Token.ofText "-" 3) (.ofIdentifier "foo" 5)) 8) :=
    .build (.parenthesis 0 8) [_] (List.forall_mem_singleton.mpr difference) rfl
  have built : doubledDifference.Built := .foldLeft enclosed (List.forall_mem_singleton.mpr two)
  have reported : evaluation.diagnostics = [⟨.unknownVariable "foo" none, ⟨5, 8⟩, none⟩] := rfl
  obtain ⟨-, inside⟩ := diagnostics_inside_statement built (Scope.standard : Scope Float)
    Preferences.standard
  obtain ⟨⟨node, within⟩, -⟩ := inside _ (reported ▸ List.mem_singleton_self _)
  exact ⟨built, rfl, reported, node, within⟩

end Parentheses

end QuantityCalculus
