/-
Module: QuantityCalculus.Proofs.Evaluation.Layout
Layer: Proofs
Purpose: Layout does not matter.  The content of a tree is what is left of it without parentheses,
  spans and the spellings of operators.  To evaluate the content of a tree is to evaluate the tree
  and then to forget the places of what was reported, so trees of the same content have the same
  value, leave the same scope behind and lead to the same errors.
Imports: QuantityCalculus.Evaluation.Evaluator
Trusted boundary: none
Main exports: Node.content, Diagnostic.unplaced, Outcome.unplaced, check_unplaced,
  calculate_unplaced, evaluate_content, layout_does_not_matter
Open obligations: none
-/
import QuantityCalculus.Evaluation.Evaluator

namespace QuantityCalculus

variable {α : Type}

/-! ### What is left without a layout -/

/-- The span of what has no place. -/
def Span.nowhere : Span := ⟨0, 0⟩

/-- An operator of which neither the spelling nor the place is known. -/
def Token.unplaced : Token := ⟨"", .nowhere⟩

/-- A tree without its layout: there are no parentheses, no places, no spellings of operators, and
no text that could not be read. -/
def Node.content : Node → Node
  | number literal _ => number literal .nowhere
  | measured literal _ unit _ => measured literal .nowhere unit.content .nowhere
  | identifier name _ => identifier name .nowhere
  | unitName name _ => unitName name .nowhere
  | unparsed _ _ => unparsed "" .nowhere
  | binary symbol _ left right _ => binary symbol .unplaced left.content right.content .nowhere
  | unary symbol fixity _ operand _ => unary symbol fixity .unplaced operand.content .nowhere
  | parenthesis inner _ => inner.content
  | unitPower unit _ exponent _ _ =>
      unitPower unit.content .unplaced exponent .nowhere .nowhere
  | unitProduct operator _ left right _ =>
      unitProduct operator .unplaced left.content right.content .nowhere
  | definition name _ constant value _ =>
      definition name .nowhere constant value.content .nowhere
  | statement inner _ => statement inner.content .nowhere

@[simp] theorem Node.span_content (n : Node) : n.content.span = .nowhere := by
  induction n with
  | parenthesis inner span ih => exact ih
  | _ => rfl

/-- A diagnostic without its places: the error, and whether a second node is involved. -/
def Diagnostic.unplaced (d : Diagnostic α) : Diagnostic α :=
  ⟨d.error, .nowhere, d.secondary.map fun _ => .nowhere⟩

/-- A computation whose reports lose their places. -/
def unplacedResult {β : Type} (result : Except (List (Diagnostic α)) β) :
    Except (List (Diagnostic α)) β :=
  result.mapError (List.map Diagnostic.unplaced)

section Results

variable {β γ : Type}

@[simp] theorem unplacedResult_ok (x : β) :
    unplacedResult (.ok x : Except (List (Diagnostic α)) β) = .ok x := rfl

@[simp] theorem unplacedResult_error (reports : List (Diagnostic α)) :
    unplacedResult (.error reports : Except (List (Diagnostic α)) β)
      = .error (reports.map Diagnostic.unplaced) := rfl

theorem unplacedResult_map (result : Except (List (Diagnostic α)) β) (f : β → γ) :
    unplacedResult (result.map f) = (unplacedResult result).map f := by
  cases result <;> rfl

@[simp] theorem map_unplaced_reportAt (span : Span) (e : EvaluationError α) :
    (reportAt span e).map Diagnostic.unplaced = reportAt .nowhere e := rfl

end Results

/-- A value whose node is not known. -/
def Operand.unplaced (o : Operand α) : Operand α := ⟨.nowhere, o.value⟩

def Operands.unplaced (o : Operands α) : Operands α :=
  ⟨o.left.unplaced, o.right.map Operand.unplaced⟩

@[simp] theorem Operand.value_unplaced (o : Operand α) : o.unplaced.value = o.value := rfl

@[simp] theorem Operands.toList_unplaced (o : Operands α) :
    o.unplaced.toList = o.toList.map Operand.unplaced := by
  obtain ⟨left, right⟩ := o
  cases right <;> rfl

@[simp] theorem Operands.signature_unplaced (o : Operands α) (fixity : Fixity) :
    o.unplaced.signature fixity = o.signature fixity := by
  obtain ⟨left, right⟩ := o
  cases right <;> rfl

/-! ### Operators -/

section Operators

variable [Scalar α]

namespace Preflight

@[simp] theorem unplaced_mismatch (expected : Dimension) (offending : Operand α)
    (other : Option (Operand α)) :
    (mismatch expected offending other).unplaced
      = mismatch expected offending.unplaced (other.map Operand.unplaced) := by
  cases other <;> rfl

theorem requireDimensionless_unplaced (operands : List (Operand α)) :
    requireDimensionless (operands.map Operand.unplaced)
      = (requireDimensionless operands).map Diagnostic.unplaced := by
  simp [requireDimensionless, List.filter_map, Function.comp_def]

/-- A check looks at the values of the operands only. -/
theorem check_unplaced (env : Environment α) (operands : Operands α) (p : Preflight) :
    p.check env operands.unplaced = (p.check env operands).map Diagnostic.unplaced := by
  induction p with
  | noCheck => rfl
  | noUnits =>
      simp only [check, Operands.toList_unplaced]
      exact requireDimensionless_unplaced _
  | percentAware =>
      simp only [check, Operands.toList_unplaced, List.filter_map]
      exact requireDimensionless_unplaced _
  | nonZeroDivisor inner ih =>
      obtain ⟨left, right⟩ := operands
      simp only [check, ih]
      cases (inner.check env ⟨left, right⟩) with
      | cons d rest => rfl
      | nil =>
          cases right with
          | none => rfl
          | some divisor =>
              by_cases zero : divisor.value.isZero = true
              · simp [Operands.unplaced, zero, Diagnostic.unplaced, Operand.unplaced]
              · simp [Operands.unplaced, zero]
  | angleOperand =>
      by_cases plain : operands.left.value.isDimensionless = true
      · simp [check, Operands.unplaced, plain]
      · cases known : env.angleDimension with
        | none => simp [check, Operands.unplaced, plain, known]
        | some angle =>
            by_cases same : angle.agrees operands.left.value.dimension = true <;>
              simp [check, Operands.unplaced, plain, known, same]
  | matchingUnits | sameDimension =>
      obtain ⟨left, right⟩ := operands
      cases right with
      | none => rfl
      | some right =>
          by_cases same : left.value.dimension.agrees right.value.dimension = true <;>
            simp [check, Operands.unplaced, same, apply_ite (List.map Diagnostic.unplaced)]
  | dimensionlessExponent =>
      obtain ⟨left, right⟩ := operands
      cases right with
      | none => rfl
      | some right =>
          by_cases plain : right.value.isDimensionless = true <;>
            simp [check, Operands.unplaced, plain]

end Preflight

namespace UnitRule

omit [Scalar α] in
@[simp] theorem unplaced_failure (e : UnitError α) (primary : Operand α)
    (secondary : Option (Operand α)) :
    (failure e primary secondary).map Diagnostic.unplaced
      = failure e primary.unplaced (secondary.map Operand.unplaced) := by
  cases secondary <;> rfl

theorem matchOperands_unplaced (left right : Operand α) :
    matchOperands left.unplaced right.unplaced = unplacedResult (matchOperands left right) := by
  simp only [matchOperands, Operand.value_unplaced]
  cases left.value.isDimensionless <;> cases right.value.isDimensionless <;>
    cases right.value.convertTo left.value.unit <;> simp

theorem multiplyOperands_unplaced (left right : Operand α) :
    multiplyOperands left.unplaced right.unplaced
      = unplacedResult (multiplyOperands left right) := by
  simp only [multiplyOperands, Operand.value_unplaced]
  cases left.value.unit.productWith right.value.unit <;> simp

/-- Where the operands stand makes no difference to a quotient. -/
theorem divideOperands_unplaced (left right : Operand α) :
    divideOperands left.unplaced right.unplaced = unplacedResult (divideOperands left right) := by
  by_cases reciprocal : (left.value.isDimensionless && !right.value.isDimensionless
      && !right.value.unit.isReciprocal) = true
  · simp only [divideOperands, Operand.value_unplaced, reciprocal, if_true]
    cases CompoundUnit.scalar.quotientBy right.value.unit <;> simp
  · simp only [divideOperands, Operand.value_unplaced, reciprocal]
    cases quotient : left.value.unit.quotientBy right.value.unit <;> simp [quotient]

theorem raiseOperand_unplaced (base exponent : Operand α) :
    raiseOperand base.unplaced exponent.unplaced = unplacedResult (raiseOperand base exponent) := by
  by_cases plain : base.value.isDimensionless = true
  · simp [raiseOperand, plain]
  · simp only [raiseOperand, Operand.value_unplaced, plain]
    cases base.value.unit.scalarPower exponent.value.scalarValue <;> simp

theorem rootOperand_unplaced (operand : Operand α) :
    rootOperand operand.unplaced = unplacedResult (rootOperand operand) := by
  by_cases plain : operand.value.isDimensionless = true
  · simp [rootOperand, plain]
  · simp only [rootOperand, Operand.value_unplaced, plain]
    cases operand.value.unit.scalarPower (Scalar.ofDecimal 5 (-1)) <;> simp

/-- A rule for units looks at the values of the operands only. -/
theorem calculate_unplaced (env : Environment α) (operands : Operands α) (rule : UnitRule) :
    rule.calculate env operands.unplaced = unplacedResult (rule.calculate env operands) := by
  obtain ⟨left, right⟩ := operands
  cases right with
  | none =>
      cases rule with
      | rootUnit => exact rootOperand_unplaced left
      | fromRadians => cases angle : env.angleUnit <;> simp [calculate, Operands.unplaced, angle]
      | _ => rfl
  | some right =>
      cases rule with
      | matching => exact matchOperands_unplaced left right
      | matchingScalar =>
          simp [calculate, Operands.unplaced, matchOperands_unplaced, unplacedResult_map]
      | productUnit => exact multiplyOperands_unplaced left right
      | quotientUnit => exact divideOperands_unplaced left right
      | powerUnit => exact raiseOperand_unplaced left right
      | rootUnit => exact rootOperand_unplaced left
      | fromRadians => cases angle : env.angleUnit <;> simp [calculate, Operands.unplaced, angle]
      | conversion =>
          cases converted : left.value.convertTo right.value.unit <;>
            simp [calculate, Operands.unplaced, converted]
      | _ => rfl

end UnitRule

/-- An operator looks at the values of its operands only. -/
theorem Operator.apply_unplaced (op : Operator α) (env : Environment α) (operands : Operands α) :
    op.apply env operands.unplaced = unplacedResult (op.apply env operands) := by
  simp only [apply, Preflight.check_unplaced, UnitRule.calculate_unplaced]
  cases op.preflight.check env operands with
  | nil => exact (unplacedResult_map _ _).symm
  | cons d rest => rfl

/-- Where the operands and the operator stand makes no difference to the result. -/
theorem applyOperator_unplaced (s : Scope α) (preferences : Preferences) (symbol : String)
    (fixity : Fixity) (operands : Operands α) (span : Span) :
    applyOperator s preferences symbol fixity operands.unplaced .nowhere
      = unplacedResult (applyOperator s preferences symbol fixity operands span) := by
  simp only [applyOperator, Operands.signature_unplaced]
  split
  next op _ => exact op.apply_unplaced _ operands
  next => simp

end Operators

/-! ### Leaves and units -/

section Values

variable [Scalar α]

theorem literalValue_unplaced (span : Span) (literal : String) :
    (literalValue .nowhere literal : Except (List (Diagnostic α)) α)
      = unplacedResult (literalValue span literal) := by
  simp only [literalValue]
  split <;> simp

/-- Where a name stands makes no difference to its value. -/
theorem identifierValue_unplaced (s : Scope α) (name : String) (span : Span) :
    identifierValue s name .nowhere = unplacedResult (identifierValue s name span) := by
  simp only [identifierValue]
  split
  next => rfl
  next =>
    split
    next => rfl
    next => split <;> simp

theorem unitValue_unplaced (s : Scope α) (name : String) (span : Span) :
    unitValue s name .nowhere = unplacedResult (unitValue s name span) := by
  simp only [unitValue]
  split <;> simp

/-- Where an exponent stands makes no difference to the power. -/
theorem unitPowerValue_unplaced [Elementary α] (base : Quantity α) (exponent : String)
    (span : Span) :
    unitPowerValue base exponent .nowhere = unplacedResult (unitPowerValue base exponent span) := by
  simp only [unitPowerValue, literalValue_unplaced span exponent]
  cases (literalValue span exponent : Except (List (Diagnostic α)) α) with
  | error reports => rfl
  | ok e =>
      simp only [unplacedResult_ok]
      split <;> simp

/-- Where the operator between two units stands makes no difference. -/
theorem unitProductValue_unplaced (operator : UnitOperator) (left right : Quantity α)
    (span : Span) :
    unitProductValue operator left right .nowhere
      = unplacedResult (unitProductValue operator left right span) := by
  unfold unitProductValue
  dsimp only
  split <;> simp

end Values

/-! ### Trees -/

/-- An outcome without the places of what was reported. -/
def Outcome.unplaced (o : Outcome α) : Outcome α :=
  ⟨o.value, o.reports.map Diagnostic.unplaced, o.scope⟩

namespace Outcome

@[simp] theorem unplaced_success (x : Quantity α) (s : Scope α) :
    (success x s).unplaced = success x s := rfl

@[simp] theorem unplaced_failure (reports : List (Diagnostic α)) (s : Scope α) :
    (failure reports s).unplaced = failure (reports.map Diagnostic.unplaced) s := rfl

theorem unplaced_ofExcept (s : Scope α) (result : Except (List (Diagnostic α)) (Quantity α)) :
    (ofExcept s result).unplaced = ofExcept s (unplacedResult result) := by
  cases result <;> rfl

theorem unplaced_andThen (o : Outcome α) (f : Quantity α → Scope α → Outcome α) :
    (o.andThen f).unplaced = o.unplaced.andThen fun x s => (f x s).unplaced := by
  obtain ⟨value, reports, scope⟩ := o
  cases value <;> simp [andThen, unplaced]

theorem unplaced_both (first : Outcome α) (second : Scope α → Outcome α)
    (f : Quantity α → Quantity α → Scope α → Outcome α) :
    (first.both second f).unplaced
      = first.unplaced.both (fun s => (second s).unplaced) fun x y s => (f x y s).unplaced := by
  obtain ⟨value, reports, scope⟩ := first
  cases value <;> cases other : (second scope).value <;> simp [both, unplaced, other]

end Outcome

theorem defineValue_unplaced (s : Scope α) (name : String) (constant : Bool) (value : Quantity α)
    (span : Span) :
    defineValue s name constant value .nowhere
      = (defineValue s name constant value span).unplaced := by
  simp only [defineValue]
  split <;> simp

variable [Scalar α] [Elementary α]

/-- To evaluate the content of a tree is to evaluate the tree and to forget the places of what was
reported. -/
theorem evaluate_content (preferences : Preferences) (n : Node) (s : Scope α) :
    evaluate preferences n.content s = (evaluate preferences n s).unplaced := by
  induction n generalizing s with
  | number literal span =>
      simp only [Node.content, evaluate, literalValue_unplaced span, Outcome.unplaced_ofExcept,
        unplacedResult_map]
  | measured literal literalSpan unit span ih =>
      simp only [Node.content, evaluate, literalValue_unplaced span]
      cases (literalValue span literal : Except (List (Diagnostic α)) α) with
      | error reports => rfl
      | ok x => simp [ih, Outcome.unplaced_andThen]
  | identifier name span =>
      simp only [Node.content, evaluate, identifierValue_unplaced s name span,
        Outcome.unplaced_ofExcept]
  | unitName name span =>
      simp only [Node.content, evaluate, unitValue_unplaced s name span, Outcome.unplaced_ofExcept]
  | unparsed text span => rfl
  | binary symbol token left right span ihLeft ihRight =>
      have second := funext ihRight
      simp only [Node.content, evaluate, ihLeft, second, Node.span_content, Outcome.unplaced_both,
        Outcome.unplaced_ofExcept, ← applyOperator_unplaced]
      rfl
  | unary symbol fixity token operand span ih =>
      simp only [Node.content, evaluate, ih, Node.span_content, Outcome.unplaced_andThen,
        Outcome.unplaced_ofExcept, ← applyOperator_unplaced]
      rfl
  | parenthesis inner span ih => exact ih s
  | unitPower unit token exponent exponentSpan span ih =>
      simp only [Node.content, evaluate, ih, Outcome.unplaced_andThen, Outcome.unplaced_ofExcept,
        unitPowerValue_unplaced _ exponent span]
  | unitProduct operator token left right span ihLeft ihRight =>
      have second := funext ihRight
      simp only [Node.content, evaluate, ihLeft, second, Outcome.unplaced_both,
        Outcome.unplaced_ofExcept, unitProductValue_unplaced operator _ _ span]
  | definition name nameSpan constant value span ih =>
      simp only [Node.content, evaluate, ih, Outcome.unplaced_andThen,
        defineValue_unplaced _ name constant _ span]
  | statement inner span ih =>
      simp only [Node.content, evaluate, ih, Outcome.unplaced_andThen, Outcome.unplaced_success]

/-- Trees that differ only in their layout have the same value and leave the same scope behind, and
what is reported of them differs only in the places. -/
theorem layout_does_not_matter {m n : Node} (same : m.content = n.content) (s : Scope α)
    (preferences : Preferences) :
    let first := evaluateStatement s preferences m
    let second := evaluateStatement s preferences n
    first.1.value = second.1.value ∧ first.2 = second.2
      ∧ first.1.diagnostics.map Diagnostic.unplaced
        = second.1.diagnostics.map Diagnostic.unplaced := by
  have outcomes : (evaluate preferences m s).unplaced = (evaluate preferences n s).unplaced := by
    rw [← evaluate_content, same, evaluate_content]
  obtain ⟨value, reports, scope⟩ := Outcome.mk.inj outcomes
  exact ⟨value, scope, reports⟩

/-! ### A sum in two layouts -/

section Sums

/-- The sum `foo + 1`. -/
def plainSum : Node := .applyBinary (.ofIdentifier "foo" 0) (.ofText "+" 4) (.ofNumber "1" 6)

/-- The same sum, written as `( (foo) + 1 )`. -/
def spacedSum : Node :=
  .enclose 0 (.applyBinary (.enclose 2 (.ofIdentifier "foo" 3) 6) (.ofText " + " 7)
    (.ofNumber "1" 10)) 12

/-- In both layouts the same name is reported to be unknown, each time where it stands. -/
theorem spaced_sum_same_error :
    let first := evaluateStatement (Scope.standard : Scope Float) Preferences.standard plainSum
    let second := evaluateStatement (Scope.standard : Scope Float) Preferences.standard spacedSum
    plainSum.content = spacedSum.content
      ∧ first.1.diagnostics = [⟨.unknownVariable "foo" none, ⟨0, 3⟩, none⟩]
      ∧ second.1.diagnostics = [⟨.unknownVariable "foo" none, ⟨3, 6⟩, none⟩]
      ∧ first.1.value = second.1.value ∧ first.2 = second.2
      ∧ first.1.diagnostics.map Diagnostic.unplaced
        = second.1.diagnostics.map Diagnostic.unplaced := by
  have same : plainSum.content = spacedSum.content := by decide +kernel
  exact ⟨same, rfl, rfl, layout_does_not_matter same _ _⟩

end Sums

end QuantityCalculus
