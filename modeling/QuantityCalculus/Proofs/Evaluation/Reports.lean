/-
Module: QuantityCalculus.Proofs.Evaluation.Reports
Layer: Proofs
Purpose: Nothing fails in silence.  With the standard operators, a node has a value exactly if
  nothing was reported below it.
Imports: QuantityCalculus.Proofs.Evaluation.SingleReport, QuantityCalculus.Proofs.Scope.Declaration
Trusted boundary: none
Main exports: Node.isParsed, Reported, Outcome.Settled, apply_reported, applyOperator_reported,
  evaluate_settled, evaluateStatement_value_iff_no_diagnostics
Open obligations: none
-/
import QuantityCalculus.Proofs.Evaluation.SingleReport
import QuantityCalculus.Proofs.Scope.Declaration

namespace QuantityCalculus

variable {α : Type}

/-- Whether a tree is free of text that could not be read. -/
def Node.isParsed : Node → Bool
  | number _ _ => true
  | measured _ _ unit _ => unit.isParsed
  | identifier _ _ => true
  | unitName _ _ => true
  | unparsed _ _ => false
  | binary _ _ left right _ => left.isParsed && right.isParsed
  | unary _ _ _ operand _ => operand.isParsed
  | parenthesis inner _ => inner.isParsed
  | unitPower unit _ _ _ _ => unit.isParsed
  | unitProduct _ _ left right _ => left.isParsed && right.isParsed
  | definition _ _ _ value _ => value.isParsed
  | statement inner _ => inner.isParsed

/-- A computation that either succeeds or has something to report. -/
def Reported {β : Type} (result : Except (List (Diagnostic α)) β) : Prop :=
  ∀ reports, result = .error reports → reports ≠ []

theorem reported_cons {β : Type} (d : Diagnostic α) (ds : List (Diagnostic α)) :
    Reported (.error (d :: ds) : Except (List (Diagnostic α)) β) := by
  intro reports h
  cases h
  exact List.cons_ne_nil d ds

theorem FailsOnce.reported {β : Type} {result : Except (List (Diagnostic α)) β}
    (h : FailsOnce result) : Reported result := by
  refine FailsWith.mono h ?_
  rintro reports one rfl
  cases one

/-! ### Operators -/

section Operators

variable [Scalar α]

def Signature.isBinary : Signature → Bool
  | .binary _ _ => true
  | .unary _ _ => false

/-- An operator whose rule for units is made for as many operands as its signature has. -/
def Operator.isComplete (op : Operator α) : Bool :=
  !op.units.needsRight || op.signature.isBinary

/-- An operator has a result or a report, if it is given all operands that it needs. -/
theorem Operator.apply_reported (op : Operator α) (env : Environment α) (operands : Operands α)
    (complete : op.units.needsRight = true → operands.right.isSome = true) :
    Reported (op.apply env operands) := by
  rw [Operator.apply]
  split
  next =>
    have once := UnitRule.calculate_failsOnce env operands op.units complete
    exact FailsOnce.reported (once.map _)
  next reports found =>
    intro others same
    cases same
    exact found

theorem standardOperators_complete [Elementary α] {op : Operator α} (hop : op ∈ standardOperators) :
    op.isComplete = true := by
  have all : (standardOperators : List (Operator α)).all Operator.isComplete = true := rfl
  exact List.all_eq_true.mp all op hop

/-- An operator that is found for some operands is made for that many. -/
theorem OperatorTable.resolve?_standard [Elementary α] {symbol : String} {fixity : Fixity}
    {operands : Operands α} {op : Operator α}
    (found : OperatorTable.standard.resolve? symbol (operands.signature fixity) = some op)
    (needsRight : op.units.needsRight = true) : operands.right.isSome = true := by
  have complete := standardOperators_complete (List.mem_of_find?_eq_some found)
  have matching := List.find?_some found
  rw [Operator.isComplete, needsRight, Bool.not_true, Bool.false_or] at complete
  have signature : op.signature = operands.signature fixity :=
    eq_of_beq (Bool.and_eq_true _ _ ▸ matching).2
  obtain ⟨left, right⟩ := operands
  cases right with
  | none =>
      rw [signature] at complete
      cases complete
  | some right => rfl

/-- A standard operator always has a result or a report. -/
theorem applyOperator_reported [Elementary α] {s : Scope α}
    (operators : s.operators = OperatorTable.standard) (preferences : Preferences) (symbol : String)
    (fixity : Fixity) (operands : Operands α) (span : Span) :
    Reported (applyOperator s preferences symbol fixity operands span) := by
  rw [applyOperator, operators]
  split
  next op found =>
    exact op.apply_reported _ operands (OperatorTable.resolve?_standard found)
  next => exact reported_cons _ _

end Operators

/-! ### Outcomes -/

section Outcomes

variable [Scalar α] [Elementary α]

/-- An outcome with a value exactly if nothing was reported, in a scope with the standard
operators. -/
structure Outcome.Settled (o : Outcome α) : Prop where
  value : o.value.isSome = true ↔ o.reports = []
  operators : o.scope.operators = OperatorTable.standard

variable {s : Scope α}

theorem Outcome.settled_success (operators : s.operators = OperatorTable.standard)
    (value : Quantity α) : (Outcome.success value s).Settled :=
  ⟨⟨fun _ => rfl, fun _ => rfl⟩, operators⟩

/-- A failure with a report is settled. -/
theorem Outcome.settled_failure (operators : s.operators = OperatorTable.standard)
    {reports : List (Diagnostic α)} (nonempty : reports ≠ []) :
    (Outcome.failure reports s).Settled := by
  refine ⟨⟨?_, ?_⟩, operators⟩
  · intro value
    cases value
  · intro none
    exact absurd none nonempty

theorem Outcome.settled_ofExcept (operators : s.operators = OperatorTable.standard)
    {result : Except (List (Diagnostic α)) (Quantity α)} (reported : Reported result) :
    (Outcome.ofExcept s result).Settled := by
  cases result with
  | ok value => exact Outcome.settled_success operators value
  | error reports => exact Outcome.settled_failure operators (reported reports rfl)

/-- What follows a settled outcome is settled, too. -/
theorem Outcome.settled_andThen {o : Outcome α} (first : o.Settled)
    {f : Quantity α → Scope α → Outcome α}
    (next : ∀ x s, s.operators = OperatorTable.standard → (f x s).Settled) :
    (o.andThen f).Settled := by
  rw [Outcome.andThen]
  split
  next => exact first
  next x valued =>
    have after := next x o.scope first.operators
    have silent : o.reports = [] := first.value.mp (by rw [valued]; rfl)
    refine ⟨?_, after.operators⟩
    dsimp only
    rw [silent, List.nil_append]
    exact after.value

/-- Two settled outcomes are followed by a settled one. -/
theorem Outcome.settled_both {o : Outcome α} (first : o.Settled) {second : Scope α → Outcome α}
    (later : ∀ s, s.operators = OperatorTable.standard → (second s).Settled)
    {f : Quantity α → Quantity α → Scope α → Outcome α}
    (next : ∀ x y s, s.operators = OperatorTable.standard → (f x y s).Settled) :
    (o.both second f).Settled := by
  have after := later o.scope first.operators
  rw [Outcome.both]
  dsimp only
  split
  next x y firstValued secondValued =>
    have last := next x y (second o.scope).scope after.operators
    have firstSilent : o.reports = [] := first.value.mp (by rw [firstValued]; rfl)
    have secondSilent : (second o.scope).reports = [] :=
      after.value.mp (by rw [secondValued]; rfl)
    refine ⟨?_, last.operators⟩
    dsimp only
    rw [firstSilent, secondSilent, List.nil_append, List.nil_append]
    exact last.value
  next missing =>
    refine ⟨⟨?_, ?_⟩, after.operators⟩
    · intro value
      cases value
    · intro silent
      obtain ⟨firstSilent, secondSilent⟩ := List.append_eq_nil_iff.mp silent
      obtain ⟨x, hx⟩ := Option.isSome_iff_exists.mp (first.value.mpr firstSilent)
      obtain ⟨y, hy⟩ := Option.isSome_iff_exists.mp (after.value.mpr secondSilent)
      exact absurd hy (missing x y hx)

/-- A definition has a value or a report. -/
theorem defineValue_settled (operators : s.operators = OperatorTable.standard) (name : String)
    (constant : Bool) (value : Quantity α) (span : Span) :
    (defineValue s name constant value span).Settled := by
  have outcomes : (∃ s', s.defineVariable name value constant = .ok s'
        ∧ s'.operators = OperatorTable.standard)
      ∨ s.defineVariable name value constant = .error (.readOnlyVariable name) := by
    rw [Scope.defineVariable]
    split
    next b found =>
      split
      next => exact .inr rfl
      next => exact .inl ⟨_, rfl, operators⟩
    next => exact .inl ⟨_, rfl, operators⟩
  rw [defineValue]
  rcases outcomes with ⟨s', defined, after⟩ | refused
  · rw [defined]
    exact Outcome.settled_success after value
  · rw [refused]
    exact Outcome.settled_failure operators (List.cons_ne_nil _ _)

/-- A tree without unread text has a value exactly if nothing is reported. -/
theorem evaluate_settled (preferences : Preferences) {n : Node} (parsed : n.isParsed = true)
    {s : Scope α} (operators : s.operators = OperatorTable.standard) :
    (evaluate preferences n s).Settled := by
  induction n generalizing s with
  | number literal span =>
      have once := literalValue_failsOnce (α := α) span literal
      exact Outcome.settled_ofExcept operators (FailsOnce.reported (once.map Quantity.plain))
  | measured literal literalSpan unit span ih =>
      rw [evaluate]
      split
      next reports failed =>
        have reported := (literalValue_failsOnce (α := α) span literal).reported
        exact Outcome.settled_failure operators (reported reports failed)
      next number =>
        apply Outcome.settled_andThen (ih parsed operators)
        intro u s operators
        exact Outcome.settled_success operators _
  | identifier name span =>
      exact Outcome.settled_ofExcept operators (identifierValue_failsOnce s name span).reported
  | unitName name span =>
      exact Outcome.settled_ofExcept operators (unitValue_failsOnce s name span).reported
  | unparsed text span => cases parsed
  | binary symbol token left right span ihLeft ihRight =>
      obtain ⟨parsedLeft, parsedRight⟩ := (Bool.and_eq_true _ _).mp parsed
      refine Outcome.settled_both (ihLeft parsedLeft operators)
        (fun s operators => ihRight parsedRight operators) ?_
      intro x y s operators
      exact Outcome.settled_ofExcept operators (applyOperator_reported operators _ _ _ _ _)
  | unary symbol fixity token operand span ih =>
      apply Outcome.settled_andThen (ih parsed operators)
      intro x s operators
      exact Outcome.settled_ofExcept operators (applyOperator_reported operators _ _ _ _ _)
  | parenthesis inner span ih => exact ih parsed operators
  | unitPower unit token exponent exponentSpan span ih =>
      apply Outcome.settled_andThen (ih parsed operators)
      intro base s operators
      have once := unitPowerValue_failsOnce base exponent span
      exact Outcome.settled_ofExcept operators once.reported
  | unitProduct operator token left right span ihLeft ihRight =>
      obtain ⟨parsedLeft, parsedRight⟩ := (Bool.and_eq_true _ _).mp parsed
      refine Outcome.settled_both (ihLeft parsedLeft operators)
        (fun s operators => ihRight parsedRight operators) ?_
      intro x y s operators
      have once := unitProductValue_failsOnce operator x y span
      exact Outcome.settled_ofExcept operators once.reported
  | definition name nameSpan constant value span ih =>
      apply Outcome.settled_andThen (ih parsed operators)
      intro v s operators
      exact defineValue_settled operators name constant v span
  | statement inner span ih =>
      apply Outcome.settled_andThen (ih parsed operators)
      intro v s operators
      exact ⟨⟨fun _ => rfl, fun _ => rfl⟩, operators⟩

/-- Whatever has been declared, a statement has a value if and only if it has no diagnostics. -/
theorem evaluateStatement_value_iff_no_diagnostics (declarations : List (Declaration α))
    (preferences : Preferences) {n : Node} (parsed : n.isParsed = true) :
    let evaluation :=
      (evaluateStatement (Scope.standard.declareAll declarations) preferences n).1
    evaluation.value.isSome = true ↔ evaluation.diagnostics = [] := by
  have operators : (Scope.standard.declareAll declarations).operators
      = (OperatorTable.standard : OperatorTable α) := Scope.declareAll_operators _ _
  exact (evaluate_settled preferences parsed operators).value

/-- The quotient of a variable and a unit. -/
def quotientExample : Node :=
  .binary "/" ⟨"/", ⟨2, 3⟩⟩ (.identifier "x" ⟨0, 1⟩) (.unitName "m" ⟨4, 5⟩) ⟨0, 5⟩

omit [Scalar α] [Elementary α] in
/-- The quotient has a value exactly if nothing is reported of it. -/
theorem quotientExample_value_iff_no_diagnostics :
    let declarations : List (Declaration Float) :=
      [.primitiveUnit "m" "Length" ⟨none, []⟩, .binding "x" (Quantity.plain 2) false]
    let evaluation := (evaluateStatement (Scope.standard.declareAll declarations)
      Preferences.standard quotientExample).1
    quotientExample.isParsed = true
      ∧ (evaluation.value.isSome = true ↔ evaluation.diagnostics = []) :=
  ⟨rfl, evaluateStatement_value_iff_no_diagnostics _ Preferences.standard rfl⟩

end Outcomes

end QuantityCalculus
