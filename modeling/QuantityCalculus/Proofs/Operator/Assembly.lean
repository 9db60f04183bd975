/-
Module: QuantityCalculus.Proofs.Operator.Assembly
Layer: Proofs
Purpose: Operators that are put together step by step.  Whichever check, rule for units and kernel
  they end up with, they have a value exactly if they report nothing, unless they apply a rule for
  two operands to a single one.
Imports: QuantityCalculus.Proofs.Evaluation.Reports
Trusted boundary: none
Main exports: Adjustment, Assembly, Assembly.operator, Assembly.exists_operator,
  Operator.apply_missing, assembled_value_iff_no_reports
Open obligations: none
-/
import QuantityCalculus.Proofs.Evaluation.Reports

namespace QuantityCalculus

variable {α : Type}

/-- A change to an operator while it is put together. -/
inductive Adjustment (α : Type) where
  | preflight (check : Preflight)
  | units (rule : UnitRule)
  | kernel (kernel : Kernel α)
  | returning (kind : ValueKind)
  | withoutSimplify

/-- Neither the symbol nor the signature of an operator can be changed. -/
def Operator.adjust (op : Operator α) : Adjustment α → Operator α
  | .preflight check => { op with preflight := check }
  | .units rule => { op with units := rule }
  | .kernel kernel => { op with kernel := kernel }
  | .returning kind => { op with returns := kind }
  | .withoutSimplify => { op with simplifies := false }

/-- How an operator is put together: it starts plain and is adjusted any number of times. -/
inductive Assembly (α : Type) where
  | binary (symbol : String) (left right : OperandKind) (function : α → α → α)
  | unary (symbol : String) (operand : OperandKind) (fixity : Fixity) (function : α → α)
  | adjusted (assembly : Assembly α) (adjustment : Adjustment α)

namespace Assembly

def operator : Assembly α → Operator α
  | binary symbol left right function => Operator.binary symbol left right function
  | unary symbol operand fixity function => Operator.unary symbol operand fixity function
  | adjusted assembly adjustment => assembly.operator.adjust adjustment

/-- Whether the assembly started with an operator on two operands. -/
def isBinary : Assembly α → Bool
  | binary _ _ _ _ => true
  | unary _ _ _ _ => false
  | adjusted assembly _ => assembly.isBinary

end Assembly

theorem Operator.signature_adjust (op : Operator α) (adjustment : Adjustment α) :
    (op.adjust adjustment).signature = op.signature := by
  cases adjustment <;> rfl

/-- No adjustment changes the number of operands. -/
theorem Assembly.isBinary_signature (assembly : Assembly α) :
    assembly.operator.signature.isBinary = assembly.isBinary := by
  induction assembly with
  | binary symbol left right function => rfl
  | unary symbol operand fixity function => rfl
  | adjusted assembly adjustment ih => simp [operator, isBinary, Operator.signature_adjust, ih]

/-- Every operator can be put together, so that what holds of assembled operators holds of all that
can be registered. -/
theorem Assembly.exists_operator (op : Operator α) : ∃ a : Assembly α, a.operator = op := by
  obtain ⟨symbol, signature, returns, preflight, units, kernel, simplifies⟩ := op
  obtain ⟨start, plain⟩ : ∃ start : Assembly α,
      start.operator.symbol = symbol ∧ start.operator.signature = signature
        ∧ start.operator.simplifies = true := by
    cases signature with
    | binary left right => exact ⟨binary symbol left right fun x _ => x, rfl, rfl, rfl⟩
    | unary operand fixity => exact ⟨unary symbol operand fixity id, rfl, rfl, rfl⟩
  let filled := (((start.adjusted (.preflight preflight)).adjusted (.units units)).adjusted
    (.kernel kernel)).adjusted (.returning returns)
  cases simplifies with
  | true => exact ⟨filled, by simp [filled, operator, Operator.adjust, plain]⟩
  | false =>
      exact ⟨filled.adjusted .withoutSimplify, by simp [filled, operator, Operator.adjust, plain]⟩

theorem Operands.isBinary_signature (operands : Operands α) (fixity : Fixity) :
    (operands.signature fixity).isBinary = operands.right.isSome := by
  obtain ⟨left, right⟩ := operands
  cases right <;> rfl

/-! ### Values and reports -/

/-- A reported result has a value exactly if nothing is reported. -/
theorem Reported.value_iff {result : Except (List (Diagnostic α)) (Quantity α)}
    (reported : Reported result) (s : Scope α) :
    (Outcome.ofExcept s result).value.isSome = true ↔ (Outcome.ofExcept s result).reports = [] := by
  cases result with
  | ok value => simp [Outcome.ofExcept, Outcome.success]
  | error reports => simp [Outcome.ofExcept, Outcome.failure, reported reports rfl]

section Application

variable [Scalar α]

/-- Without the operand that its rule for units needs, an operator reports what its check does and
nothing else. -/
theorem Operator.apply_missing (op : Operator α) (env : Environment α) {operands : Operands α}
    (needsRight : op.units.needsRight = true) (missing : operands.right = none) :
    op.apply env operands = .error (op.preflight.check env operands) := by
  rw [apply]
  split
  next accepted =>
    rw [UnitRule.calculate_missing env needsRight missing, accepted]
    rfl
  next => rfl

/-- Applied to operands that it is made for, an assembled operator has a value exactly if it reports
nothing.  The exception is a rule for two operands in an operator on one: it never has a value, but
reports no more than the check of the operator. -/
theorem assembled_value_iff_no_reports (assembly : Assembly α) (s : Scope α)
    (preferences : Preferences) {operands : Operands α} {fixity : Fixity}
    (matching : operands.signature fixity = assembly.operator.signature) :
    let op := assembly.operator
    let env := s.environment preferences
    let outcome := Outcome.ofExcept s (op.apply env operands)
    (assembly.isBinary = true ∨ op.units.needsRight = false →
        (outcome.value.isSome = true ↔ outcome.reports = []))
      ∧ (assembly.isBinary = false → op.units.needsRight = true →
        outcome.value = none ∧ outcome.reports = op.preflight.check env operands) := by
  intro op env outcome
  have count : assembly.isBinary = operands.right.isSome := by
    rw [← assembly.isBinary_signature, ← matching, operands.isBinary_signature]
  constructor
  · intro made
    apply Reported.value_iff
    apply op.apply_reported env operands
    intro needsRight
    rcases made with binary | independent
    · exact count ▸ binary
    · rw [independent] at needsRight
      cases needsRight
  · intro single needsRight
    have missing : operands.right = none := by
      rw [single] at count
      simpa using count.symm
    have applied := op.apply_missing env needsRight missing
    simp [outcome, applied, Outcome.ofExcept, Outcome.failure]

end Application

/-! ### A prefix operator on numbers -/

/-- Doubles a number, with some rule for units. -/
def doubling (rule : UnitRule) : Assembly Float :=
  .adjusted (.unary "dbl" .number .leading fun x => x + x) (.units rule)

/-- The number five, written after the operator. -/
def doubledFive : Operands Float := ⟨⟨⟨4, 5⟩, Quantity.plain 5⟩, none⟩

/-- With the rule for plain numbers, a prefix operator that doubles has a value or a report. -/
theorem doubling_value_iff_no_reports :
    let op := (doubling .scalarUnit).operator
    let env := Scope.standard.environment Preferences.standard
    let outcome := Outcome.ofExcept Scope.standard (op.apply env doubledFive)
    doubledFive.signature .leading = op.signature
      ∧ (outcome.value.isSome = true ↔ outcome.reports = []) := by
  have matching : doubledFive.signature .leading = (doubling .scalarUnit).operator.signature := rfl
  have contract := assembled_value_iff_no_reports (doubling .scalarUnit) Scope.standard
    Preferences.standard matching
  exact ⟨matching, contract.1 (.inr rfl)⟩

/-- With the rule for operands of matching units, the operator accepts its operand and then has
neither a value nor anything to report. -/
theorem doubling_matching_silent :
    let op := (doubling .matching).operator
    let env := Scope.standard.environment Preferences.standard
    let outcome := Outcome.ofExcept Scope.standard (op.apply env doubledFive)
    doubledFive.signature .leading = op.signature
      ∧ outcome.value = none ∧ outcome.reports = [] := by
  refine ⟨rfl, ?_, ?_⟩
  · rfl
  · rfl

end QuantityCalculus
