/-
Module: QuantityCalculus.Proofs.Operator.MismatchLabels
Layer: Proofs
Purpose: The labels of a dimension mismatch.  Each of them marks one operand and names the dimension
  of the other one.
Imports: Mathlib, QuantityCalculus.Operator.Preflight
Trusted boundary: none
Main exports: Preflight.compared?, Preflight.check_compared, labels_mismatch,
  mismatch_labels_crossed
Open obligations: none
-/
import Mathlib
import QuantityCalculus.Operator.Preflight

namespace QuantityCalculus

variable {α : Type} [Scalar α]

/-! ### Checks that compare two operands -/

/-- The operand that a check finds fault with when it compares the dimensions of two operands, and
the operand that this one should have matched. -/
def Preflight.compared? (left right : Operand α) : Preflight → Option (Operand α × Operand α)
  | .matchingUnits => some (right, left)
  | .sameDimension => some (left, right)
  | _ => none

/-- A check that compares dimensions reports nothing, or the one mismatch that it can find. -/
theorem Preflight.check_compared {check : Preflight} {left right offending other : Operand α}
    (compares : check.compared? left right = some (offending, other)) (env : Environment α) :
    check.check env ⟨left, some right⟩ = []
      ∨ check.check env ⟨left, some right⟩
          = [mismatch other.value.dimension offending (some other)] := by
  cases check with
  | matchingUnits =>
      cases compares
      rw [Preflight.check]
      exact ite_eq_or_eq _ _ _
  | sameDimension =>
      cases compares
      rw [Preflight.check]
      exact ite_eq_or_eq _ _ _
  | _ => cases compares

/-! ### Labels -/

/-- The label that marks an operand and names the dimension of the same operand. -/
def Label.ofOperand (style : LabelStyle) (file : Nat) (o : Operand α) : Label :=
  ⟨style, file, o.span, o.value.dimension.text⟩

variable [Written α]

/-- The offending operand is marked with what was expected of it, and the other one with what was
found instead. -/
theorem labels_mismatch (expected : Dimension) (offending other : Operand α) (file : Nat) :
    ((Preflight.mismatch expected offending (some other)).present file).labels
      = [⟨.primary, file, offending.span, expected.text⟩,
          ⟨.secondary, file, other.span, offending.value.dimension.text⟩] := rfl

/-- If two operands are rejected because of their dimensions, the primary label marks the offending
operand and names the dimension of the other one, and the secondary label the other way round.  They
name the dimensions of the operands that they mark only if both dimensions have the same text. -/
theorem mismatch_labels_crossed {check : Preflight} {left right offending other : Operand α}
    (compares : check.compared? left right = some (offending, other)) {env : Environment α}
    (rejected : check.check env ⟨left, some right⟩ ≠ []) (file : Nat) :
    ∃ d, check.check env ⟨left, some right⟩ = [d] ∧ d.error.code = "DIMENSION_MISMATCH"
      ∧ (d.present file).labels
          = [⟨.primary, file, offending.span, other.value.dimension.text⟩,
              ⟨.secondary, file, other.span, offending.value.dimension.text⟩]
      ∧ ((d.present file).labels
            = [Label.ofOperand .primary file offending, Label.ofOperand .secondary file other]
          ↔ offending.value.dimension.text = other.value.dimension.text) := by
  have reported := (Preflight.check_compared compares env).resolve_left rejected
  have labels := labels_mismatch other.value.dimension offending other file
  refine ⟨_, reported, rfl, labels, ?_⟩
  rw [labels]
  constructor
  · intro own
    have primary := (List.cons.inj own).1
    exact (congrArg Label.message primary).symm
  · intro same
    simp only [Label.ofOperand, same]

/-! ### Metres and seconds -/

section LengthAndTime

/-- An environment without any units. -/
def bareEnvironment : Environment Float := ⟨none, none, UnitRegistry.empty⟩

/-- One metre, at the beginning of the text. -/
def oneMetre : Operand Float :=
  ⟨⟨0, 3⟩, .of 1 (CompoundUnit.ofNamed (.primitive (.ofSymbol "m") "Length"))⟩

/-- One second, behind the metre. -/
def oneSecond : Operand Float :=
  ⟨⟨6, 9⟩, .of 1 (CompoundUnit.ofNamed (.primitive (.ofSymbol "s") "Time"))⟩

/-- A conversion of metres into seconds finds fault with the metres, which are called a time. -/
theorem conversion_labels_crossed :
    Preflight.compared? oneMetre oneSecond .sameDimension = some (oneMetre, oneSecond)
      ∧ Preflight.check bareEnvironment ⟨oneMetre, some oneSecond⟩ .sameDimension ≠ []
      ∧ ∃ d, Preflight.check bareEnvironment ⟨oneMetre, some oneSecond⟩ .sameDimension = [d]
          ∧ d.error.code = "DIMENSION_MISMATCH"
          ∧ (d.present 0).labels
              = [⟨.primary, 0, ⟨0, 3⟩, "Time"⟩, ⟨.secondary, 0, ⟨6, 9⟩, "Length"⟩] := by
  have rejected : Preflight.check bareEnvironment ⟨oneMetre, some oneSecond⟩ .sameDimension ≠ [] :=
    List.cons_ne_nil _ _
  obtain ⟨d, reported, code, labels, -⟩ := mismatch_labels_crossed
    (rfl : Preflight.compared? oneMetre oneSecond .sameDimension = some (oneMetre, oneSecond))
    rejected 0
  exact ⟨rfl, rejected, d, reported, code, labels⟩

/-- A sum of metres and seconds finds fault with the seconds.  The primary label marks them and
names a length. -/
theorem sum_labels_not_own :
    let d : Diagnostic Float :=
      Preflight.mismatch oneMetre.value.dimension oneSecond (some oneMetre)
    Preflight.check bareEnvironment ⟨oneMetre, some oneSecond⟩ .matchingUnits = [d]
      ∧ (d.present 0).labels
          = [⟨.primary, 0, oneSecond.span, "Length"⟩, ⟨.secondary, 0, oneMetre.span, "Time"⟩]
      ∧ oneMetre.value.dimension.text = "Length" ∧ oneSecond.value.dimension.text = "Time"
      ∧ (d.present 0).labels
          ≠ [Label.ofOperand .primary 0 oneSecond, Label.ofOperand .secondary 0 oneMetre] :=
  ⟨rfl, rfl, rfl, rfl, by decide⟩

end LengthAndTime

end QuantityCalculus
