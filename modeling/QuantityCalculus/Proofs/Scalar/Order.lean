/-
Module: QuantityCalculus.Proofs.Scalar.Order
Layer: Proofs
Purpose: Numbers whose comparison is a strict order that does not tell equal numbers apart.  It need
  not be total: an undefined number is neither below nor above any number.
Imports: Mathlib, QuantityCalculus.Scalar.Double, QuantityCalculus.Scalar.Exact
Trusted boundary: none
Main exports: StrictlyOrdered, Binary64.place, Binary64.compare_eq_lt_iff, Binary64.lt_iff_place
Open obligations: none
-/
import Mathlib
import QuantityCalculus.Scalar.Double
import QuantityCalculus.Scalar.Exact

namespace QuantityCalculus

/-- Numbers that are ordered strictly, and equal ones alike. -/
class StrictlyOrdered (α : Type) [Scalar α] : Prop where
  lt_irrefl (x : α) : ¬x < x
  lt_trans {x y z : α} : x < y → y < z → x < z
  lt_of_beq {x y z : α} : (x == y) = true → y < z → x < z

namespace Binary64

open Float.Model

/-- The place of a number in the order, by its sign, then by its exponent, then by its mantissa.
Both zeros have the same place, and an undefined number has none. -/
def place : UnpackedFloat → Option (Int ×ₗ Int ×ₗ Int)
  | .notANumber => none
  | .infinity .negative => some (toLex (-2, toLex (0, 0)))
  | .finite .negative m e _ => some (toLex (-1, toLex (-e, -(m : Int))))
  | .zero _ => some (toLex (0, toLex (0, 0)))
  | .finite .positive m e _ => some (toLex (1, toLex (e, (m : Int))))
  | .infinity .positive => some (toLex (2, toLex (0, 0)))

/-- A number is below another one if both have a place and that of the first is the lower one. -/
theorem compare_eq_lt_iff (a b : UnpackedFloat) :
    a.compare b = some .lt ↔ ∃ x ∈ place a, ∃ y ∈ place b, x < y := by
  have signs : compare UnpackedFloat.Sign.negative UnpackedFloat.Sign.positive = .lt := rfl
  have below (e e' : Int) (m m' : Nat) :
      (compare e e').then (compare m m') = .lt ↔ e < e' ∨ e = e' ∧ m < m' := by
    simp [Ordering.then_eq_lt, compare_lt_iff_lt]
  have above (e e' : Int) (m m' : Nat) :
      (compare e e').then (compare m m') = .gt ↔ e' < e ∨ e = e' ∧ m' < m := by
    simp [Ordering.then_eq_gt, compare_gt_iff_gt]
  cases a with
  | notANumber => simp [UnpackedFloat.compare, place]
  | infinity s =>
      cases s <;> rcases b with (_ | _) | _ | _ | ⟨_ | _, m, e, pos⟩ <;>
        simp [UnpackedFloat.compare, place, Prod.Lex.toLex_lt_toLex, signs]
  | zero s =>
      rcases b with (_ | _) | _ | _ | ⟨_ | _, m, e, pos⟩ <;>
        simp [UnpackedFloat.compare, place, Prod.Lex.toLex_lt_toLex]
  | finite s m e pos =>
      cases s <;> rcases b with (_ | _) | _ | _ | ⟨_ | _, m', e', pos'⟩ <;>
        simp [UnpackedFloat.compare, place, Prod.Lex.toLex_lt_toLex, below, above]

/-- Numbers are compared by their places on the number line. -/
theorem lt_iff_place (x y : Float) :
    x < y ↔ ∃ a ∈ place x.toModel.unpack, ∃ b ∈ place y.toModel.unpack, a < b := by
  rw [← compare_eq_lt_iff]
  change Float.lt x y = true ↔ _
  unfold Float.lt
  rw [decide_eq_true_iff]
  exact beq_iff_eq

/-- Numbers that are equal have the same place. -/
theorem place_eq_of_beq {x y : Float} (same : (x == y) = true) :
    place x.toModel.unpack = place y.toModel.unpack := by
  obtain ⟨-, -, rfl | ⟨rfl, rfl⟩ | ⟨rfl, rfl⟩⟩ := Float.beq_iff_ne_nan_and_eq.mp same
  · rfl
  · rfl
  · rfl

end Binary64

instance : StrictlyOrdered Float where
  lt_irrefl x less := by
    obtain ⟨a, ha, b, hb, less⟩ := (Binary64.lt_iff_place x x).mp less
    obtain rfl := Option.mem_unique ha hb
    exact lt_irrefl a less
  lt_trans {x y z} first second := by
    obtain ⟨a, ha, b, hb, less⟩ := (Binary64.lt_iff_place x y).mp first
    obtain ⟨b', hb', c, hc, more⟩ := (Binary64.lt_iff_place y z).mp second
    obtain rfl := Option.mem_unique hb hb'
    exact (Binary64.lt_iff_place x z).mpr ⟨a, ha, c, hc, lt_trans less more⟩
  lt_of_beq {x y z} same less := by
    obtain ⟨a, ha, b, hb, less⟩ := (Binary64.lt_iff_place y z).mp less
    rw [← Binary64.place_eq_of_beq same] at ha
    exact (Binary64.lt_iff_place x z).mpr ⟨a, ha, b, hb, less⟩

instance : StrictlyOrdered Rat where
  lt_irrefl x := lt_irrefl (α := Rat) x
  lt_trans first second := lt_trans (α := Rat) first second
  lt_of_beq same less := by
    obtain rfl := eq_of_beq (α := Rat) same
    exact less

end QuantityCalculus
