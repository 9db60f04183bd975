/-
Module: QuantityCalculus.Proofs.Quantity.Equality
Layer: Proofs
Purpose: The equality of quantities, which is decided in the unit of the first one.  It does not
  depend on the order of the quantities just when the number that is converted comes back unchanged.
Imports: QuantityCalculus.Proofs.Operator.Dimension, QuantityCalculus.Proofs.Scalar.Equality
Trusted boundary: none
Main exports: CompoundUnit.dimension_agrees_comm, Quantity.returnsFrom,
  Quantity.agrees_eq_returnsFrom, quantity_agrees_comm_iff, Quantity.agrees_comm_exact
Open obligations: none
-/
import QuantityCalculus.Proofs.Operator.Dimension
import QuantityCalculus.Proofs.Scalar.Equality

namespace QuantityCalculus

/-! ### Units in both orders -/

variable {α : Type} [Scalar α]

theorem CompoundUnit.dimension_agrees_comm (u v : CompoundUnit α) :
    u.dimension.agrees v.dimension = v.dimension.agrees u.dimension :=
  Product.agrees_comm u.dimension_canonical v.dimension_canonical

namespace Quantity

variable {a b : Quantity α}

/-! ### The number that is compared -/

/-- Whether two quantities are both percentages, or both none. -/
def sameKind (a b : Quantity α) : Bool := (a.kind == .percent) == (b.kind == .percent)

omit [Scalar α] in
theorem sameKind_comm (a b : Quantity α) : a.sameKind b = b.sameKind a := BEq.comm

theorem convertTo_of_agrees {q : Quantity α} {u : CompoundUnit α} (same : q.unit.agrees u = true) :
    q.convertTo u = .ok q := if_pos same

theorem convertTo_of_alike {q : Quantity α} {u : CompoundUnit α} (other : q.unit.agrees u = false)
    (alike : q.dimension.agrees u.dimension = true) :
    q.convertTo u = .ok ⟨q.number * (q.unit.factor / u.factor), u, q.kind⟩ := by
  have ratio : q.unit.ratioTo u = .ok (q.unit.factor / u.factor) := if_pos alike
  rw [convertTo, if_neg (by simp [other]), ratio]
  rfl

/-- In one and the same unit, the numbers are compared as they are. -/
theorem agrees_of_agrees (same : b.unit.agrees a.unit = true) :
    a.agrees b = (a.sameKind b && a.number == b.number) := by
  rw [agrees, convertTo_of_agrees same, sameKind]

/-- In two units of one dimension, the second number is converted first. -/
theorem agrees_of_alike (other : b.unit.agrees a.unit = false)
    (alike : b.dimension.agrees a.dimension = true) :
    a.agrees b = (a.sameKind b && a.number == b.number * (b.unit.factor / a.unit.factor)) := by
  rw [agrees, convertTo_of_alike other alike, sameKind]

/-- Quantities of different dimensions are never equal. -/
theorem agrees_of_different (other : b.unit.agrees a.unit = false)
    (different : b.dimension.agrees a.dimension = false) : a.agrees b = false := by
  have failed : b.unit.ratioTo a.unit
      = .error (.incompatibleDimensions b.dimension a.dimension) :=
    if_neg (ne_true_of_eq_false different)
  rw [agrees, convertTo, if_neg (by simp [other]), failed]
  exact Bool.and_false _

/-! ### Conversion there and back -/

/-- Whether a quantity that is converted into a unit and back has the number that it had before. -/
def returnsFrom (q : Quantity α) (u : CompoundUnit α) : Bool :=
  match (q.convertTo u).bind fun converted => converted.convertTo q.unit with
  | .ok back => q.number == back.number
  | .error _ => false

theorem returnsFrom_of_agrees (canonical : Product.Canonical b.unit)
    (same : b.unit.agrees a.unit = true) : b.returnsFrom a.unit = (b.number == b.number) := by
  rw [returnsFrom, convertTo_of_agrees same, Except.bind,
    convertTo_of_agrees (Product.agrees_refl canonical)]

section Canonical

variable (canonicalA : Product.Canonical a.unit) (canonicalB : Product.Canonical b.unit)

include canonicalA canonicalB

/-- Converted there and back, a number is multiplied by a ratio and by the opposite one. -/
theorem returnsFrom_of_alike (other : b.unit.agrees a.unit = false)
    (alike : b.dimension.agrees a.dimension = true) :
    b.returnsFrom a.unit = (b.number
      == b.number * (b.unit.factor / a.unit.factor) * (a.unit.factor / b.unit.factor)) := by
  rw [returnsFrom, convertTo_of_alike other alike, Except.bind]
  rw [Product.agrees_comm canonicalB canonicalA] at other
  rw [dimension, dimension, CompoundUnit.dimension_agrees_comm] at alike
  have back :=
    convertTo_of_alike (q := ⟨b.number * (b.unit.factor / a.unit.factor), a.unit, b.kind⟩)
    (u := b.unit) other alike
  rw [back]

variable [EqualProducts α]

/-- If a first quantity equals a second one, the second equals the first just when it returns from
the unit of the first. -/
theorem agrees_eq_returnsFrom (equal : a.agrees b = true) : b.agrees a = b.returnsFrom a.unit := by
  have symm := Product.agrees_comm canonicalB canonicalA
  have alikeSymm : b.dimension.agrees a.dimension = a.dimension.agrees b.dimension :=
    CompoundUnit.dimension_agrees_comm b.unit a.unit
  cases same : b.unit.agrees a.unit with
  | true =>
      rw [agrees_of_agrees same, Bool.and_eq_true] at equal
      obtain ⟨kinds, numbers⟩ := equal
      have swapped : (b.number == a.number) = true := BEq.symm numbers
      rw [agrees_of_agrees (symm ▸ same), sameKind_comm, kinds,
        returnsFrom_of_agrees canonicalB same,
        swapped, BEq.trans swapped numbers, Bool.true_and]
  | false =>
      cases alike : b.dimension.agrees a.dimension with
      | true =>
          rw [agrees_of_alike same alike, Bool.and_eq_true] at equal
          obtain ⟨kinds, numbers⟩ := equal
          rw [agrees_of_alike (symm ▸ same) (alikeSymm ▸ alike), sameKind_comm, kinds,
            returnsFrom_of_alike canonicalA canonicalB same alike, Bool.true_and, Bool.eq_iff_iff]
          -- the converted number of `b` may replace that of `a`, which it equals
          exact ⟨fun reached =>
              BEq.symm (EqualProducts.mul_beq (BEq.symm numbers) (BEq.symm reached)),
            fun reached => BEq.symm (EqualProducts.mul_beq numbers (BEq.symm reached))⟩
      | false =>
          rw [agrees_of_different same alike] at equal
          cases equal

/-- In one and the same unit, the order does not matter. -/
theorem agrees_comm_of_agrees (same : b.unit.agrees a.unit = true) : a.agrees b = b.agrees a := by
  have symm := Product.agrees_comm canonicalB canonicalA
  rw [agrees_of_agrees same, agrees_of_agrees (symm ▸ same), sameKind_comm,
    BEq.comm (a := a.number)]

/-- The two orders agree just when whatever is found to be equal returns. -/
theorem agrees_comm_iff : a.agrees b = b.agrees a
    ↔ (a.agrees b = true → b.returnsFrom a.unit = true)
      ∧ (b.agrees a = true → a.returnsFrom b.unit = true) := by
  have first := agrees_eq_returnsFrom canonicalA canonicalB
  have second := agrees_eq_returnsFrom canonicalB canonicalA
  constructor
  · intro same
    constructor
    · intro equal
      rw [← first equal, ← same, equal]
    · intro equal
      rw [← second equal, same, equal]
  · rintro ⟨there, back⟩
    rw [Bool.eq_iff_iff]
    constructor
    · intro equal
      rw [first equal, there equal]
    · intro equal
      rw [second equal, back equal]

/-- Without a conversion, in one and the same unit or between different dimensions, the order does
not matter. -/
theorem agrees_comm_of_unconverted
    (unconverted : a.unit.agrees b.unit = true ∨ a.dimension.agrees b.dimension = false) :
    a.agrees b = b.agrees a := by
  have symm := Product.agrees_comm canonicalA canonicalB
  cases same : b.unit.agrees a.unit with
  | true => exact agrees_comm_of_agrees canonicalA canonicalB same
  | false =>
      have different := unconverted.resolve_left (by simp [symm, same])
      have swapped : b.dimension.agrees a.dimension = false :=
        (CompoundUnit.dimension_agrees_comm b.unit a.unit).trans different
      rw [agrees_of_different same swapped, agrees_of_different (symm.trans same) different]

end Canonical

/-! ### Exact arithmetic -/

/-- Without rounding, a number comes back whenever the quantities agree. -/
theorem returnsFrom_exact {a b : Quantity Rat} (canonicalA : Product.Canonical a.unit)
    (canonicalB : Product.Canonical b.unit) (nonzeroA : a.unit.factor ≠ 0)
    (nonzeroB : b.unit.factor ≠ 0) (equal : a.agrees b = true) : b.returnsFrom a.unit = true := by
  cases same : b.unit.agrees a.unit with
  | true =>
      rw [returnsFrom_of_agrees canonicalB same]
      exact beq_self_eq_true (α := Rat) b.number
  | false =>
      cases alike : b.dimension.agrees a.dimension with
      | true =>
          rw [returnsFrom_of_alike canonicalA canonicalB same alike]
          refine (beq_iff_eq (α := Rat)).mpr ?_
          change b.number
            = b.number * (b.unit.factor / a.unit.factor) * (a.unit.factor / b.unit.factor)
          rw [mul_assoc, div_mul_div_cancel₀ nonzeroA, div_self nonzeroB, mul_one]
      | false =>
          rw [agrees_of_different same alike] at equal
          cases equal

/-- In exact arithmetic the order does not matter for units that measure something. -/
theorem agrees_comm_exact {a b : Quantity Rat} (canonicalA : Product.Canonical a.unit)
    (canonicalB : Product.Canonical b.unit) (nonzeroA : a.unit.factor ≠ 0)
    (nonzeroB : b.unit.factor ≠ 0) : a.agrees b = b.agrees a :=
  (agrees_comm_iff canonicalA canonicalB).mpr
    ⟨returnsFrom_exact canonicalA canonicalB nonzeroA nonzeroB,
      returnsFrom_exact canonicalB canonicalA nonzeroB nonzeroA⟩

end Quantity

/-! ### Both orders -/

/-- Whether two quantities are equal does not depend on their order just when each of them, if the
other one equals it, returns from the unit of the other one.  Without a conversion, in one and the
same unit or between different dimensions, it never depends on the order. -/
theorem quantity_agrees_comm_iff [EqualProducts α] {a b : Quantity α}
    (canonicalA : Product.Canonical a.unit) (canonicalB : Product.Canonical b.unit) :
    (a.agrees b = b.agrees a
        ↔ (a.agrees b = true → b.returnsFrom a.unit = true)
          ∧ (b.agrees a = true → a.returnsFrom b.unit = true))
      ∧ (a.unit.agrees b.unit = true ∨ a.dimension.agrees b.dimension = false →
          a.agrees b = b.agrees a) :=
  ⟨Quantity.agrees_comm_iff canonicalA canonicalB,
    Quantity.agrees_comm_of_unconverted canonicalA canonicalB⟩

section Feet

/-- A number of metres. -/
def ofMetres (number : Float) : Quantity Float := .of number (CompoundUnit.ofNamed metre)

/-- One kilometre. -/
def oneKilometre : Quantity Float := .of 1 (CompoundUnit.ofNamed kilometre)

/-- One foot, which is 0.3048 metres long. -/
def oneFoot : Quantity Float :=
  .of 1 (CompoundUnit.ofNamed (.derived (.ofSymbol "ft") 0.3048 (CompoundUnit.ofNamed metre)))

/-- A kilometre and a thousand metres are equal in both orders, and nothing is converted between
metres. -/
theorem kilometre_and_metres_in_both_orders :
    Product.Canonical oneKilometre.unit ∧ Product.Canonical (ofMetres 1000).unit
      ∧ oneKilometre.agrees (ofMetres 1000) = true
      ∧ oneKilometre.agrees (ofMetres 1000) = (ofMetres 1000).agrees oneKilometre
      ∧ (ofMetres 1000).unit.agrees (ofMetres 2).unit = true
      ∧ (ofMetres 1000).agrees (ofMetres 2) = (ofMetres 2).agrees (ofMetres 1000) := by
  have canonical : Product.Canonical oneKilometre.unit := Product.canonical_ofFactors [_]
  have inMetres (number : Float) : Product.Canonical (ofMetres number).unit :=
    Product.canonical_ofFactors [_]
  have there : (ofMetres 1000).returnsFrom oneKilometre.unit = true := by decide +kernel
  have back : oneKilometre.returnsFrom (ofMetres 1000).unit = true := by decide +kernel
  have sameUnit : (ofMetres 1000).unit.agrees (ofMetres 2).unit = true := rfl
  exact ⟨canonical, inMetres 1000, by decide +kernel,
    (quantity_agrees_comm_iff canonical (inMetres 1000)).1.mpr ⟨fun _ => there, fun _ => back⟩,
    sameUnit, (quantity_agrees_comm_iff (inMetres 1000) (inMetres 2)).2 (.inl sameUnit)⟩

/-- A foot is converted into metres without a rounding error, but 0.3048 metres are not quite a foot
when they are converted. -/
theorem foot_and_metres_in_one_order :
    Product.Canonical oneFoot.unit ∧ Product.Canonical (ofMetres 0.3048).unit
      ∧ (ofMetres 0.3048).agrees oneFoot = true ∧ oneFoot.agrees (ofMetres 0.3048) = false
      ∧ oneFoot.returnsFrom (ofMetres 0.3048).unit = false :=
  ⟨Product.canonical_ofFactors [_], Product.canonical_ofFactors [_], by decide +kernel,
    by decide +kernel, by decide +kernel⟩

end Feet

end QuantityCalculus
