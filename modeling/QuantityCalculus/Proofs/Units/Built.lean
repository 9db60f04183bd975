/-
Module: QuantityCalculus.Proofs.Units.Built
Layer: Proofs
Purpose: The units that operations which may fail lead to, starting with registered units, are built
  from registered units.
Imports: QuantityCalculus.Proofs.Units.Conversion, QuantityCalculus.Proofs.Units.Registry
Trusted boundary: none
Main exports: Builds.productWith, Builds.quotientBy, Builds.rationalPower, Builds.scalarPower,
  UnitRegistry.Obtains, Obtains.builds
Open obligations: none
-/
import QuantityCalculus.Proofs.Units.Conversion
import QuantityCalculus.Proofs.Units.Registry

namespace QuantityCalculus

namespace UnitRegistry

variable {α : Type} {r : UnitRegistry α}

/-! ### Operations on units -/

/-- Products and quotients of registered units are built from these. -/
theorem Builds.combined {u v : CompoundUnit α} (hu : r.Builds u) (hv : r.Builds v) {sign : Int}
    {fs : List (Factor (NamedUnit α))} (combined : Product.Combines sign u v fs) :
    r.Builds (Product.ofFactors fs) := by
  apply builds_ofFactors
  intro g hg
  obtain ⟨f, hf, same⟩ := combined.base g hg
  rw [same]
  rcases List.mem_append.mp hf with left | right
  · exact hu.base f left
  · exact hv.base f right

theorem Builds.productWith {u v w : CompoundUnit α} (hu : r.Builds u) (hv : r.Builds v)
    (h : u.productWith v = .ok w) : r.Builds w := by
  obtain ⟨fs, rfl, combined⟩ := CompoundUnit.productWith_spec h
  exact hu.combined hv combined

theorem Builds.quotientBy {u v w : CompoundUnit α} (hu : r.Builds u) (hv : r.Builds v)
    (h : u.quotientBy v = .ok w) : r.Builds w := by
  obtain ⟨fs, rfl, combined⟩ := CompoundUnit.quotientBy_spec h
  exact hu.combined hv combined

/-- So are their rational powers. -/
theorem Builds.rationalPower {u w : CompoundUnit α} (hu : r.Builds u) {q : Rat}
    (h : u.rationalPower q = .ok w) : r.Builds w := by
  rw [CompoundUnit.rationalPower_eq_ok_iff, Product.rationalPower_eq_ok_iff] at h
  obtain ⟨fs, rfl, raised⟩ := h
  apply builds_ofFactors
  intro g hg
  obtain ⟨f, hf, same⟩ := raised.base hg
  rw [same]
  exact hu.base f hf

/-- So are the powers whose exponent is read off a number. -/
theorem Builds.scalarPower [Scalar α] {u w : CompoundUnit α} (hu : r.Builds u) {x : α}
    (h : u.scalarPower x = .ok w) : r.Builds w := by
  rw [CompoundUnit.scalarPower] at h
  split at h
  next => exact hu.rationalPower h
  next =>
    split at h
    · cases h
    · cases h

/-! ### Units that operations lead to -/

/-- The units that products, quotients and powers lead to, as long as they succeed, starting with
registered units. -/
inductive Obtains (r : UnitRegistry α) : CompoundUnit α → Prop where
  | registered {name : String} {u : CompoundUnit α} (found : r.get name = .ok u) : Obtains r u
  | product {u v w : CompoundUnit α} (left : Obtains r u) (right : Obtains r v)
      (multiplied : u.productWith v = .ok w) : Obtains r w
  | quotient {u v w : CompoundUnit α} (dividend : Obtains r u) (divisor : Obtains r v)
      (divided : u.quotientBy v = .ok w) : Obtains r w
  | power {u w : CompoundUnit α} {q : Rat} (base : Obtains r u)
      (raised : u.rationalPower q = .ok w) : Obtains r w

/-- Units that are obtained by name, and by products, quotients and powers of such, are built from
registered ones. -/
theorem Obtains.builds [Scalar α] (indexed : r.Indexed) {u : CompoundUnit α} (h : r.Obtains u) :
    r.Builds u := by
  induction h with
  | registered found => exact indexed.builds_get found
  | product _ _ multiplied left right => exact left.productWith right multiplied
  | quotient _ _ divided dividend divisor => exact dividend.quotientBy divisor divided
  | power _ raised base => exact base.rationalPower raised

theorem Obtains.parts_subset [Scalar α] (indexed : r.Indexed) {u : CompoundUnit α}
    (h : r.Obtains u) : CompoundUnit.parts u ⊆ r.parts := indexed.parts_of_builds (h.builds indexed)

end UnitRegistry

end QuantityCalculus
