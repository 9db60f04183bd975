/-
Module: QuantityCalculus.Proofs.Units.Exactness
Layer: Proofs
Purpose: Products, quotients and rational powers of units are exact: they have a result just where
  all of its exponents are integers in range, and then have these exponents.  The only exception are
  quotients by a unit with the least exponent, which has no opposite.
Imports: QuantityCalculus.Proofs.Product.Range, QuantityCalculus.Proofs.Units.Conversion,
  QuantityCalculus.Scalar.Double
Trusted boundary: none
Main exports: CompoundUnit.Exact, productWith_exact, quotientBy_exact, rationalPower_error_cases,
  products_and_powers_exact, quotients_exact_up_to_opposites
Open obligations: none
-/
import QuantityCalculus.Proofs.Product.Range
import QuantityCalculus.Proofs.Units.Conversion
import QuantityCalculus.Scalar.Double

namespace QuantityCalculus

open Exponent (InRange)

namespace CompoundUnit

variable {α : Type} {u v w : CompoundUnit α}

/-! ### Products and quotients -/

/-- The answer of an operation that succeeds exactly if it is possible, and whose result then has
given exponents.  It is refused for no other reason than exponents that are out of range. -/
structure Exact (answer : Except (UnitError α) (CompoundUnit α)) (possible : Prop)
    (exponent : String → Int) : Prop where
  succeeds : (∃ w, answer = .ok w) ↔ possible
  exponents : ∀ w, answer = .ok w →
    Product.Canonical w ∧ ∀ name, (w.exponentOf name).val = exponent name
  refusal : ∀ e, answer = .error e → e = .exponentOutOfRange

/-- A partial operation with exact exponents is exact with an error in place of nothing. -/
theorem Exact.of_option {product : Option (CompoundUnit α)} {possible : Prop}
    {exponent : String → Int} (succeeds : product.isSome = true ↔ possible)
    (exponents : ∀ w, product = some w →
      Product.Canonical w ∧ ∀ name, (w.exponentOf name).val = exponent name) :
    Exact (match product with | some w => .ok w | none => .error .exponentOutOfRange) possible
      exponent := by
  cases product with
  | none =>
      refine ⟨by simpa using succeeds, fun w h => ?_, fun e h => ?_⟩
      · cases h
      · cases h
        rfl
  | some product =>
      refine ⟨by simpa using succeeds, fun w h => ?_, fun e h => ?_⟩
      · cases h
        exact exponents product rfl
      · cases h

/-- The product of two units is exact. -/
theorem productWith_exact (hu : Product.Canonical u) (hv : Product.Canonical v) :
    Exact (u.productWith v)
      (∀ name, InRange ((u.exponentOf name).val + (v.exponentOf name).val))
      fun name => (u.exponentOf name).val + (v.exponentOf name).val :=
  .of_option (Product.mul?_isSome_iff hu hv) fun _ found =>
    ⟨Product.canonical_of_mul? found, Product.exponentOf_of_mul? hu hv found⟩

/-- The quotient of two units is exact, but for divisors with an exponent that has no opposite. -/
theorem quotientBy_exact (hu : Product.Canonical u) (hv : Product.Canonical v) :
    Exact (u.quotientBy v)
      ((∀ name, InRange ((u.exponentOf name).val - (v.exponentOf name).val))
        ∧ ∀ name, v.exponentOf name ≠ Exponent.minimum)
      fun name => (u.exponentOf name).val - (v.exponentOf name).val :=
  .of_option (Product.div?_isSome_iff hu hv) fun _ found =>
    ⟨Product.canonical_of_div? found, Product.exponentOf_of_div? hu hv found⟩

/-! ### Rational powers -/

/-- A power of a unit that is refused is refused for the reason for which one of its factors is. -/
theorem rationalPower_error_cases {q : Rat} {e : UnitError α} (h : u.rationalPower q = .error e) :
    (e = .nonIntegralExponent q ∧ ∃ f ∈ u.factors, f.exponent.scaled q = .error .nonIntegral)
      ∨ e = .exponentOutOfRange := by
  rw [rationalPower] at h
  split at h
  next => cases h
  next failed =>
    cases h
    exact .inl ⟨rfl, Product.rationalPower_error failed⟩
  next =>
    cases h
    exact .inr rfl

/-- Products and rational powers of units, which are canonical, are exact.  A product has a result
exactly if all sums of exponents are in range, a power exactly if all multiples of exponents are
integers in range; the result has these exponents, and what has exponent zero is not in it.  A power
is said to have exponents that are no integers only if one of them is none, and out of range if all
are integers. -/
theorem products_and_powers_exact (hu : Product.Canonical u) (hv : Product.Canonical v) :
    Exact (u.productWith v)
        (∀ name, InRange ((u.exponentOf name).val + (v.exponentOf name).val))
        (fun name => (u.exponentOf name).val + (v.exponentOf name).val)
      ∧ ∀ q : Rat,
        ((∃ w, u.rationalPower q = .ok w)
            ↔ ∀ f ∈ u.factors, ∃ n : Int, InRange n ∧ (f.exponent.val : Rat) * q = n)
          ∧ (∀ w, u.rationalPower q = .ok w → Product.Canonical w
            ∧ ∀ name, ((w.exponentOf name).val : Rat) = (u.exponentOf name).val * q)
          ∧ (∀ r, u.rationalPower q = .error (.nonIntegralExponent r) →
            r = q ∧ ∃ f ∈ u.factors, ∀ n : Int, (f.exponent.val : Rat) * q ≠ n)
          ∧ ((∀ f ∈ u.factors, ∃ n : Int, (f.exponent.val : Rat) * q = n) →
            ∀ e, u.rationalPower q = .error e → e = .exponentOutOfRange) := by
  refine ⟨productWith_exact hu hv, fun q => ⟨?_, fun w h => ?_, fun r h => ?_, fun all e h => ?_⟩⟩
  · simp only [rationalPower_eq_ok_iff]
    exact Product.rationalPower_isOk_iff u q
  · have powered := rationalPower_eq_ok_iff.mp h
    exact ⟨Product.canonical_of_rationalPower powered,
      Product.exponentOf_of_rationalPower hu powered⟩
  · rcases rationalPower_error_cases h with ⟨same, f, hf, fraction⟩ | other
    · cases same
      exact ⟨rfl, f, hf, Exponent.not_integral_of_scaled fraction⟩
    · cases other
  · rcases rationalPower_error_cases h with ⟨-, f, hf, fraction⟩ | range
    · obtain ⟨n, integral⟩ := all f hf
      exact absurd integral (Exponent.not_integral_of_scaled fraction n)
    · exact range

/-- Quotients of units are exact as long as no exponent of the divisor is the least one.  A divisor
with the least exponent is refused, whether the difference of exponents is in range or not, so that
a unit divided by itself is the unit of plain numbers exactly if none of its exponents is the least
one. -/
theorem quotients_exact_up_to_opposites (hu : Product.Canonical u) (hv : Product.Canonical v) :
    Exact (u.quotientBy v)
        ((∀ name, InRange ((u.exponentOf name).val - (v.exponentOf name).val))
          ∧ ∀ name, v.exponentOf name ≠ Exponent.minimum)
        (fun name => (u.exponentOf name).val - (v.exponentOf name).val)
      ∧ (u.quotientBy u = .ok scalar ↔ ∀ name, u.exponentOf name ≠ Exponent.minimum) := by
  have itself := quotientBy_exact hu hu
  refine ⟨quotientBy_exact hu hv, fun divided => ?_, fun opposites => ?_⟩
  · exact (itself.succeeds.mp ⟨scalar, divided⟩).2
  · have inRange : ∀ name, InRange ((u.exponentOf name).val - (u.exponentOf name).val) := by
      intro name
      rw [sub_self]
      decide
    obtain ⟨w, divided⟩ := itself.succeeds.mpr ⟨inRange, opposites⟩
    obtain ⟨canonical, exponents⟩ := itself.exponents w divided
    have empty : w.isUnity = true := by
      rw [Product.isUnity_iff_degree canonical]
      intro name
      rw [← Product.exponentOf_val canonical.nodup, exponents, sub_self]
    have unity : w = scalar := congrArg Product.mk (List.isEmpty_iff.mp empty)
    rw [divided, unity]

end CompoundUnit

/-! ### Exponents at the bounds -/

section Bounds

open CompoundUnit (scalar)

def gram : NamedUnit Float := .primitive (.ofSymbol "g") "Mass"
def kelvin : NamedUnit Float := .primitive (.ofSymbol "K") "Temperature"

/-- A power of the gram times a power of the kelvin. -/
def gramKelvin (g k : Int) : CompoundUnit Float :=
  ⟨[⟨gram, Exponent.clamp g⟩, ⟨kelvin, Exponent.clamp k⟩]⟩

theorem gramKelvin_canonical {g k : Int} (hg : (Exponent.clamp g).val ≠ 0)
    (hk : (Exponent.clamp k).val ≠ 0) : Product.Canonical (gramKelvin g k) where
  nodup := by
    change ["g", "K"].Nodup
    decide
  nonzero := by simp [gramKelvin, hg, hk]

/-- The exponents of the gram add up to the largest exponent, and those of the kelvin to zero.  The
square would be out of range, the square root is not, and the cube root has exponents that are no
integers. -/
theorem steep_product_and_roots_exact :
    let u := gramKelvin 2147483646 (-4)
    let v := gramKelvin 1 4
    Product.Canonical u ∧ Product.Canonical v
      ∧ (∃ w, u.productWith v = .ok w
        ∧ ∀ name, (w.exponentOf name).val = (u.exponentOf name).val + (v.exponentOf name).val)
      ∧ (¬∃ w, u.productWith u = .ok w)
      ∧ (∃ w, u.rationalPower (1 / 2) = .ok w
        ∧ ∀ name, ((w.exponentOf name).val : Rat) = (u.exponentOf name).val * (1 / 2))
      ∧ ¬∃ w, u.rationalPower (1 / 3) = .ok w := by
  intro u v
  have canonicalU : Product.Canonical u := gramKelvin_canonical (by decide) (by decide)
  have canonicalV : Product.Canonical v := gramKelvin_canonical (by decide) (by decide)
  obtain ⟨product, power⟩ := CompoundUnit.products_and_powers_exact canonicalU canonicalV
  obtain ⟨square, -⟩ := CompoundUnit.products_and_powers_exact canonicalU canonicalU
  obtain ⟨root, rooted⟩ := (power (1 / 2)).1.mpr fun f hf => by
    rcases List.mem_pair.mp hf with rfl | rfl
    · exact ⟨1073741823, by decide, by norm_num [Exponent.clamp]⟩
    · exact ⟨-2, by decide, by norm_num [Exponent.clamp]⟩
  refine ⟨canonicalU, canonicalV, ⟨_, rfl, (product.exponents _ rfl).2⟩, ?_,
    ⟨root, rooted, ((power (1 / 2)).2.1 root rooted).2⟩, ?_⟩
  · rw [square.succeeds]
    intro all
    exact absurd (all "g") (by decide)
  · rw [(power (1 / 3)).1]
    intro all
    obtain ⟨n, -, third⟩ := all ⟨kelvin, Exponent.clamp (-4)⟩ (by simp [u, gramKelvin])
    have thrice : (-4 : Rat) = 3 * n := by
      rw [← third]
      norm_num [Exponent.clamp]
    have thriceInt : (-4 : Int) = 3 * n := by exact_mod_cast thrice
    omega

/-- The kelvin cancels, and the gram has the least exponent in the quotient. -/
theorem steep_quotient_exact :
    let u := gramKelvin (-5) 2147483647
    let v := gramKelvin 2147483643 2147483647
    Product.Canonical u ∧ Product.Canonical v
      ∧ (∃ w, u.quotientBy v = .ok w
        ∧ ∀ name, (w.exponentOf name).val = (u.exponentOf name).val - (v.exponentOf name).val)
      ∧ u.quotientBy u = .ok scalar := by
  intro u v
  have canonicalU : Product.Canonical u := gramKelvin_canonical (by decide) (by decide)
  have canonicalV : Product.Canonical v := gramKelvin_canonical (by decide) (by decide)
  obtain ⟨quotient, itself⟩ := CompoundUnit.quotients_exact_up_to_opposites canonicalU canonicalV
  refine ⟨canonicalU, canonicalV, ⟨_, rfl, (quotient.exponents _ rfl).2⟩, itself.mpr ?_⟩
  rw [← Product.forall_exponent_iff (P := fun e => e ≠ Exponent.minimum) (by decide)
    canonicalU.nodup]
  decide

/-- A unit with the least exponent is not divided by itself, although no exponent of the quotient is
other than zero. -/
theorem least_power_by_itself_refused :
    let u : CompoundUnit Float := (CompoundUnit.ofNamed gram).power Exponent.minimum
    Product.Canonical u
      ∧ (∀ name, InRange ((u.exponentOf name).val - (u.exponentOf name).val))
      ∧ u.quotientBy u = .error .exponentOutOfRange
      ∧ u.quotientBy u ≠ .ok scalar := by
  intro u
  have refused : u.quotientBy u = .error .exponentOutOfRange := rfl
  refine ⟨Product.canonical_power _ _, fun name => ?_, refused, fun divided => ?_⟩
  · rw [sub_self]
    decide
  · rw [refused] at divided
    cases divided

end Bounds

end QuantityCalculus
