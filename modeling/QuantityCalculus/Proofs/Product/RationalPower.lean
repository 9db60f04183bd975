/-
Module: QuantityCalculus.Proofs.Product.RationalPower
Layer: Proofs
Purpose: Rational powers of products.  There is one exactly if every exponent times the power is an
  integer in range, and the exponents are these multiples.  The fractions of words that are
  multiplied on the way leave the range of words only where the result has left the range of
  exponents.
Imports: QuantityCalculus.Proofs.Product.Canonical
Trusted boundary: none
Main exports: Exponent.InRange, Exponent.scaled_eq_wordProduct?, Exponent.scaled_eq_ok_iff,
  Exponent.not_integral_of_scaled, Product.Raised, rationalPower_eq_ok_iff, rationalPower_error,
  rationalPower_isOk_iff, exponentOf_of_rationalPower
Open obligations: none
-/
import QuantityCalculus.Proofs.Product.Canonical

namespace QuantityCalculus

/-! ### Fractions of words -/

/-- The product of two fractions whose numerators and denominators are words.  What a numerator and
a denominator have in common is cancelled crosswise before anything is multiplied, and there is no
product if its numerator or its denominator is no word. -/
def wordProduct? (a b : Rat) : Option Rat :=
  let left := Nat.gcd a.num.natAbs b.den
  let right := Nat.gcd b.num.natAbs a.den
  let num := a.num / left * (b.num / right)
  let den := a.den / right * (b.den / left)
  if fitsWord num && fitsWord den then some (mkRat num den) else none

/-- After numerators and denominators have been cancelled crosswise, there is nothing left to
cancel, so that a product is refused only if it is no fraction of words in lowest terms. -/
theorem wordProduct?_eq (a b : Rat) : wordProduct? a b
    = if fitsWord (a * b).num && fitsWord (a * b).den then some (a * b) else none := by
  have parts : (a * b).num = a.num / (Nat.gcd a.num.natAbs b.den : Int)
        * (b.num / (Nat.gcd b.num.natAbs a.den : Int))
      ∧ (a * b).den
        = a.den / Nat.gcd b.num.natAbs a.den * (b.den / Nat.gcd a.num.natAbs b.den) := by
    change (Rat.mul a b).num = _ ∧ (Rat.mul a b).den = _
    simp only [Rat.mul, Int.divExact_eq_ediv, Nat.divExact_eq_div, and_self]
  simp only [wordProduct?, ← parts.1, ← parts.2, Rat.mkRat_self]

/-! ### One exponent -/

namespace Exponent

/-- The integers that are exponents. -/
def InRange (n : Int) : Prop := -2147483648 ≤ n ∧ n ≤ 2147483647

instance (n : Int) : Decidable (InRange n) := inferInstanceAs (Decidable (_ ∧ _))

theorem inRange_val (e : Exponent) : InRange e.val := ⟨e.lower, e.upper⟩

/-- The integers in range are exponents. -/
theorem ofInt?_isSome_iff (n : Int) : (ofInt? n).isSome = true ↔ InRange n := by
  rw [Option.isSome_iff_exists]
  constructor
  · rintro ⟨e, he⟩
    rw [← ofInt?_eq_some_iff.mp he]
    exact e.inRange_val
  · intro inRange
    exact ⟨⟨n, inRange.1, inRange.2⟩, ofInt?_eq_some_iff.mpr rfl⟩

/-- An exponent is scaled by multiplying fractions of words. -/
theorem scaled_eq_wordProduct? (a : Exponent) (q : Rat) :
    a.scaled q = match wordProduct? a.val q with
      | none => .error .outOfRange
      | some product =>
          if product.den ≠ 1 then .error .nonIntegral
          else match ofInt? product.num with
            | some e => .ok e
            | none => .error .outOfRange := by
  rw [wordProduct?_eq, scaled]
  cases fitsWord ((a.val : Rat) * q).num && fitsWord ((a.val : Rat) * q).den <;> rfl

/-- An exponent can be scaled exactly if the product is an integer in range, which it is then scaled
to: lowest terms of an integer in range are words. -/
theorem scaled_eq_ok_iff {a e : Exponent} {q : Rat} :
    a.scaled q = .ok e ↔ (a.val : Rat) * q = e.val := by
  simp only [scaled]
  generalize (a.val : Rat) * q = product
  constructor
  · intro h
    split at h
    · cases h
    · split at h
      · cases h
      next integral =>
        split at h
        next found =>
          cases h
          rw [ofInt?_eq_some_iff.mp found]
          exact ((Rat.den_eq_one_iff product).mp (not_not.mp integral)).symm
        next => cases h
  · rintro rfl
    have lower := e.lower
    have upper := e.upper
    have fits : fitsWord e.val = true := by
      rw [fitsWord, Bool.and_eq_true, decide_eq_true_iff, decide_eq_true_iff]
      omega
    have unit : fitsWord 1 = true := rfl
    have found : ofInt? e.val = some e := ofInt?_eq_some_iff.mpr rfl
    simp [fits, unit, found]

/-- What is no integer is the only reason to call a product no integer. -/
theorem not_integral_of_scaled {a : Exponent} {q : Rat} (h : a.scaled q = .error .nonIntegral)
    (n : Int) : (a.val : Rat) * q ≠ n := by
  intro integral
  simp only [scaled, integral] at h
  split at h
  · cases h
  · split at h
    next fraction => exact fraction rfl
    next =>
      split at h
      · cases h
      · cases h

end Exponent

open Exponent (InRange)

/-- A factor has a power exactly if its exponent times that of the power is an exponent. -/
theorem Factor.rationalPower_eq_ok_iff {β : Type} {f g : Factor β} {q : Rat} :
    f.rationalPower q = .ok g ↔ g.base = f.base ∧ (f.exponent.val : Rat) * q = g.exponent.val := by
  rw [Factor.rationalPower, ← Exponent.scaled_eq_ok_iff]
  cases f.exponent.scaled q with
  | error e => simp [Except.map]
  | ok e =>
      obtain ⟨base, exponent⟩ := g
      simp [Except.map, eq_comm]

namespace Product

variable {β : Type}

/-! ### Rational powers of lists of factors -/

/-- Factors and the factors that a rational power makes of them. -/
def Raised (q : Rat) : List (Factor β) → List (Factor β) → Prop :=
  List.Forall₂ fun f g => g.base = f.base ∧ (f.exponent.val : Rat) * q = g.exponent.val

/-- Factors are raised one by one. -/
theorem mapM_rationalPower_eq_ok_iff {fs gs : List (Factor β)} {q : Rat} :
    (fs.mapM fun f : Factor β => f.rationalPower q) = .ok gs ↔ Raised q fs gs := by
  induction fs generalizing gs with
  | nil =>
      rw [List.mapM_nil, Raised, List.forall₂_nil_left_iff]
      exact ⟨fun h => by cases h; rfl, fun h => by rw [h]; rfl⟩
  | cons f fs ih =>
      rw [List.mapM_cons]
      constructor
      · intro h
        cases first : f.rationalPower q with
        | error e =>
            rw [first] at h
            cases h
        | ok raised =>
            cases rest : fs.mapM fun f : Factor β => f.rationalPower q with
            | error e =>
                rw [first, rest] at h
                cases h
            | ok others =>
                rw [first, rest] at h
                cases h
                exact .cons (Factor.rationalPower_eq_ok_iff.mp first) (ih.mp rest)
      · rintro (_ | ⟨first, rest⟩)
        rw [Factor.rationalPower_eq_ok_iff.mpr first, ih.mpr rest]
        rfl

/-- A power fails for the reason for which the power of one of the factors does. -/
theorem mapM_rationalPower_error {fs : List (Factor β)} {q : Rat} {e : PowerError}
    (h : (fs.mapM fun f : Factor β => f.rationalPower q) = .error e) :
    ∃ f ∈ fs, f.exponent.scaled q = .error e := by
  induction fs with
  | nil => cases h
  | cons f fs ih =>
      rw [List.mapM_cons] at h
      cases first : f.exponent.scaled q with
      | error reason =>
          rw [Factor.rationalPower, first] at h
          cases h
          exact ⟨f, List.mem_cons_self, first⟩
      | ok exponent =>
          cases rest : fs.mapM fun f : Factor β => f.rationalPower q with
          | error reason =>
              rw [Factor.rationalPower, first, rest] at h
              cases h
              obtain ⟨g, hg, reason⟩ := ih rest
              exact ⟨g, List.mem_cons_of_mem _ hg, reason⟩
          | ok others =>
              rw [Factor.rationalPower, first, rest] at h
              cases h

/-- Factors can be raised exactly if each exponent times the power is an integer in range. -/
theorem exists_raised_iff {fs : List (Factor β)} {q : Rat} :
    (∃ gs, Raised q fs gs)
      ↔ ∀ f ∈ fs, ∃ n : Int, InRange n ∧ (f.exponent.val : Rat) * q = n := by
  induction fs with
  | nil => exact ⟨fun _ _ hf => absurd hf List.not_mem_nil, fun _ => ⟨[], .nil⟩⟩
  | cons f fs ih =>
      rw [List.forall_mem_cons, ← ih]
      constructor
      · rintro ⟨_, _ | ⟨⟨-, multiple⟩, rest⟩⟩
        exact ⟨⟨_, Exponent.inRange_val _, multiple⟩, _, rest⟩
      · rintro ⟨⟨n, inRange, multiple⟩, gs, rest⟩
        exact ⟨⟨f.base, n, inRange.1, inRange.2⟩ :: gs, .cons ⟨rfl, multiple⟩ rest⟩

/-- Raised factors keep their bases. -/
theorem Raised.base {fs gs : List (Factor β)} {q : Rat} (raised : Raised q fs gs) {g : Factor β}
    (hg : g ∈ gs) : ∃ f ∈ fs, g.base = f.base := by
  induction raised with
  | nil => cases hg
  | cons first _ ih =>
      rcases List.mem_cons.mp hg with rfl | later
      · exact ⟨_, List.mem_cons_self, first.1⟩
      · obtain ⟨f, hf, same⟩ := ih later
        exact ⟨f, List.mem_cons_of_mem _ hf, same⟩

variable [Keyed β]

theorem Raised.names_eq {fs gs : List (Factor β)} {q : Rat} (raised : Raised q fs gs) :
    names gs = names fs := by
  induction raised with
  | nil => rfl
  | cons first _ ih => rw [names_cons, names_cons, ih, first.1]

/-- The degrees of raised factors are those of the factors, times the power. -/
theorem Raised.degree_eq {fs gs : List (Factor β)} {q : Rat} (raised : Raised q fs gs)
    (name : String) : (degree name gs : Rat) = degree name fs * q := by
  induction raised with
  | nil => simp [degree]
  | cons first _ ih =>
      rw [degree_cons, degree_cons, first.1]
      split
      · push_cast
        rw [ih, ← first.2, add_mul]
      · rw [zero_add, zero_add, ih]

/-! ### Rational powers of products -/

section Powers

variable {p r : Product β} {q : Rat}

theorem rationalPower_eq_ok_iff :
    p.rationalPower q = .ok r ↔ ∃ fs, r = ofFactors fs ∧ Raised q p.factors fs := by
  simp only [rationalPower, ← mapM_rationalPower_eq_ok_iff]
  cases p.factors.mapM fun f : Factor β => f.rationalPower q with
  | ok fs => simp [Except.map, eq_comm]
  | error e => simp [Except.map]

/-- A rational power fails for the reason for which one of the factors does. -/
theorem rationalPower_error {e : PowerError} (h : p.rationalPower q = .error e) :
    ∃ f ∈ p.factors, f.exponent.scaled q = .error e := by
  rw [rationalPower] at h
  cases powered : p.factors.mapM fun f : Factor β => f.rationalPower q with
  | ok fs =>
      rw [powered] at h
      cases h
  | error reason =>
      rw [powered] at h
      cases h
      exact mapM_rationalPower_error powered

theorem canonical_of_rationalPower (h : p.rationalPower q = .ok r) : r.Canonical := by
  obtain ⟨fs, rfl, -⟩ := rationalPower_eq_ok_iff.mp h
  exact canonical_ofFactors fs

/-- A rational power has a result exactly if every exponent leads to an integer in range. -/
theorem rationalPower_isOk_iff (p : Product β) (q : Rat) :
    (∃ r, p.rationalPower q = .ok r)
      ↔ ∀ f ∈ p.factors, ∃ n : Int, InRange n ∧ (f.exponent.val : Rat) * q = n := by
  simp only [rationalPower_eq_ok_iff, ← exists_raised_iff]
  rw [exists_comm]
  simp

/-- The exponents of a rational power are those of the product, times the power. -/
theorem exponentOf_of_rationalPower (hp : p.Canonical) (h : p.rationalPower q = .ok r)
    (name : String) : ((r.exponentOf name).val : Rat) = (p.exponentOf name).val * q := by
  obtain ⟨fs, rfl, raised⟩ := rationalPower_eq_ok_iff.mp h
  have nodup : (names fs).Nodup := by
    rw [raised.names_eq]
    exact hp.nodup
  rw [exponentOf_val (canonical_ofFactors fs).nodup, exponentOf_val hp.nodup,
    degree_ofFactors_of_nodup nodup, raised.degree_eq]

end Powers

end Product

end QuantityCalculus
