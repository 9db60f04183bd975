/-
Module: QuantityCalculus.Proofs.Product.Range
Layer: Proofs
Purpose: Where products and quotients that refuse to leave the range of exponents have a result.  A
  product has one exactly if no sum of two exponents leaves the range, a quotient exactly if no
  difference does and no exponent of the divisor is the least one.  The result then has these sums
  or differences.
Imports: QuantityCalculus.Proofs.Product.Partial, QuantityCalculus.Proofs.Product.RationalPower
Trusted boundary: none
Main exports: Exponent.neg?_isSome_iff, mul?_isSome_iff, exponentOf_of_mul?, div?_isSome_iff,
  exponentOf_of_div?, forall_exponent_iff
Open obligations: none
-/
import QuantityCalculus.Proofs.Product.Partial
import QuantityCalculus.Proofs.Product.RationalPower

namespace QuantityCalculus

open Exponent (InRange)

/-- Only the least exponent has no opposite. -/
theorem Exponent.neg?_isSome_iff (e : Exponent) : e.neg?.isSome = true ↔ e ≠ minimum := by
  have lower := e.lower
  have upper := e.upper
  rw [neg?, ofInt?_isSome_iff, InRange]
  constructor
  · rintro ⟨-, opposite⟩ rfl
    exact absurd opposite (by decide)
  · intro other
    have notLeast : e.val ≠ -2147483648 := fun least => other (ext_val least)
    omega

namespace Product

variable {β : Type} [Keyed β]

/-! ### Merging -/

/-- A factor can be merged into a list exactly if the exponent of its name stays in range. -/
theorem mergeFactor?_isSome_iff {fs : List (Factor β)} (nodup : (names fs).Nodup) (f : Factor β) :
    (mergeFactor? fs f).isSome = true ↔ InRange (degree (key f.base) fs + f.exponent.val) := by
  induction fs with
  | nil => simpa [mergeFactor?, degree] using f.exponent.inRange_val
  | cons g fs ih =>
      obtain ⟨fresh, nodup⟩ := List.nodup_cons.mp nodup
      rw [mergeFactor?, degree_cons]
      split
      next same =>
        have absent : degree (key f.base) fs = 0 := degree_eq_zero_of_notMem (by rwa [← same])
        rw [Option.isSome_map, Exponent.add?, Exponent.ofInt?_isSome_iff, absent, add_zero]
      next other => rw [Option.isSome_map, ih nodup, zero_add]

/-- Factors of different names can be merged into a list exactly if the exponent of every name stays
in range: each name is added to once, so that no sum in between can leave the range. -/
theorem foldlM_mergeFactor?_isSome_iff {acc fs : List (Factor β)} (nodupAcc : (names acc).Nodup)
    (nodup : (names fs).Nodup) :
    (fs.foldlM mergeFactor? acc).isSome = true
      ↔ ∀ name, InRange (degree name acc + degree name fs) := by
  induction fs generalizing acc with
  | nil =>
      have alone : ∀ name, InRange (degree name acc + degree name ([] : List (Factor β))) := by
        intro name
        have read : ((⟨acc⟩ : Product β).exponentOf name).val = degree name acc :=
          exponentOf_val nodupAcc name
        rw [← read]
        simpa [degree] using Exponent.inRange_val _
      simpa using alone
  | cons f fs ih =>
      obtain ⟨fresh, nodup⟩ := List.nodup_cons.mp nodup
      have here := mergeFactor?_isSome_iff nodupAcc f
      rw [List.foldlM_cons]
      cases merged : mergeFactor? acc f with
      | none =>
          have absent : degree (key f.base) fs = 0 := degree_eq_zero_of_notMem fresh
          have out : ¬InRange (degree (key f.base) acc + degree (key f.base) (f :: fs)) := by
            rw [degree_cons, if_pos rfl, absent, add_zero, ← here, merged]
            exact Bool.false_ne_true
          exact iff_of_false Bool.false_ne_true fun all => out (all (key f.base))
      | some next =>
          obtain ⟨rfl, step⟩ := mergeFactor?_spec merged
          have nodupNext : (names (mergeFactor acc f)).Nodup :=
            nodup_foldl_mergeFactor acc [f] nodupAcc
          have sums : ∀ name, degree name (mergeFactor acc f) + degree name fs
              = degree name acc + degree name (f :: fs) := by
            intro name
            rw [step, degree_cons name f fs, degree_cons name f []]
            simp [degree, add_assoc]
          have rest := ih nodupNext nodup
          simp only [sums] at rest
          exact rest

section Canonical

variable {p q r : Product β}

/-- What holds of the exponents of all factors and of zero, holds of the exponents of all names. -/
theorem forall_exponent_iff {P : Exponent → Prop} (zero : P Exponent.zero)
    (nodup : (names p.factors).Nodup) :
    (∀ f ∈ p.factors, P f.exponent) ↔ ∀ name, P (p.exponentOf name) := by
  constructor
  · intro all name
    rw [exponentOf]
    split
    next f found => exact all f (List.mem_of_find?_eq_some found)
    next => exact zero
  · intro all f hf
    have read : p.exponentOf (key f.base) = f.exponent :=
      Exponent.ext_val ((exponentOf_val nodup _).trans (degree_eq_of_mem nodup hf))
    rw [← read]
    exact all _

/-! ### Products -/

theorem canonical_of_mul? (h : p.mul? q = some r) : r.Canonical := by
  obtain ⟨fs, rfl, -⟩ := mul?_spec h
  exact canonical_ofFactors fs

/-- A product has a result exactly if no exponent of it leaves the range. -/
theorem mul?_isSome_iff (hp : p.Canonical) (hq : q.Canonical) :
    (p.mul? q).isSome = true
      ↔ ∀ name, InRange ((p.exponentOf name).val + (q.exponentOf name).val) := by
  rw [mul?, Option.isSome_map, foldlM_mergeFactor?_isSome_iff hp.nodup hq.nodup]
  simp only [exponentOf_val hp.nodup, exponentOf_val hq.nodup]

theorem exponentOf_of_mul? (hp : p.Canonical) (hq : q.Canonical) (h : p.mul? q = some r)
    (name : String) :
    (r.exponentOf name).val = (p.exponentOf name).val + (q.exponentOf name).val := by
  rw [exponentOf_val (canonical_of_mul? h).nodup, exponentOf_val hp.nodup, exponentOf_val hq.nodup]
  obtain ⟨fs, rfl, combined⟩ := mul?_spec h
  rw [degree_ofFactors_of_nodup (combined.nodup hp.nodup), combined.degree, one_mul]

/-! ### Quotients -/

omit [Keyed β] in
/-- Factors can be inverted unless one of them has the least exponent, which has no opposite. -/
theorem mapM_neg?_isSome_iff (fs : List (Factor β)) :
    (fs.mapM fun f : Factor β => f.exponent.neg?.map fun e => (⟨f.base, e⟩ : Factor β)).isSome
      = true
      ↔ ∀ f ∈ fs, f.exponent ≠ Exponent.minimum := by
  induction fs with
  | nil => simp
  | cons f fs ih =>
      rw [List.forall_mem_cons, ← ih, ← Exponent.neg?_isSome_iff, List.mapM_cons]
      cases f.exponent.neg? with
      | none => simp
      | some e =>
          cases fs.mapM fun f : Factor β =>
              f.exponent.neg?.map fun e => (⟨f.base, e⟩ : Factor β) with
          | none => simp
          | some rest => simp

/-- The opposites of factors have the names of the factors. -/
theorem names_of_mapM_neg? {fs inverted : List (Factor β)}
    (h : (fs.mapM fun f => f.exponent.neg?.map fun e => (⟨f.base, e⟩ : Factor β)) = some inverted) :
    names inverted = names fs := by
  induction fs generalizing inverted with
  | nil =>
      cases h
      rfl
  | cons f fs ih =>
      rw [List.mapM_cons] at h
      obtain ⟨g, hg, h⟩ := Option.bind_eq_some_iff.mp h
      obtain ⟨rest, hrest, h⟩ := Option.bind_eq_some_iff.mp h
      obtain ⟨e, -, rfl⟩ := Option.map_eq_some_iff.mp hg
      cases h
      rw [names_cons, names_cons, ih hrest]

theorem canonical_of_div? (h : p.div? q = some r) : r.Canonical := by
  obtain ⟨fs, rfl, -⟩ := div?_spec h
  exact canonical_ofFactors fs

/-- A quotient has a result exactly if no exponent of it leaves the range and no exponent of the
divisor is the least one, which has no opposite. -/
theorem div?_isSome_iff (hp : p.Canonical) (hq : q.Canonical) :
    (p.div? q).isSome = true
      ↔ (∀ name, InRange ((p.exponentOf name).val - (q.exponentOf name).val))
        ∧ ∀ name, q.exponentOf name ≠ Exponent.minimum := by
  rw [← forall_exponent_iff (P := fun e => e ≠ Exponent.minimum) (by decide) hq.nodup,
    ← mapM_neg?_isSome_iff, div?]
  cases inverted : q.factors.mapM fun f =>
      f.exponent.neg?.map fun e => (⟨f.base, e⟩ : Factor β) with
  | none => simp
  | some fs =>
      have opposite := (mapM_neg?_spec inverted).1
      have nodup : (names fs).Nodup := by
        rw [names_of_mapM_neg? inverted]
        exact hq.nodup
      have product := foldlM_mergeFactor?_isSome_iff hp.nodup nodup
      simp only [opposite, ← sub_eq_add_neg, ← exponentOf_val hp.nodup, ← exponentOf_val hq.nodup]
        at product
      simpa [mul?] using product

/-- A checked quotient has the differences of the exponents, whatever their signs. -/
theorem exponentOf_of_div? (hp : p.Canonical) (hq : q.Canonical) (h : p.div? q = some r)
    (name : String) :
    (r.exponentOf name).val = (p.exponentOf name).val - (q.exponentOf name).val := by
  rw [exponentOf_val (canonical_of_div? h).nodup, exponentOf_val hp.nodup, exponentOf_val hq.nodup]
  obtain ⟨fs, rfl, combined⟩ := div?_spec h
  rw [degree_ofFactors_of_nodup (combined.nodup hp.nodup), combined.degree, neg_one_mul,
    sub_eq_add_neg]

end Canonical

end Product

end QuantityCalculus
