/-
Module: QuantityCalculus.Proofs.Product.Algebra
Layer: Proofs
Purpose: The algebra of canonical products.  A product has the sums of the exponents of its factors,
  up to the bounds of an exponent, so that multiplication is commutative, is associative as long as
  the exponents stay in range, and undoes division.  Products of names agree if their factors are
  the same in whatever order.
Imports: Mathlib.Tactic.Ring, QuantityCalculus.Proofs.Product.Canonical
Trusted boundary: none
Main exports: degree_mul, degree_mul_of_inRange, degree_div, agrees_mul_comm, agrees_mul_assoc,
  agrees_div_mul, total_map_power, agrees_iff_perm
Open obligations: none
-/
import Mathlib.Tactic.Ring
import QuantityCalculus.Proofs.Product.Canonical

namespace QuantityCalculus

open Exponent (clamp clamp_val_of_inRange clamp_val_of_natAbs_lt)

namespace Product

variable {β : Type} [Keyed β] {name : String}

/-! ### Exponents that stop at their bounds -/

/-- Where every name stands once, the exponent of a name is one of those in the list, or zero. -/
theorem clamp_degree {fs : List (Factor β)} (nodup : (names fs).Nodup) :
    (clamp (degree name fs)).val = degree name fs := by
  have read : ((⟨fs⟩ : Product β).exponentOf name).val = degree name fs := exponentOf_val nodup name
  rw [← read]
  exact clamp_val_of_inRange (Exponent.lower _) (Exponent.upper _)

/-- A factor that is merged into a list adds to the exponent of its own name, up to the bounds. -/
theorem degree_mergeFactor_of_nodup {fs : List (Factor β)} (nodup : (names fs).Nodup)
    (f : Factor β) :
    degree name (mergeFactor fs f)
      = if key f.base = name then (clamp (degree name fs + f.exponent.val)).val
        else degree name fs := by
  induction fs with
  | nil =>
      have whole := clamp_val_of_inRange f.exponent.lower f.exponent.upper
      simp [mergeFactor, degree, indicator, whole]
  | cons g fs ih =>
      obtain ⟨fresh, nodup⟩ := List.nodup_cons.mp nodup
      by_cases same : key g.base = key f.base
      · rw [mergeFactor, if_pos same, degree_cons, degree_cons, same]
        by_cases named : key f.base = name
        · have absent : degree name fs = 0 :=
            degree_eq_zero_of_notMem (by rwa [← named, ← same])
          simp [named, absent, Exponent.add]
        · simp [named]
      · rw [mergeFactor, if_neg same, degree_cons, degree_cons, ih nodup]
        by_cases named : key f.base = name
        · have other : key g.base ≠ name := fun also => same (also.trans named.symm)
          simp [named, other]
        · simp [named]

/-- Lists in which every name stands once are merged name by name. -/
theorem degree_foldl_mergeFactor_of_nodup {acc fs : List (Factor β)} (nodupAcc : (names acc).Nodup)
    (nodup : (names fs).Nodup) :
    degree name (fs.foldl mergeFactor acc) = (clamp (degree name acc + degree name fs)).val := by
  induction fs generalizing acc with
  | nil => simpa [degree] using (clamp_degree nodupAcc).symm
  | cons f fs ih =>
      obtain ⟨fresh, nodup⟩ := List.nodup_cons.mp nodup
      have merged : (names (mergeFactor acc f)).Nodup := nodup_foldl_mergeFactor acc [f] nodupAcc
      rw [List.foldl_cons, ih merged nodup, degree_mergeFactor_of_nodup nodupAcc, degree_cons]
      by_cases named : key f.base = name
      · have absent : degree name fs = 0 := degree_eq_zero_of_notMem (by rwa [← named])
        simp [named, absent, clamp_val_of_inRange, Exponent.lower, Exponent.upper]
      · simp [named]

/-- The exponent of a name in a product is the sum of those in the factors, up to the bounds. -/
theorem degree_mul {p q : Product β} (hp : (names p.factors).Nodup) (hq : (names q.factors).Nodup) :
    degree name (p.mul q).factors
      = (clamp (degree name p.factors + degree name q.factors)).val := by
  have start : p.factors.foldl mergeFactor [] = [] ++ p.factors :=
    foldl_mergeFactor_of_nodup (by simpa using hp)
  rw [mul, ofFactors, merged, degree, total_filter, List.foldl_append, start]
  exact degree_foldl_mergeFactor_of_nodup hp hq

section InRange

variable {p q r : Product β}

theorem degree_mul_of_inRange (hp : (names p.factors).Nodup) (hq : (names q.factors).Nodup)
    (bound : (degree name p.factors + degree name q.factors).natAbs < 2147483648) :
    degree name (p.mul q).factors = degree name p.factors + degree name q.factors := by
  rw [degree_mul hp hq, clamp_val_of_natAbs_lt bound]

theorem degree_invert (hp : (names p.factors).Nodup)
    (bound : (degree name p.factors).natAbs < 2147483648) :
    degree name p.invert.factors = -degree name p.factors := by
  have opposite : degree name p.factors * Exponent.minusOne.val = -degree name p.factors :=
    Int.mul_neg_one _
  rw [invert, degree_power hp (by rwa [opposite, Int.natAbs_neg]), opposite]

/-- The degrees of a quotient are the differences of the degrees, as long as these are in range. -/
theorem degree_div (hp : (names p.factors).Nodup) (hq : (names q.factors).Nodup)
    (bound : (degree name p.factors).natAbs + (degree name q.factors).natAbs < 2147483648) :
    degree name (p.div q).factors = degree name p.factors - degree name q.factors := by
  have inverse : degree name q.invert.factors = -degree name q.factors :=
    degree_invert hq (by omega)
  have nodup : (names q.invert.factors).Nodup := (canonical_power _ _).nodup
  rw [div, degree_mul_of_inRange hp nodup (by omega), inverse, sub_eq_add_neg]

/-! ### Laws -/

/-- The order of two products does not matter, whether exponents stop at their bounds or not. -/
theorem agrees_mul_comm (hp : (names p.factors).Nodup) (hq : (names q.factors).Nodup) :
    (p.mul q).agrees (q.mul p) = true := by
  refine (agrees_iff_degree (canonical_mul p q) (canonical_mul q p)).mpr fun name => ?_
  rw [degree_mul hp hq, degree_mul hq hp, add_comm]

/-- Products are associative up to agreement, as long as no exponent leaves its range on the way. -/
theorem agrees_mul_assoc (hp : (names p.factors).Nodup) (hq : (names q.factors).Nodup)
    (hr : (names r.factors).Nodup)
    (bound : ∀ name, (degree name p.factors).natAbs + (degree name q.factors).natAbs
      + (degree name r.factors).natAbs < 2147483648) :
    ((p.mul q).mul r).agrees (p.mul (q.mul r)) = true := by
  refine (agrees_iff_degree (canonical_mul _ _) (canonical_mul _ _)).mpr fun name => ?_
  have inRange := bound name
  have first : degree name (p.mul q).factors = degree name p.factors + degree name q.factors :=
    degree_mul_of_inRange hp hq (by omega)
  have second : degree name (q.mul r).factors = degree name q.factors + degree name r.factors :=
    degree_mul_of_inRange hq hr (by omega)
  rw [degree_mul_of_inRange (canonical_mul p q).nodup hr (by omega),
    degree_mul_of_inRange hp (canonical_mul q r).nodup (by omega), first, second, add_assoc]

/-- To divide and then to multiply by the same product leads back, as long as the quotient stays in
range. -/
theorem agrees_div_mul (hp : p.Canonical) (hq : (names q.factors).Nodup)
    (bound : ∀ name,
      (degree name p.factors).natAbs + (degree name q.factors).natAbs < 2147483648) :
    ((p.div q).mul q).agrees p = true := by
  refine (agrees_iff_degree (canonical_mul _ _) hp).mpr fun name => ?_
  have inRange := bound name
  have quotient : degree name (p.div q).factors = degree name p.factors - degree name q.factors :=
    degree_div hp.nodup hq inRange
  have canonical : (p.div q).Canonical := canonical_mul p q.invert
  rw [degree_mul_of_inRange canonical.nodup hq (by omega), quotient, sub_add_cancel]

end InRange

/-! ### Totals of powers -/

omit [Keyed β] in
/-- A power multiplies what its factors add up to, as long as no exponent leaves its range. -/
theorem total_map_power {A : Type} [AddCommGroup A] (value : β → A) {fs : List (Factor β)}
    {e : Exponent} (bound : weigh (fun _ => 1) fs * e.val.natAbs < 2147483648) :
    total value (fs.map fun f => f.power e) = e.val • total value fs := by
  induction fs with
  | nil => simp
  | cons f fs ih =>
      rw [weigh_cons, Nat.mul_one, Nat.add_mul, ← Int.natAbs_mul] at bound
      have exact : (f.power e).exponent.val = f.exponent.val * e.val :=
        clamp_val_of_natAbs_lt (by omega)
      have base : (f.power e).base = f.base := rfl
      rw [List.map_cons, total_cons, total_cons, ih (by omega), exact, base, smul_add, smul_smul,
        mul_comm]

end Product

/-! ### Products of names -/

theorem Factor.agrees_iff_eq (f g : Factor String) : f.agrees g = true ↔ f = g := by
  obtain ⟨base, exponent⟩ := f
  obtain ⟨otherBase, otherExponent⟩ := g
  simp [Factor.agrees, Keyed.key]

theorem Product.agrees_self (p : Product String) : p.agrees p = true := by
  simp only [Product.agrees, Bool.and_eq_true, beq_self_eq_true, true_and, List.all_eq_true,
    List.any_eq_true, Factor.agrees_iff_eq]
  exact fun f mem => ⟨f, mem, rfl⟩

/-- Agreement is transitive, since it counts the names of one product among those of the other. -/
theorem Product.agrees_trans {p q r : Product String} (h : p.agrees q = true)
    (h' : q.agrees r = true) : p.agrees r = true := by
  simp only [Product.agrees, Bool.and_eq_true, beq_iff_eq, List.all_eq_true, List.any_eq_true,
    Factor.agrees_iff_eq] at h h' ⊢
  obtain ⟨size, found⟩ := h
  obtain ⟨size', found'⟩ := h'
  refine ⟨size.trans size', fun f hf => ?_⟩
  obtain ⟨g, hg, rfl⟩ := found f hf
  exact found' f hg

/-- Products of names agree exactly if they have the same factors in whatever order. -/
theorem Product.agrees_iff_perm {p q : Product String} (nodup : (Product.names p.factors).Nodup) :
    p.agrees q = true ↔ p.factors.Perm q.factors := by
  simp only [Product.agrees, Product.size, Bool.and_eq_true, beq_iff_eq, List.all_eq_true,
    List.any_eq_true, Factor.agrees_iff_eq]
  constructor
  · rintro ⟨length, found⟩
    have subset : p.factors ⊆ q.factors := by
      intro f hf
      obtain ⟨g, hg, rfl⟩ := found f hf
      exact hg
    have once : p.factors.Nodup := List.Nodup.of_map _ nodup
    exact (once.subperm subset).perm_of_length_le (Nat.le_of_eq length.symm)
  · intro perm
    exact ⟨perm.length_eq, fun f hf => ⟨f, perm.subset hf, rfl⟩⟩

end QuantityCalculus
