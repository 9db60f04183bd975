/-
Module: QuantityCalculus.Proofs.Product.Degree
Layer: Proofs
Purpose: The exponents of names in lists of factors, counted in unbounded integers, and what merging
  does to them.  Lists are weighed by the absolute values of their exponents; where the weights stay
  below the range of an exponent, no exponent stops at its bounds and merging keeps every count.
Imports: Mathlib, QuantityCalculus.Product.Basic
Trusted boundary: none
Main exports: Product.total, Product.weigh, Product.degree, Product.spread, total_eq_of_degree,
  degree_foldl_mergeFactor, weigh_foldl_mergeFactor_le
Open obligations: none
-/
import Mathlib
import QuantityCalculus.Product.Basic

namespace QuantityCalculus

namespace Exponent

/-- Stopping at the bounds never takes an integer further from zero. -/
theorem natAbs_clamp_le (n : Int) : (clamp n).val.natAbs ≤ n.natAbs := by
  simp only [clamp]
  split
  · simp only [minimum]
    omega
  · split
    · simp only [maximum]
      omega
    · rfl

theorem clamp_val_of_natAbs_lt {n : Int} (h : n.natAbs < 2147483648) : (clamp n).val = n :=
  clamp_val_of_inRange (by omega) (by omega)

theorem one_mul (e : Exponent) : one.mul e = e := by
  have value : one.val * e.val = e.val := Int.one_mul _
  exact ext_val (by rw [mul, value, clamp_val_of_inRange e.lower e.upper])

end Exponent

namespace Product

variable {β : Type} {A : Type} [AddCommGroup A]

/-- What factors add up to if every base contributes a value of its own, as many times as its
exponent says. -/
def total (value : β → A) (fs : List (Factor β)) : A :=
  (fs.map fun f => f.exponent.val • value f.base).sum

/-- What the absolute values of the exponents add up to if every base has a weight of its own. -/
def weigh (weight : β → Nat) (fs : List (Factor β)) : Nat :=
  (fs.map fun f => f.exponent.val.natAbs * weight f.base).sum

section Sums

variable (value : β → A) (weight : β → Nat)

@[simp] theorem total_nil : total value [] = 0 := rfl

@[simp] theorem total_cons (f : Factor β) (fs : List (Factor β)) :
    total value (f :: fs) = f.exponent.val • value f.base + total value fs := by
  simp [total]

@[simp] theorem total_append (fs gs : List (Factor β)) :
    total value (fs ++ gs) = total value fs + total value gs := by
  simp [total]

@[simp] theorem weigh_nil : weigh weight [] = 0 := rfl

@[simp] theorem weigh_cons (f : Factor β) (fs : List (Factor β)) :
    weigh weight (f :: fs) = f.exponent.val.natAbs * weight f.base + weigh weight fs := by
  simp [weigh]

@[simp] theorem weigh_append (fs gs : List (Factor β)) :
    weigh weight (fs ++ gs) = weigh weight fs + weigh weight gs := by
  simp [weigh]

/-- Only the bases that occur count. -/
theorem total_congr {value other : β → A} {fs : List (Factor β)}
    (h : ∀ f ∈ fs, value f.base = other f.base) : total value fs = total other fs := by
  unfold total
  exact congrArg List.sum (List.map_congr_left fun f hf => by rw [h f hf])

theorem weigh_congr {weight other : β → Nat} {fs : List (Factor β)}
    (h : ∀ f ∈ fs, weight f.base = other f.base) : weigh weight fs = weigh other fs := by
  unfold weigh
  exact congrArg List.sum (List.map_congr_left fun f hf => by rw [h f hf])

theorem weigh_mono {weight other : β → Nat} {fs : List (Factor β)}
    (h : ∀ f ∈ fs, weight f.base ≤ other f.base) : weigh weight fs ≤ weigh other fs := by
  unfold weigh
  exact List.sum_le_sum fun f hf => Nat.mul_le_mul_left _ (h f hf)

/-- What has no value does not count. -/
theorem total_eq_zero {value : β → A} {fs : List (Factor β)} (h : ∀ f ∈ fs, value f.base = 0) :
    total value fs = 0 := by
  unfold total
  apply List.sum_eq_zero
  intro x hx
  obtain ⟨f, hf, rfl⟩ := List.mem_map.mp hx
  rw [h f hf, smul_zero]

theorem weigh_zero (fs : List (Factor β)) : weigh (fun _ => 0) fs = 0 := by
  simp [weigh]

/-- A factor with an exponent weighs no more than the list that it stands in. -/
theorem weight_le_weigh {fs : List (Factor β)} {f : Factor β} (member : f ∈ fs) :
    f.exponent.val.natAbs * weight f.base ≤ weigh weight fs := by
  unfold weigh
  exact List.le_sum_of_mem (List.mem_map_of_mem member)

/-- A sum of integers is bounded by the weight of what is summed up. -/
theorem natAbs_total_le (value : β → Int) (fs : List (Factor β)) :
    (total value fs).natAbs ≤ weigh (fun b => (value b).natAbs) fs := by
  induction fs with
  | nil => simp
  | cons f fs ih =>
      rw [total_cons, weigh_cons, smul_eq_mul]
      have step := Int.natAbs_add_le (f.exponent.val * value f.base) (total value fs)
      rw [Int.natAbs_mul] at step
      omega

/-- Factors with the exponent zero do not count. -/
theorem total_filter (fs : List (Factor β)) :
    total value (fs.filter fun f => f.exponent.val ≠ 0) = total value fs := by
  induction fs with
  | nil => rfl
  | cons f fs ih =>
      by_cases zero : f.exponent.val = 0
      · simpa [zero] using ih
      · simpa [zero] using ih

/-- Factors with the exponent zero weigh nothing. -/
theorem weigh_filter (fs : List (Factor β)) :
    weigh weight (fs.filter fun f => f.exponent.val ≠ 0) = weigh weight fs := by
  induction fs with
  | nil => rfl
  | cons f fs ih =>
      by_cases zero : f.exponent.val = 0
      · simpa [zero] using ih
      · simpa [zero] using ih

end Sums

/-! ### Exponents of names -/

variable [Keyed β]

/-- Whether a base has a given name, as a number. -/
def indicator (name : String) (b : β) : Int := if key b = name then 1 else 0

/-- The exponent of a name in a list of factors. -/
def degree (name : String) (fs : List (Factor β)) : Int := total (indicator name) fs

/-- The absolute values of the exponents of a name in a list of factors. -/
def spread (name : String) (fs : List (Factor β)) : Nat :=
  weigh (fun b => (indicator name b).natAbs) fs

theorem degree_cons (name : String) (f : Factor β) (fs : List (Factor β)) :
    degree name (f :: fs) = (if key f.base = name then f.exponent.val else 0) + degree name fs := by
  simp [degree, indicator]

theorem spread_cons (name : String) (f : Factor β) (fs : List (Factor β)) :
    spread name (f :: fs)
      = (if key f.base = name then f.exponent.val.natAbs else 0) + spread name fs := by
  by_cases h : key f.base = name <;> simp [spread, indicator, h]

theorem natAbs_degree_le (name : String) (fs : List (Factor β)) :
    (degree name fs).natAbs ≤ spread name fs := natAbs_total_le _ fs

/-- If every base has a weight, then a name of some weight is spread no further than the whole list
weighs. -/
theorem spread_le_weigh {name : String} {weight : β → Nat} {fs : List (Factor β)}
    (h : ∀ f ∈ fs, key f.base = name → 1 ≤ weight f.base) : spread name fs ≤ weigh weight fs := by
  apply weigh_mono
  intro f hf
  by_cases same : key f.base = name
  · simpa [indicator, same] using h f hf same
  · simp [indicator, same]

/-- A name is spread no further than all exponents together. -/
theorem spread_le_weigh_one (name : String) (fs : List (Factor β)) :
    spread name fs ≤ weigh (fun _ => 1) fs :=
  spread_le_weigh fun _ _ _ => le_rfl

/-- All exponents of a list of factors together, by name. -/
noncomputable def exponents (fs : List (Factor β)) : String →₀ Int :=
  total (fun b => Finsupp.single (key b) (1 : Int)) fs

/-- The exponents by name are the degrees. -/
theorem exponents_apply (fs : List (Factor β)) (name : String) :
    exponents fs name = degree name fs := by
  induction fs with
  | nil => rfl
  | cons f fs ih =>
      simp only [exponents, degree] at ih
      simp [exponents, degree, ih, indicator, Finsupp.single_apply]

/-- A total over values of names is a linear function of the exponents of the names. -/
theorem total_key (value : String → A) (fs : List (Factor β)) :
    total (fun b => value (key b)) fs = Finsupp.linearCombination Int value (exponents fs) := by
  induction fs with
  | nil => simp [exponents]
  | cons f fs ih =>
      simp only [exponents] at ih
      simp [exponents, ih]

/-- Only the exponents of the names that count matter. -/
theorem combination_congr {value : String → A} {x y : String →₀ Int}
    (h : ∀ name, value name ≠ 0 → x name = y name) :
    Finsupp.linearCombination Int value x = Finsupp.linearCombination Int value y := by
  rw [← sub_eq_zero, ← map_sub, Finsupp.linearCombination_apply]
  apply Finset.sum_eq_zero
  intro name _
  by_cases counts : value name = 0
  · simp [counts]
  · simp [h name counts]

/-- Lists of factors in which the names that count have the same exponents have the same total. -/
theorem total_eq_of_degree {γ : Type} [Keyed γ] {value : String → A} {fs : List (Factor β)}
    {gs : List (Factor γ)} (h : ∀ name, value name ≠ 0 → degree name fs = degree name gs) :
    total (fun b => value (key b)) fs = total (fun b => value (key b)) gs := by
  rw [total_key, total_key]
  refine combination_congr fun name counts => ?_
  rw [exponents_apply, exponents_apply, h name counts]

/-! ### Merging -/

/-- The names of a list of factors. -/
def names (fs : List (Factor β)) : List String := fs.map fun f => key f.base

@[simp] theorem names_nil : names ([] : List (Factor β)) = [] := rfl

@[simp] theorem names_cons (f : Factor β) (fs : List (Factor β)) :
    names (f :: fs) = key f.base :: names fs := rfl

@[simp] theorem names_append (fs gs : List (Factor β)) :
    names (fs ++ gs) = names fs ++ names gs := List.map_append

theorem nodup_names_singleton (f : Factor β) : (names [f]).Nodup := List.nodup_singleton _

/-- A name that does not occur has the degree zero. -/
theorem degree_eq_zero_of_notMem {name : String} {fs : List (Factor β)} (h : name ∉ names fs) :
    degree name fs = 0 := by
  induction fs with
  | nil => rfl
  | cons f fs ih =>
      simp only [names_cons, List.mem_cons, not_or] at h
      rw [degree_cons, if_neg (Ne.symm h.1), ih h.2, add_zero]

/-- Where every name stands once, the exponent of a factor is that of its name. -/
theorem degree_eq_of_mem {fs : List (Factor β)} (nodup : (names fs).Nodup) {f : Factor β}
    (member : f ∈ fs) : degree (key f.base) fs = f.exponent.val := by
  induction fs with
  | nil => cases member
  | cons g fs ih =>
      simp only [names_cons, List.nodup_cons] at nodup
      rw [degree_cons]
      rcases List.mem_cons.mp member with rfl | inTail
      · rw [if_pos rfl, degree_eq_zero_of_notMem nodup.1, add_zero]
      · have other : key g.base ≠ key f.base := fun same =>
          nodup.1 (same ▸ List.mem_map_of_mem inTail)
        rw [if_neg other, ih nodup.2 inTail, zero_add]

/-- If no name occurs twice, no exponents cancel. -/
theorem spread_eq_natAbs_degree {fs : List (Factor β)} (nodup : (names fs).Nodup)
    (name : String) : spread name fs = (degree name fs).natAbs := by
  induction fs with
  | nil => rfl
  | cons f fs ih =>
      simp only [names_cons, List.nodup_cons] at nodup
      rw [spread_cons, degree_cons, ih nodup.2]
      by_cases same : key f.base = name
      · have absent : degree name fs = 0 := degree_eq_zero_of_notMem (same ▸ nodup.1)
        simp [same, absent]
      · simp [same]

/-- A merged factor adds no more than its own weight. -/
theorem weigh_mergeFactor_le (weight : String → Nat) (fs : List (Factor β)) (f : Factor β) :
    weigh (fun b => weight (key b)) (mergeFactor fs f)
      ≤ weigh (fun b => weight (key b)) fs + f.exponent.val.natAbs * weight (key f.base) := by
  induction fs with
  | nil => simp [mergeFactor]
  | cons g fs ih =>
      simp only [mergeFactor]
      split
      next same =>
        have shorter : (g.exponent.add f.exponent).val.natAbs
            ≤ g.exponent.val.natAbs + f.exponent.val.natAbs :=
          (Exponent.natAbs_clamp_le _).trans (Int.natAbs_add_le _ _)
        have scaled := Nat.mul_le_mul_right (weight (key f.base)) shorter
        rw [Nat.add_mul] at scaled
        simp only [weigh_cons, same]
        omega
      next other =>
        simp only [weigh_cons]
        omega

/-- A merged factor adds its own degree, as long as the sum is in range. -/
theorem degree_mergeFactor {name : String} {fs : List (Factor β)} {f : Factor β}
    (bound : spread name fs + spread name [f] < 2147483648) :
    degree name (mergeFactor fs f) = degree name fs + degree name [f] := by
  induction fs with
  | nil => simp [mergeFactor, degree]
  | cons g fs ih =>
      rw [spread_cons] at bound
      simp only [mergeFactor]
      split
      next same =>
        rw [spread_cons, same] at bound
        simp only [degree_cons, same]
        by_cases named : key f.base = name
        · simp only [if_pos named] at bound ⊢
          have sum : (g.exponent.add f.exponent).val = g.exponent.val + f.exponent.val :=
            Exponent.clamp_val_of_natAbs_lt (by omega)
          rw [sum]
          simp only [degree, total_nil]
          omega
        · simp [named, degree]
      next other =>
        rw [degree_cons, degree_cons, ih (by omega), add_assoc]

/-- Merged factors add no more than their own weights. -/
theorem weigh_foldl_mergeFactor_le (weight : String → Nat) (acc fs : List (Factor β)) :
    weigh (fun b => weight (key b)) (fs.foldl mergeFactor acc)
      ≤ weigh (fun b => weight (key b)) acc + weigh (fun b => weight (key b)) fs := by
  induction fs generalizing acc with
  | nil => simp
  | cons f fs ih =>
      have step := weigh_mergeFactor_le weight acc f
      have rest := ih (mergeFactor acc f)
      rw [List.foldl_cons, weigh_cons]
      omega

/-- Merged factors add their own degrees, as long as all partial sums are in range. -/
theorem degree_foldl_mergeFactor {name : String} (acc fs : List (Factor β))
    (bound : spread name acc + spread name fs < 2147483648) :
    degree name (fs.foldl mergeFactor acc) = degree name acc + degree name fs := by
  induction fs generalizing acc with
  | nil => simp [degree]
  | cons f fs ih =>
      have single : spread name (f :: fs) = spread name [f] + spread name fs :=
        weigh_append _ [f] fs
      have heavier : spread name (mergeFactor acc f) ≤ spread name acc + spread name [f] := by
        have step :=
          weigh_mergeFactor_le (fun k => (if k = name then (1 : Int) else 0).natAbs) acc f
        simpa [spread, indicator] using step
      rw [List.foldl_cons, ih _ (by omega), degree_mergeFactor (by omega), degree_cons name f fs,
        degree_cons name f []]
      simp [degree, add_assoc]

/-- A merged factor brings its name along if that is new. -/
theorem names_mergeFactor (fs : List (Factor β)) (f : Factor β) :
    names (mergeFactor fs f)
      = if key f.base ∈ names fs then names fs else names fs ++ [key f.base] := by
  induction fs with
  | nil => simp [mergeFactor, names]
  | cons g fs ih =>
      simp only [mergeFactor]
      by_cases same : key g.base = key f.base
      · simp [same]
      · rw [if_neg same, names_cons, names_cons, ih]
        by_cases old : key f.base ∈ names fs
        · rw [if_pos old, if_pos (List.mem_cons_of_mem _ old)]
        · rw [if_neg old, if_neg (by simp [Ne.symm same, old]), List.cons_append]

/-- Merging lets no name occur twice. -/
theorem nodup_foldl_mergeFactor (acc fs : List (Factor β)) (nodup : (names acc).Nodup) :
    (names (fs.foldl mergeFactor acc)).Nodup := by
  induction fs generalizing acc with
  | nil => exact nodup
  | cons f fs ih =>
      apply ih _
      rw [names_mergeFactor]
      split
      next => exact nodup
      next fresh =>
        exact (List.nodup_cons.mpr ⟨fresh, nodup⟩).perm (List.perm_append_singleton _ _).symm

/-- A factor with a new name comes last. -/
theorem mergeFactor_of_notMem {fs : List (Factor β)} {f : Factor β}
    (fresh : key f.base ∉ names fs) : mergeFactor fs f = fs ++ [f] := by
  induction fs with
  | nil => rfl
  | cons g fs ih =>
      simp only [names_cons, List.mem_cons, not_or] at fresh
      rw [mergeFactor, if_neg (Ne.symm fresh.1), ih fresh.2, List.cons_append]

/-- Where every name stands once, there is nothing to merge. -/
theorem foldl_mergeFactor_of_nodup {acc fs : List (Factor β)} (nodup : (names (acc ++ fs)).Nodup) :
    fs.foldl mergeFactor acc = acc ++ fs := by
  induction fs generalizing acc with
  | nil => simp
  | cons f fs ih =>
      have fresh : key f.base ∉ names acc := by
        simp only [names_append, names_cons, List.nodup_append] at nodup
        exact fun old => nodup.2.2 _ old _ List.mem_cons_self rfl
      rw [List.foldl_cons, mergeFactor_of_notMem fresh, ih (by simpa using nodup)]
      simp

/-- A merged factor brings in no other base than its own. -/
theorem base_mem_mergeFactor {fs : List (Factor β)} {f g : Factor β} (h : g ∈ mergeFactor fs f) :
    g.base = f.base ∨ ∃ e ∈ fs, g.base = e.base := by
  induction fs with
  | nil =>
      rw [mergeFactor, List.mem_singleton] at h
      exact .inl (by rw [h])
  | cons e fs ih =>
      simp only [mergeFactor] at h
      split at h
      · rcases List.mem_cons.mp h with rfl | inTail
        · exact .inr ⟨e, List.mem_cons_self, rfl⟩
        · exact .inr ⟨g, List.mem_cons_of_mem _ inTail, rfl⟩
      · rcases List.mem_cons.mp h with rfl | inTail
        · exact .inr ⟨g, List.mem_cons_self, rfl⟩
        · rcases ih inTail with same | ⟨d, hd, same⟩
          · exact .inl same
          · exact .inr ⟨d, List.mem_cons_of_mem _ hd, same⟩

/-- Merged factors bring in no other bases than their own. -/
theorem base_mem_foldl_mergeFactor {acc fs : List (Factor β)} {g : Factor β}
    (h : g ∈ fs.foldl mergeFactor acc) : ∃ e ∈ acc ++ fs, g.base = e.base := by
  induction fs generalizing acc with
  | nil => exact ⟨g, by simpa using h, rfl⟩
  | cons f fs ih =>
      obtain ⟨e, he, same⟩ := ih h
      rcases List.mem_append.mp he with old | later
      · rcases base_mem_mergeFactor old with now | ⟨d, hd, before⟩
        · exact ⟨f, by simp, same.trans now⟩
        · exact ⟨d, by simp [hd], same.trans before⟩
      · exact ⟨e, by simp [later], same⟩

end Product

end QuantityCalculus
