/-
Module: QuantityCalculus.Proofs.Order.Listing
Layer: Proofs
Purpose: Lists into which elements are put only if they are new, lists with some elements in front,
  and lists that are sorted.  All of them keep the order in which elements come first otherwise.
Imports: Mathlib.Data.List.Induction, QuantityCalculus.Units.Scheme
Trusted boundary: none
Main exports: mem_foldl_appendNew, exists_mem_foldl_appendNew, pairwise_foldl_appendNew,
  pairwise_findIdx_foldl_appendNew, findIdx_le_of_flatMap, preferring, preferring_eq_self_iff,
  RankedBefore, pairwise_sortBy_stable, pairwise_sortBy
Open obligations: none
-/
import Mathlib.Data.List.Induction
import QuantityCalculus.Units.Scheme

namespace QuantityCalculus

variable {τ : Type}

/-! ### Everything once -/

section Once

variable (same : τ → τ → Bool)

/-- An element is left out if it equals one that was seen, and comes last otherwise. -/
theorem appendNew_cases (seen : List τ) (x : τ) :
    (appendNew same seen x = seen ∧ ∃ y ∈ seen, same y x = true)
      ∨ (appendNew same seen x = seen ++ [x] ∧ ∀ y ∈ seen, same y x = false) := by
  rw [appendNew]
  split
  next known => exact .inl ⟨rfl, List.any_eq_true.mp known⟩
  next new => exact .inr ⟨rfl, by simpa using new⟩

/-- Only what is appended is in the list in the end. -/
theorem mem_foldl_appendNew {seen xs : List τ} {y : τ}
    (mem : y ∈ xs.foldl (appendNew same) seen) : y ∈ seen ∨ y ∈ xs := by
  induction xs generalizing seen with
  | nil => exact .inl mem
  | cons x xs ih =>
      rcases ih mem with before | after
      · rcases appendNew_cases same seen x with ⟨known, -⟩ | ⟨new, -⟩
        · exact .inl (by rwa [known] at before)
        · rw [new, List.mem_append, List.mem_singleton] at before
          rcases before with earlier | rfl
          · exact .inl earlier
          · exact .inr List.mem_cons_self
      · exact .inr (List.mem_cons_of_mem x after)

/-- What is in the list stays there. -/
theorem subset_foldl_appendNew (seen xs : List τ) : seen ⊆ xs.foldl (appendNew same) seen := by
  induction xs generalizing seen with
  | nil => exact List.Subset.refl _
  | cons x xs ih =>
      refine List.Subset.trans ?_ (ih _)
      rcases appendNew_cases same seen x with ⟨known, -⟩ | ⟨new, -⟩
      · rw [known]
        exact List.Subset.refl _
      · rw [new]
        exact List.subset_append_left _ _

/-- All that is appended, or the same as it, is in the list in the end. -/
theorem exists_mem_foldl_appendNew (reflexive : ∀ x, same x x = true) (seen : List τ)
    {xs : List τ} {x : τ} (mem : x ∈ xs) :
    ∃ y ∈ xs.foldl (appendNew same) seen, same y x = true := by
  induction xs generalizing seen with
  | nil => cases mem
  | cons z xs ih =>
      rcases List.mem_cons.mp mem with rfl | later
      · have kept := subset_foldl_appendNew same (appendNew same seen x) xs
        rcases appendNew_cases same seen x with ⟨known, y, before, alike⟩ | ⟨new, -⟩
        · exact ⟨y, kept (by rwa [known]), alike⟩
        · exact ⟨x, kept (by simp [new]), reflexive x⟩
      · exact ih _ later

/-- No two elements of the list are the same. -/
theorem pairwise_foldl_appendNew {seen : List τ} (xs : List τ)
    (distinct : seen.Pairwise fun x y => same x y = false) :
    (xs.foldl (appendNew same) seen).Pairwise fun x y => same x y = false := by
  induction xs generalizing seen with
  | nil => exact distinct
  | cons x xs ih =>
      refine ih ?_
      rcases appendNew_cases same seen x with ⟨known, -⟩ | ⟨new, others⟩
      · rwa [known]
      · rw [new, List.pairwise_append]
        exact ⟨distinct, List.pairwise_singleton _ _, by simpa using others⟩

/-- The list is in the order of first appearance: the first element that is the same as one of the
list comes before the first one that is the same as a later one of the list. -/
theorem pairwise_findIdx_foldl_appendNew (reflexive : ∀ x, same x x = true)
    (transitive : ∀ x y z, same x y = true → same y z = true → same x z = true) (xs : List τ) :
    (xs.foldl (appendNew same) []).Pairwise fun x y =>
      xs.findIdx (fun z => same z x) < xs.findIdx (fun z => same z y) := by
  induction xs using List.reverseRecOn with
  | nil => exact .nil
  | append_singleton xs x ih =>
      -- what is in the list already is found among the elements before the last one
      have found : ∀ y ∈ xs.foldl (appendNew same) [],
          xs.findIdx (fun z => same z y) < xs.length := by
        intro y mem
        have earlier := (mem_foldl_appendNew same mem).resolve_left List.not_mem_nil
        exact List.findIdx_lt_length.mpr ⟨y, earlier, reflexive y⟩
      have before : (xs.foldl (appendNew same) []).Pairwise fun y z =>
          (xs ++ [x]).findIdx (fun w => same w y) < (xs ++ [x]).findIdx (fun w => same w z) := by
        refine ih.imp_of_mem fun {y z} hy hz earlier => ?_
        rwa [List.findIdx_append, List.findIdx_append, if_pos (found y hy), if_pos (found z hz)]
      rw [List.foldl_append, List.foldl_cons, List.foldl_nil]
      rcases appendNew_cases same (xs.foldl (appendNew same) []) x with ⟨known, -⟩ | ⟨new, others⟩
      · rwa [known]
      · rw [new, List.pairwise_append]
        refine ⟨before, List.pairwise_singleton _ _, fun y hy z hz => ?_⟩
        rw [List.mem_singleton.mp hz]
        have absent : ¬xs.findIdx (fun z => same z x) < xs.length := by
          rw [List.findIdx_lt_length]
          rintro ⟨z, mem, alike⟩
          obtain ⟨w, listed, alike'⟩ := exists_mem_foldl_appendNew same reflexive [] mem
          exact Bool.false_ne_true ((others w listed).symm.trans (transitive w z x alike' alike))
        rw [List.findIdx_append, List.findIdx_append, if_pos (found y hy), if_neg absent]
        exact Nat.lt_of_lt_of_le (found y hy) (Nat.le_add_left _ _)

end Once

/-- Of two elements that come one after the other where lists are joined, the list of the first one
does not come after that of the other one. -/
theorem findIdx_le_of_flatMap {σ : Type} {f : σ → List τ} {p q : τ → Bool} {xs : List σ}
    (h : (xs.flatMap f).findIdx p < (xs.flatMap f).findIdx q) :
    xs.findIdx (fun x => (f x).any p) ≤ xs.findIdx (fun x => (f x).any q) := by
  induction xs with
  | nil => exact Nat.le_refl _
  | cons x xs ih =>
      have inside : ∀ r : τ → Bool, (f x).findIdx r < (f x).length ↔ (f x).any r = true := by
        intro r
        rw [List.findIdx_lt_length, List.any_eq_true]
      rw [List.flatMap_cons, List.findIdx_append, List.findIdx_append] at h
      simp only [inside] at h
      rw [List.findIdx_cons, List.findIdx_cons]
      cases first : (f x).any p with
      | true => exact Nat.zero_le _
      | false =>
          rw [first, if_neg Bool.false_ne_true] at h
          cases other : (f x).any q with
          | true =>
              have within := (inside q).mpr other
              rw [other, if_pos rfl] at h
              omega
          | false =>
              rw [other, if_neg Bool.false_ne_true] at h
              exact Nat.succ_le_succ (ih (Nat.lt_of_add_lt_add_right h))

/-! ### Some first -/

section Preferring

variable (p : τ → Bool)

/-- A list with the elements that have a property in front of the others. -/
def preferring (xs : List τ) : List τ := xs.filter p ++ xs.filter fun x => !p x

/-- Nothing changes exactly if these elements are in front already. -/
theorem preferring_eq_self_iff {xs : List τ} :
    preferring p xs = xs ↔ xs.Pairwise fun x y => p y = true → p x = true := by
  constructor
  · intro same
    rw [← same, preferring, List.pairwise_append]
    refine ⟨?_, ?_, fun x hx y _ _ => (List.mem_filter.mp hx).2⟩
    · exact List.pairwise_of_forall_mem_list fun x hx _ _ _ => (List.mem_filter.mp hx).2
    · refine List.pairwise_of_forall_mem_list fun _ _ y hy preferred => ?_
      simp [preferred] at hy
  · intro inFront
    induction xs with
    | nil => rfl
    | cons x xs ih =>
        obtain ⟨first, rest⟩ := List.pairwise_cons.mp inFront
        cases preferred : p x with
        | true =>
            have kept : preferring p (x :: xs) = x :: preferring p xs := by
              simp [preferring, preferred]
            rw [kept, ih rest]
        | false =>
            have none : ∀ y ∈ x :: xs, p y = false := by
              refine List.forall_mem_cons.mpr ⟨preferred, fun y hy => Bool.eq_false_iff.mpr ?_⟩
              exact fun later => Bool.false_ne_true (preferred.symm.trans (first y hy later))
            rw [preferring, List.filter_eq_nil_iff.mpr (by simpa using none),
              List.filter_eq_self.mpr (by simpa using none), List.nil_append]

theorem preferring_filter (q : τ → Bool) (xs : List τ) :
    preferring p (xs.filter q) = (preferring p xs).filter q := by
  simp only [preferring, List.filter_append, List.filter_filter, Bool.and_comm]

theorem preferring_map {σ : Type} (f : σ → τ) (xs : List σ) :
    preferring p (xs.map f) = (preferring (fun x => p (f x)) xs).map f := by
  simp only [preferring, List.filter_map, List.map_append, Function.comp_def]

end Preferring

/-! ### Sorting -/

/-- An element has a lower rank than another one, or the same rank and a relation to it. -/
def RankedBefore (rank : τ → Nat) (R : τ → τ → Prop) (a b : τ) : Prop :=
  rank a < rank b ∨ rank a = rank b ∧ R a b

instance (rank : τ → Nat) (R : τ → τ → Prop) [DecidableRel R] :
    DecidableRel (RankedBefore rank R) :=
  fun _ _ => inferInstanceAs (Decidable (_ ∨ _))

section Ranked

variable {R : τ → τ → Prop} (rank : τ → Nat) {x : τ} {xs ys : List τ}

theorem RankedBefore.le {rank : τ → Nat} {a b : τ} (h : RankedBefore rank R a b) :
    rank a ≤ rank b := by
  rcases h with less | ⟨equal, -⟩
  · exact Nat.le_of_lt less
  · exact Nat.le_of_eq equal

theorem RankedBefore.of_le {rank : τ → Nat} {a b : τ} (le : rank a ≤ rank b) (related : R a b) :
    RankedBefore rank R a b := by
  rcases Nat.lt_or_eq_of_le le with less | equal
  · exact .inl less
  · exact .inr ⟨equal, related⟩

/-- An element that comes before all others is inserted before those of the same rank. -/
theorem pairwise_insertBy (before : ∀ y ∈ ys, R x y) (sorted : ys.Pairwise (RankedBefore rank R)) :
    (insertBy (fun a b => rank a ≤ rank b) x ys).Pairwise (RankedBefore rank R) := by
  induction ys with
  | nil => exact List.pairwise_singleton _ _
  | cons y ys ih =>
      obtain ⟨above, sorted⟩ := List.pairwise_cons.mp sorted
      rw [insertBy]
      split
      next low =>
        have le : rank x ≤ rank y := of_decide_eq_true low
        refine List.pairwise_cons.mpr ⟨fun z hz => ?_, List.pairwise_cons.mpr ⟨above, sorted⟩⟩
        rcases List.mem_cons.mp hz with rfl | later
        · exact .of_le le (before z hz)
        · exact .of_le (Nat.le_trans le (above z later).le) (before z hz)
      next high =>
        have less : rank y < rank x := by simpa using high
        have rest := ih (fun z hz => before z (List.mem_cons_of_mem y hz)) sorted
        refine List.pairwise_cons.mpr ⟨fun z hz => ?_, rest⟩
        rcases List.mem_cons.mp ((insertBy_perm _ x ys).mem_iff.mp hz) with rfl | later
        · exact .inl less
        · exact above z later

/-- Elements of the same rank keep their order. -/
theorem pairwise_sortBy_stable (h : xs.Pairwise R) :
    (sortBy (fun a b => rank a ≤ rank b) xs).Pairwise (RankedBefore rank R) := by
  induction xs with
  | nil => exact .nil
  | cons x xs ih =>
      obtain ⟨before, later⟩ := List.pairwise_cons.mp h
      refine pairwise_insertBy rank (fun y hy => ?_) (ih later)
      exact before y ((sortBy_perm _ xs).mem_iff.mp hy)

/-- Elements are sorted by a number that each of them has. -/
theorem pairwise_sortBy (xs : List τ) :
    (sortBy (fun a b => rank a ≤ rank b) xs).Pairwise fun a b => rank a ≤ rank b := by
  have unrelated : xs.Pairwise fun _ _ => True := List.pairwise_of_forall fun _ _ => trivial
  exact (pairwise_sortBy_stable rank unrelated).imp RankedBefore.le

end Ranked

end QuantityCalculus
