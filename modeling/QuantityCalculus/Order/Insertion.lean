/-
Module: QuantityCalculus.Order.Insertion
Layer: Order
Purpose: Stable sorting by insertion.  The lists that are sorted here are short.
Imports: none
Trusted boundary: none
Main exports: insertBy, sortBy, sortBy_perm
Open obligations: none
-/
namespace QuantityCalculus

/-- Inserts an element into a sorted list, before all elements that it is not greater than. -/
def insertBy {τ : Type} (le : τ → τ → Bool) (x : τ) : List τ → List τ
  | [] => [x]
  | y :: rest => if le x y then x :: y :: rest else y :: insertBy le x rest

/-- Sorts a list.  Elements that are not greater than each other keep their order. -/
def sortBy {τ : Type} (le : τ → τ → Bool) (xs : List τ) : List τ :=
  xs.foldr (insertBy le) []

theorem insertBy_perm {τ : Type} (le : τ → τ → Bool) (x : τ) (ys : List τ) :
    (insertBy le x ys).Perm (x :: ys) := by
  induction ys with
  | nil => exact .refl _
  | cons y ys ih =>
      rw [insertBy]
      split
      next => exact .refl _
      next => exact (ih.cons y).trans (.swap x y ys)

theorem sortBy_perm {τ : Type} (le : τ → τ → Bool) (xs : List τ) : (sortBy le xs).Perm xs := by
  induction xs with
  | nil => exact .refl _
  | cons x xs ih => exact (insertBy_perm le x _).trans (ih.cons x)

end QuantityCalculus
