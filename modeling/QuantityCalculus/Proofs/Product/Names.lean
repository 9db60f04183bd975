/-
Module: QuantityCalculus.Proofs.Product.Names
Layer: Proofs
Purpose: Calculating with products depends on the names of the bases only, so it may be done on the
  names alone.
Imports: QuantityCalculus.Proofs.Product.Canonical
Trusted boundary: none
Main exports: Product.named, named_ofFactors, named_mul, named_power, named_ofProducts, degree_named
Open obligations: none
-/
import QuantityCalculus.Proofs.Product.Canonical

namespace QuantityCalculus

/-- A factor with its name in place of its base. -/
def Factor.named {β : Type} [Keyed β] (f : Factor β) : Factor String := ⟨key f.base, f.exponent⟩

namespace Product

variable {β : Type} [Keyed β]

/-- A product with the names of its bases in place of the bases. -/
def named (p : Product β) : Product String := ⟨p.factors.map Factor.named⟩

theorem names_map_named (fs : List (Factor β)) : names (fs.map Factor.named) = names fs := by
  induction fs with
  | nil => rfl
  | cons f fs ih =>
      rw [List.map_cons, names_cons, names_cons, ih]
      rfl

theorem degree_map_named (name : String) (fs : List (Factor β)) :
    degree name (fs.map Factor.named) = degree name fs := by
  induction fs with
  | nil => rfl
  | cons f fs ih =>
      rw [List.map_cons, degree_cons, degree_cons, ih]
      rfl

/-- Factors may be reduced to their names before they are merged or after. -/
theorem map_mergeFactor_named (fs : List (Factor β)) (f : Factor β) :
    (mergeFactor fs f).map Factor.named = mergeFactor (fs.map Factor.named) f.named := by
  induction fs with
  | nil => rfl
  | cons g fs ih =>
      rw [mergeFactor, List.map_cons, mergeFactor]
      by_cases same : key g.base = key f.base
      · have sameNamed : key g.named.base = key f.named.base := same
        rw [if_pos same, if_pos sameNamed]
        rfl
      · have otherNamed : key g.named.base ≠ key f.named.base := same
        rw [if_neg same, if_neg otherNamed, List.map_cons, ih]

theorem map_foldl_mergeFactor_named (acc fs : List (Factor β)) :
    (fs.foldl mergeFactor acc).map Factor.named
      = (fs.map Factor.named).foldl mergeFactor (acc.map Factor.named) := by
  induction fs generalizing acc with
  | nil => rfl
  | cons f fs ih => rw [List.foldl_cons, List.map_cons, List.foldl_cons, ih, map_mergeFactor_named]

theorem named_ofFactors (fs : List (Factor β)) :
    (ofFactors fs).named = ofFactors (fs.map Factor.named) := by
  have merging : (merged fs).map Factor.named = merged (fs.map Factor.named) :=
    map_foldl_mergeFactor_named [] fs
  rw [named, ofFactors, ofFactors, ← merging, List.filter_map]
  rfl

theorem named_mul (p q : Product β) : (p.mul q).named = p.named.mul q.named := by
  rw [mul, named_ofFactors, List.map_append]
  rfl

theorem named_power (p : Product β) (e : Exponent) : (p.power e).named = p.named.power e := by
  rw [power, named_ofFactors, power, named, List.map_map, List.map_map]
  rfl

/-- Products may be reduced to the names of their factors before they are multiplied or after. -/
theorem named_ofProducts (ps : List (Product β)) :
    (ofProducts ps).named = ofProducts (ps.map named) := by
  suffices general : ∀ acc : Product β,
      (ps.foldl mul acc).named = (ps.map named).foldl mul acc.named by
    exact general unity
  induction ps with
  | nil => intro acc; rfl
  | cons p ps ih =>
      intro acc
      rw [List.foldl_cons, ih, List.map_cons, List.foldl_cons, named_mul]

theorem degree_named (name : String) (p : Product β) :
    degree name p.named.factors = degree name p.factors := degree_map_named name p.factors

/-- A canonical product is canonical by its names alone. -/
theorem Canonical.named {p : Product β} (canonical : p.Canonical) : p.named.Canonical where
  nodup := by
    rw [Product.named, names_map_named]
    exact canonical.nodup
  nonzero := by
    intro f hf
    obtain ⟨g, hg, rfl⟩ := List.mem_map.mp hf
    exact canonical.nonzero g hg

end Product

end QuantityCalculus
