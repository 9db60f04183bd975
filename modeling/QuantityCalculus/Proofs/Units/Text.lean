/-
Module: QuantityCalculus.Proofs.Units.Text
Layer: Proofs
Purpose: The text of a unit determines the unit: units that look the same are the same.
Imports: QuantityCalculus.Units.Text, QuantityCalculus.Proofs.Product.Text,
  QuantityCalculus.Proofs.Product.Algebra
Trusted boundary: none
Main exports: unit_texts_are_unambiguous
Open obligations: none
-/
import QuantityCalculus.Units.Text
import QuantityCalculus.Proofs.Product.Text
import QuantityCalculus.Proofs.Product.Algebra

namespace QuantityCalculus

section Units

variable {α : Type}

/-- The texts of two units are the same exactly if the names and exponents of the factors above the
bar are the same, in the same order, and those of the factors below the bar.  So two units with the
same text are the same: every name has the same exponent in both. -/
theorem unit_texts_are_unambiguous {u v : CompoundUnit α} (hu : Product.Canonical u)
    (hv : Product.Canonical v) (readableU : Product.Readable u) (readableV : Product.Readable v) :
    (u.text = v.text ↔ u.named.numerator = v.named.numerator
    ∧ u.named.negatives = v.named.negatives)
      ∧ (u.text = v.text → u.agrees v = true ∧ ∀ name, u.exponentOf name = v.exponentOf name) := by
  have textU : u.text = u.named.text "·" "/" := (Product.text_named u "·" "/").symm
  have textV : v.text = v.named.text "·" "/" := (Product.text_named v "·" "/").symm
  have texts : u.text = v.text
      ↔ u.named.numerator = v.named.numerator ∧ u.named.negatives = v.named.negatives := by
    rw [textU, textV]
    refine ⟨Product.eq_of_text readableU.named readableV.named, fun ⟨above, below⟩ => ?_⟩
    have denominators : u.named.denominator = v.named.denominator :=
      congrArg (List.map Factor.invert) below
    simp only [Product.text, above, denominators]
  refine ⟨texts, fun same => ?_⟩
  obtain ⟨above, below⟩ := texts.mp same
  have perm : u.named.factors.Perm v.named.factors := by
    have sides := hu.named.perm_sides.symm
    rw [above, below] at sides
    exact sides.trans hv.named.perm_sides
  have agree : u.agrees v = true := by
    refine (Product.agrees_iff_degree hu hv).mpr fun name => ?_
    rw [← Product.degree_named name u, ← Product.degree_named name v]
    exact (Product.agrees_iff_degree hu.named hv.named).mp
      ((Product.agrees_iff_perm hu.named.nodup).mpr perm) name
  exact ⟨agree, (Product.agrees_iff_exponentOf hu hv).mp agree⟩

end Units

/-! ### Metres per second squared and kelvin -/

section Gradient

theorem legible_metre : Legible "m" := ⟨by decide, by simp [separators], by simp [raisedChars]⟩

theorem legible_second : Legible "s" := ⟨by decide, by simp [separators], by simp [raisedChars]⟩

theorem legible_kelvin : Legible "K" := ⟨by decide, by simp [separators], by simp [raisedChars]⟩

/-- The factor `m`. -/
def metreFactor : Factor (NamedUnit Float) := ⟨.primitive (.ofSymbol "m") "Length", .one⟩

/-- The factor `s⁻²`. -/
def perSecondSquared : Factor (NamedUnit Float) :=
  ⟨.primitive (.ofSymbol "s") "Time", ⟨-2, by decide, by decide⟩⟩

/-- The factor `K⁻¹`. -/
def perKelvin : Factor (NamedUnit Float) := ⟨.primitive (.ofSymbol "K") "Temperature", .minusOne⟩

theorem readable_of_members {fs : List (Factor (NamedUnit Float))}
    (members : ∀ f ∈ fs, f = metreFactor ∨ f = perSecondSquared ∨ f = perKelvin) :
    Product.Readable ⟨fs⟩ := by
  intro f member
  rcases members f member with rfl | rfl | rfl
  · exact ⟨legible_metre, by decide⟩
  · exact ⟨legible_second, by decide⟩
  · exact ⟨legible_kelvin, by decide⟩

/-- Where the metre stands among the factors does not show in `m/(s²·K)`. -/
theorem gradients_look_alike :
    let u : CompoundUnit Float := ⟨[metreFactor, perSecondSquared, perKelvin]⟩
    let v : CompoundUnit Float := ⟨[perSecondSquared, metreFactor, perKelvin]⟩
    Product.Canonical u ∧ Product.Canonical v ∧ Product.Readable u ∧ Product.Readable v
      ∧ u.text = "m/(s²·K)" ∧ v.text = "m/(s²·K)"
      ∧ u.agrees v = true ∧ ∀ name, u.exponentOf name = v.exponentOf name := by
  intro u v
  have canonicalU : Product.Canonical u :=
    ⟨by decide,
      by simp [u, metreFactor, perSecondSquared, perKelvin, Exponent.one, Exponent.minusOne]⟩
  have canonicalV : Product.Canonical v :=
    ⟨by decide,
      by simp [v, metreFactor, perSecondSquared, perKelvin, Exponent.one, Exponent.minusOne]⟩
  have readableU : Product.Readable u := readable_of_members (by simp)
  have readableV : Product.Readable v := readable_of_members (by simp)
  have same := (unit_texts_are_unambiguous canonicalU canonicalV readableU readableV).2 rfl
  exact ⟨canonicalU, canonicalV, readableU, readableV, rfl, rfl, same⟩

end Gradient

end QuantityCalculus
