/-
Module: QuantityCalculus.Proofs.Numeral.Grammar
Layer: Proofs
Purpose: The grammar of number literals without separators, as a regular expression, and the words
  of its rules.
Imports: Mathlib.Computability.RegularExpressions, Mathlib.Tactic.IntervalCases,
  QuantityCalculus.Numeral.Literal
Trusted boundary: none
Main exports: Numeral.numeral, mem_letters, mem_digits_iff, mem_mantissa_iff,
  inspected_of_mem_numeral
Open obligations: none
-/
import Mathlib.Computability.RegularExpressions
import Mathlib.Tactic.IntervalCases
import QuantityCalculus.Numeral.Literal

namespace QuantityCalculus

open RegularExpression

namespace Numeral

/-! ### The grammar -/

/-- A single character of a list. -/
def oneOf (cs : List Char) : RegularExpression Char := (cs.map char).foldr (· + ·) 0

/-- What may be left out. -/
def optional (r : RegularExpression Char) : RegularExpression Char := 1 + r

def sign : RegularExpression Char := optional (oneOf ['+', '-'])

def digit : RegularExpression Char := oneOf ['0', '1', '2', '3', '4', '5', '6', '7', '8', '9']

/-- At least one digit. -/
def digits : RegularExpression Char := digit * digit.star

/-- Digits with at most one point, and at least one digit on either side of it. -/
def mantissa : RegularExpression Char :=
  digits * optional (char '.' * digit.star) + char '.' * digits

/-- A power of ten. -/
def power : RegularExpression Char := oneOf ['e', 'E'] * (sign * digits)

/-- The literals without separators. -/
def numeral : RegularExpression Char := sign * (mantissa * optional power)

/-- The characters that words of a regular expression may have in them. -/
def letters : RegularExpression Char → List Char
  | .zero => []
  | .epsilon => []
  | .char c => [c]
  | .plus p q => letters p ++ letters q
  | .comp p q => letters p ++ letters q
  | .star p => letters p

/-- The words of an expression are made of its letters. -/
theorem mem_letters {r : RegularExpression Char} {w : List Char} (word : w ∈ r.matches') :
    ∀ c ∈ w, c ∈ letters r := by
  induction r generalizing w with
  | zero => cases word
  | epsilon =>
      cases word
      exact fun c hc => absurd hc List.not_mem_nil
  | char a =>
      cases word
      exact fun c hc => hc
  | plus p q hp hq =>
      intro c hc
      rw [letters, List.mem_append]
      rcases word with left | right
      · exact .inl (hp left c hc)
      · exact .inr (hq right c hc)
  | comp p q hp hq =>
      obtain ⟨u, hu, v, hv, rfl⟩ := Language.mem_mul.mp word
      intro c hc
      rw [letters, List.mem_append]
      rcases List.mem_append.mp hc with left | right
      · exact .inl (hp hu c left)
      · exact .inr (hq hv c right)
  | star p hp =>
      obtain ⟨words, rfl, each⟩ := Language.mem_kstar.mp word
      intro c hc
      obtain ⟨u, hu, inside⟩ := List.mem_flatten.mp hc
      exact hp (each u hu) c inside

/-! ### Words of single rules -/

variable {w : List Char} {r : RegularExpression Char}

/-- A choice of characters has the words of one of them. -/
theorem mem_oneOf_iff {cs : List Char} : w ∈ (oneOf cs).matches' ↔ ∃ c ∈ cs, w = [c] := by
  induction cs with
  | nil =>
      constructor
      · intro word
        cases word
      · rintro ⟨c, none, -⟩
        cases none
  | cons c cs ih =>
      have split : w ∈ (oneOf (c :: cs)).matches' ↔ w = [c] ∨ w ∈ (oneOf cs).matches' := Iff.rfl
      rw [split, ih, List.exists_mem_cons_iff]

theorem mem_optional_iff : w ∈ (optional r).matches' ↔ w = [] ∨ w ∈ r.matches' := Iff.rfl

/-- There are ten digits. -/
theorem isDigit_iff {c : Char} :
    c.isDigit = true ↔ c ∈ ['0', '1', '2', '3', '4', '5', '6', '7', '8', '9'] := by
  constructor
  · intro isDigit
    obtain ⟨low, high⟩ := Char.isDigit_iff_toNat.mp isDigit
    rw [← Char.ofNat_toNat c]
    generalize c.toNat = code at low high
    have from48 : 48 ≤ code := low
    have upTo57 : code ≤ 57 := high
    interval_cases code <;> decide
  · have digits : ['0', '1', '2', '3', '4', '5', '6', '7', '8', '9'].all Char.isDigit = true := rfl
    exact List.all_eq_true.mp digits c

theorem mem_digit_iff : w ∈ digit.matches' ↔ ∃ c, c.isDigit = true ∧ w = [c] := by
  simp only [isDigit_iff]
  exact mem_oneOf_iff

/-- Any digits in a row are a word, also none. -/
theorem mem_star_digit_iff : w ∈ digit.star.matches' ↔ ∀ c ∈ w, c.isDigit = true := by
  constructor
  · intro word
    obtain ⟨words, rfl, each⟩ := Language.mem_kstar.mp word
    intro c hc
    obtain ⟨u, hu, inside⟩ := List.mem_flatten.mp hc
    obtain ⟨d, isDigit, rfl⟩ := mem_digit_iff.mp (each u hu)
    rwa [List.mem_singleton.mp inside]
  · intro all
    refine Language.mem_kstar.mpr ⟨w.map fun c => [c], (List.flatMap_singleton' w).symm, ?_⟩
    intro u hu
    obtain ⟨c, hc, rfl⟩ := List.mem_map.mp hu
    exact mem_digit_iff.mpr ⟨c, all c hc, rfl⟩

/-- At least one digit has to be there. -/
theorem mem_digits_iff : w ∈ digits.matches' ↔ w ≠ [] ∧ ∀ c ∈ w, c.isDigit = true := by
  constructor
  · intro word
    obtain ⟨u, first, v, rest, rfl⟩ := Language.mem_mul.mp word
    obtain ⟨c, isDigit, rfl⟩ := mem_digit_iff.mp first
    exact ⟨List.cons_ne_nil _ _, List.forall_mem_cons.mpr ⟨isDigit, mem_star_digit_iff.mp rest⟩⟩
  · rintro ⟨nonempty, all⟩
    cases w with
    | nil => exact absurd rfl nonempty
    | cons c cs =>
        obtain ⟨first, rest⟩ := List.forall_mem_cons.mp all
        exact Language.mem_mul.mpr
          ⟨[c], mem_digit_iff.mpr ⟨c, first, rfl⟩, cs, mem_star_digit_iff.mpr rest, rfl⟩

/-- A mantissa consists of digits, or of digits around a point, of which there is at least one. -/
theorem mem_mantissa_iff : w ∈ mantissa.matches' ↔ ∃ ds, (∀ c ∈ ds, c.isDigit = true)
    ∧ ((ds ≠ [] ∧ w = ds)
      ∨ ∃ fs, (∀ c ∈ fs, c.isDigit = true) ∧ (ds ≠ [] ∨ fs ≠ []) ∧ w = ds ++ '.' :: fs) := by
  constructor
  · rintro (whole | fraction)
    · obtain ⟨ds, hds, tail, htail, rfl⟩ := Language.mem_mul.mp whole
      obtain ⟨nonempty, all⟩ := mem_digits_iff.mp hds
      rcases htail with none | pointed
      · obtain rfl : tail = [] := none
        exact ⟨ds, all, .inl ⟨nonempty, List.append_nil ds⟩⟩
      · obtain ⟨_, ⟨⟩, fs, hfs, rfl⟩ := Language.mem_mul.mp pointed
        exact ⟨ds, all, .inr ⟨fs, mem_star_digit_iff.mp hfs, .inl nonempty, rfl⟩⟩
    · obtain ⟨_, ⟨⟩, fs, hfs, rfl⟩ := Language.mem_mul.mp fraction
      obtain ⟨nonempty, all⟩ := mem_digits_iff.mp hfs
      exact ⟨[], List.forall_mem_nil _, .inr ⟨fs, all, .inr nonempty, rfl⟩⟩
  · rintro ⟨ds, all, ⟨nonempty, rfl⟩ | ⟨fs, allBehind, some, rfl⟩⟩
    · exact .inl (Language.mem_mul.mpr
        ⟨w, mem_digits_iff.mpr ⟨nonempty, all⟩, [], .inl rfl, List.append_nil w⟩)
    · by_cases none : ds = []
      · subst none
        have behind := mem_digits_iff.mpr ⟨some.resolve_left fun h => h rfl, allBehind⟩
        exact .inr (Language.mem_mul.mpr ⟨['.'], rfl, fs, behind, rfl⟩)
      · have pointed : '.' :: fs ∈ (char '.' * digit.star).matches' :=
          Language.mem_mul.mpr ⟨['.'], rfl, fs, mem_star_digit_iff.mpr allBehind, rfl⟩
        exact .inl (Language.mem_mul.mpr
          ⟨ds, mem_digits_iff.mpr ⟨none, all⟩, _, .inr pointed, rfl⟩)

/-- The words of the grammar pass the inspection of their characters. -/
theorem inspected_of_mem_numeral (word : w ∈ numeral.matches') :
    w ≠ [] ∧ w.all Decimal.isNumeralChar = true := by
  constructor
  · rintro rfl
    have empty : numeral.rmatch [] = true := (rmatch_iff_matches' numeral []).mpr word
    cases empty
  · have inspected : (letters numeral).all Decimal.isNumeralChar = true := rfl
    exact List.all_eq_true.mpr fun c hc => List.all_eq_true.mp inspected c (mem_letters word c hc)

end Numeral

end QuantityCalculus
