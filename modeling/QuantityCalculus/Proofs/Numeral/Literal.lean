/-
Module: QuantityCalculus.Proofs.Numeral.Literal
Layer: Proofs
Purpose: Exactly the words of the grammar are read as numbers, wherever separators stand in them.
Imports: Mathlib.Data.List.TakeWhile, QuantityCalculus.Proofs.Numeral.Grammar,
  QuantityCalculus.Scalar.Double
Trusted boundary: none
Main exports: splitDigits_append, mem_sign_mul_iff, mem_mantissa_mul_iff, mem_optional_power_iff,
  ofChars?_isSome_iff, groupSeparators, withoutSeparators, Regrouped, parseLiteral_eq,
  literals_follow_grammar
Open obligations: none
-/
import Mathlib.Data.List.TakeWhile
import QuantityCalculus.Proofs.Numeral.Grammar
import QuantityCalculus.Scalar.Double

namespace QuantityCalculus

open RegularExpression

namespace Decimal

open Numeral

/-! ### Reading a part at a time -/

variable {cs ds rest : List Char}

theorem splitDigits_spec (cs : List Char) :
    cs = (splitDigits cs).1 ++ (splitDigits cs).2 ∧ ∀ c ∈ (splitDigits cs).1, c.isDigit = true :=
  ⟨List.takeWhile_append_dropWhile.symm, fun _ hc => List.mem_takeWhile_imp hc⟩

/-- As many digits are split off as there are. -/
theorem splitDigits_append (all : ∀ c ∈ ds, c.isDigit = true)
    (stop : ∀ c ∈ rest.head?, c.isDigit = false) : splitDigits (ds ++ rest) = (ds, rest) := by
  rw [splitDigits, List.takeWhile_append_of_pos all, List.dropWhile_append_of_pos all]
  cases rest with
  | nil => simp
  | cons c rest => simp [stop c rfl]

theorem splitDigits_of_digits (all : ∀ c ∈ ds, c.isDigit = true) : splitDigits ds = (ds, []) := by
  have nothing : ∀ c ∈ ([] : List Char).head?, c.isDigit = false := fun c hc => by cases hc
  simpa using splitDigits_append all nothing

/-- A sign can be split off whatever comes behind it, as long as that has no sign of its own. -/
theorem mem_sign_mul_iff {l : Language Char}
    (unsigned : ∀ w ∈ l, ∀ c ∈ w.head?, c ≠ '+' ∧ c ≠ '-') :
    cs ∈ sign.matches' * l ↔ (splitSign cs).2 ∈ l := by
  have signs (s : List Char) : s ∈ sign.matches' ↔ s = [] ∨ s = ['+'] ∨ s = ['-'] := by
    simp [sign, mem_optional_iff, mem_oneOf_iff]
  constructor
  · intro word
    obtain ⟨s, hs, w, hw, rfl⟩ := Language.mem_mul.mp word
    rcases (signs s).mp hs with rfl | rfl | rfl
    · have same : (splitSign ([] ++ w)).2 = w := by
        rw [List.nil_append, splitSign.eq_def]
        split
        next rest => exact absurd rfl (unsigned _ hw '-' rfl).2
        next rest => exact absurd rfl (unsigned _ hw '+' rfl).1
        next => rfl
      rwa [same]
    · exact hw
    · exact hw
  · intro word
    rw [splitSign.eq_def] at word
    split at word
    next rest =>
      exact Language.mem_mul.mpr ⟨['-'], (signs _).mpr (.inr (.inr rfl)), rest, word, rfl⟩
    next rest =>
      exact Language.mem_mul.mpr ⟨['+'], (signs _).mpr (.inr (.inl rfl)), rest, word, rfl⟩
    next => exact Language.mem_mul.mpr ⟨[], (signs _).mpr (.inl rfl), cs, word, rfl⟩

/-- A fraction is a point with all digits behind it, or there is none. -/
theorem splitFraction_spec (cs : List Char) : splitFraction cs = ([], cs)
    ∨ ∃ fs rest, cs = '.' :: (fs ++ rest) ∧ (∀ c ∈ fs, c.isDigit = true)
      ∧ splitFraction cs = (fs, rest) := by
  rw [splitFraction.eq_def]
  split
  next behind =>
    obtain ⟨split, all⟩ := splitDigits_spec behind
    exact .inr ⟨_, _, congrArg _ split, all, rfl⟩
  next => exact .inl rfl

theorem splitFraction_of_head (stop : ∀ c ∈ cs.head?, c ≠ '.') : splitFraction cs = ([], cs) := by
  rw [splitFraction.eq_def]
  split
  next rest => exact absurd rfl (stop '.' rfl)
  next => rfl

/-- The digits around the point can be split off whatever comes behind them, as long as that does
not go on with digits or a point. -/
theorem mem_mantissa_mul_iff {l : Language Char}
    (stop : ∀ w ∈ l, ∀ c ∈ w.head?, c.isDigit = false ∧ c ≠ '.') :
    cs ∈ mantissa.matches' * l
      ↔ ((splitDigits cs).1 ≠ [] ∨ (splitFraction (splitDigits cs).2).1 ≠ [])
        ∧ (splitFraction (splitDigits cs).2).2 ∈ l := by
  constructor
  · intro word
    obtain ⟨m, hm, w, hw, rfl⟩ := Language.mem_mul.mp word
    have noDigit : ∀ c ∈ w.head?, c.isDigit = false := fun c hc => (stop w hw c hc).1
    have noPoint : ∀ c ∈ w.head?, c ≠ '.' := fun c hc => (stop w hw c hc).2
    obtain ⟨ds, all, ⟨nonempty, rfl⟩ | ⟨fs, allBehind, some, rfl⟩⟩ := mem_mantissa_iff.mp hm
    · rw [splitDigits_append all noDigit, splitFraction_of_head noPoint]
      exact ⟨.inl nonempty, hw⟩
    · have point : ∀ c ∈ ('.' :: (fs ++ w)).head?, c.isDigit = false := by
        rintro c ⟨⟩
        rfl
      have behind : splitFraction ('.' :: (fs ++ w)) = (fs, w) :=
        splitDigits_append allBehind noDigit
      rw [List.append_assoc, List.cons_append, splitDigits_append all point, behind]
      exact ⟨some, hw⟩
  · rintro ⟨some, hw⟩
    obtain ⟨split, all⟩ := splitDigits_spec cs
    generalize (splitDigits cs).1 = ds at split all some
    generalize (splitDigits cs).2 = tail at split some hw
    subst split
    rcases splitFraction_spec tail with nothing | ⟨fs, rest, rfl, allBehind, behind⟩
    · rw [nothing] at some hw
      have nonempty : ds ≠ [] := some.resolve_right fun h => h rfl
      exact Language.mem_mul.mpr
        ⟨ds, mem_mantissa_iff.mpr ⟨ds, all, .inl ⟨nonempty, rfl⟩⟩, tail, hw, rfl⟩
    · rw [behind] at some hw
      have pointed := mem_mantissa_iff.mpr ⟨ds, all, .inr ⟨fs, allBehind, some, rfl⟩⟩
      exact Language.mem_mul.mpr ⟨_, pointed, rest, hw, by simp⟩

theorem unsigned_of_isDigit {c : Char} (isDigit : c.isDigit = true) : c ≠ '+' ∧ c ≠ '-' := by
  constructor
  · rintro rfl
    cases isDigit
  · rintro rfl
    cases isDigit

/-- Digits up to the end are split off without rest. -/
theorem mem_digits_iff_splitDigits :
    cs ∈ digits.matches' ↔ (splitDigits cs).1 ≠ [] ∧ (splitDigits cs).2 = [] := by
  rw [mem_digits_iff]
  constructor
  · rintro ⟨nonempty, all⟩
    rw [splitDigits_of_digits all]
    exact ⟨nonempty, rfl⟩
  · rintro ⟨nonempty, nothing⟩
    obtain ⟨split, all⟩ := splitDigits_spec cs
    rw [nothing, List.append_nil] at split
    rw [split]
    exact ⟨nonempty, all⟩

/-- A power is a letter and an integer. -/
theorem cons_mem_power_iff {c : Char} :
    c :: rest ∈ power.matches' ↔ (c = 'e' ∨ c = 'E') ∧ (splitSign rest).2 ∈ digits.matches' := by
  have unsigned : ∀ w ∈ digits.matches', ∀ c ∈ w.head?, c ≠ '+' ∧ c ≠ '-' := fun w hw c hc =>
    unsigned_of_isDigit ((mem_digits_iff.mp hw).2 c (List.mem_of_mem_head? hc))
  have marks : c ∈ ['e', 'E'] ↔ c = 'e' ∨ c = 'E' := by simp
  rw [← mem_sign_mul_iff unsigned, ← marks]
  constructor
  · intro word
    obtain ⟨u, hu, v, hv, same⟩ := Language.mem_mul.mp word
    obtain ⟨d, hd, rfl⟩ := mem_oneOf_iff.mp hu
    obtain ⟨rfl, rfl⟩ := List.cons.inj same
    exact ⟨hd, hv⟩
  · rintro ⟨hc, hv⟩
    exact Language.mem_mul.mpr ⟨[c], mem_oneOf_iff.mpr ⟨c, hc, rfl⟩, rest, hv, rfl⟩

/-- A power of ten is read up to the end of the literal. -/
theorem mem_optional_power_iff :
    cs ∈ (optional power).matches' ↔ (exponentOfChars? cs).isSome = true := by
  rw [mem_optional_iff]
  cases cs with
  | nil => exact iff_of_true (.inl rfl) rfl
  | cons c rest =>
      rw [cons_mem_power_iff, mem_digits_iff_splitDigits, exponentOfChars?]
      split
      next marked =>
        have marked : c = 'e' ∨ c = 'E' := by simpa using marked
        simp [marked]
      next other =>
        have other : ¬(c = 'e' ∨ c = 'E') := by simpa using other
        simp [other]

/-- Behind a mantissa there is neither a digit nor a point. -/
theorem stop_of_mem_optional_power (word : cs ∈ (optional power).matches') :
    ∀ c ∈ cs.head?, c.isDigit = false ∧ c ≠ '.' := by
  cases cs with
  | nil =>
      rintro c ⟨⟩
  | cons d rest =>
      rintro c ⟨⟩
      rcases word with none | marked
      · cases none
      · rcases (cons_mem_power_iff.mp marked).1 with rfl | rfl <;> decide

/-- A mantissa has no sign. -/
theorem unsigned_of_mem_mantissa (word : cs ∈ mantissa.matches') (tail : List Char) :
    ∀ c ∈ (cs ++ tail).head?, c ≠ '+' ∧ c ≠ '-' := by
  obtain ⟨ds, all, shape⟩ := mem_mantissa_iff.mp word
  cases ds with
  | cons d ds =>
      have first : (cs ++ tail).head? = some d := by
        rcases shape with ⟨-, rfl⟩ | ⟨fs, -, -, rfl⟩ <;> rfl
      rw [first]
      rintro c ⟨⟩
      exact unsigned_of_isDigit (all d List.mem_cons_self)
  | nil =>
      obtain ⟨fs, -, -, rfl⟩ := shape.resolve_left fun none => none.1 rfl
      rintro c ⟨⟩
      decide

/-- Exactly the words of the grammar are read. -/
theorem ofChars?_isSome_iff : (ofChars? cs).isSome = true ↔ cs ∈ numeral.matches' := by
  have unsigned : ∀ w ∈ mantissa.matches' * (optional power).matches', ∀ c ∈ w.head?,
      c ≠ '+' ∧ c ≠ '-' := by
    intro w hw
    obtain ⟨m, hm, tail, -, rfl⟩ := Language.mem_mul.mp hw
    exact unsigned_of_mem_mantissa hm tail
  have grammar : numeral.matches'
      = sign.matches' * (mantissa.matches' * (optional power).matches') := rfl
  rw [grammar, mem_sign_mul_iff unsigned,
    mem_mantissa_mul_iff fun _ => stop_of_mem_optional_power, mem_optional_power_iff]
  rw [ofChars?]
  rcases splitSign cs with ⟨negative, rest⟩
  dsimp only
  rcases splitDigits rest with ⟨whole, behind⟩
  dsimp only
  rcases splitFraction behind with ⟨fraction, tail⟩
  cases whole <;> cases fraction <;> simp

end Decimal

open Numeral Decimal

/-! ### Separators -/

/-- The characters that group digits: space, underscore, comma and narrow no-break space. -/
def groupSeparators : List Char := [' ', '_', ',', '\u202f']

/-- A text without its separators. -/
def withoutSeparators (cs : List Char) : List Char := cs.filter fun c => c ∉ groupSeparators

/-- Texts that arise from a text by inserting separators anywhere and removing others. -/
inductive Regrouped (cs : List Char) : List Char → Prop where
  | refl : Regrouped cs cs
  | insert (before after : List Char) {c : Char} (separator : c ∈ groupSeparators)
      (earlier : Regrouped cs (before ++ after)) : Regrouped cs (before ++ c :: after)
  | remove (before after : List Char) {c : Char} (separator : c ∈ groupSeparators)
      (earlier : Regrouped cs (before ++ c :: after)) : Regrouped cs (before ++ after)

theorem isSeparator_iff {c : Char} : isSeparator c = true ↔ c ∈ groupSeparators := by
  have narrow : c.toNat = 0x202F ↔ c = '\u202f' := Char.toNat_inj (c := c) (d := '\u202f')
  simp [isSeparator, groupSeparators, narrow, or_assoc]

theorem filter_not_isSeparator (cs : List Char) :
    (cs.filter fun c => !isSeparator c) = withoutSeparators cs := by
  refine List.filter_congr fun c _ => ?_
  rw [Bool.eq_iff_iff, Bool.not_eq_true', Bool.eq_false_iff, ne_eq, isSeparator_iff,
    decide_eq_true_iff]

theorem withoutSeparators_insert (before after : List Char) {c : Char}
    (separator : c ∈ groupSeparators) :
    withoutSeparators (before ++ c :: after) = withoutSeparators (before ++ after) := by
  simp [withoutSeparators, separator]

/-- Inserting and removing separators changes nothing but separators. -/
theorem Regrouped.withoutSeparators_eq {cs ds : List Char} (h : Regrouped cs ds) :
    withoutSeparators ds = withoutSeparators cs := by
  induction h with
  | refl => rfl
  | insert before after separator _ ih => rw [withoutSeparators_insert before after separator, ih]
  | remove before after separator _ ih => rw [← withoutSeparators_insert before after separator, ih]

/-! ### Literals -/

variable {α : Type} [Scalar α]

/-- What the inspection of the characters refuses would not be read either. -/
theorem parseLiteral_eq (literal : String) : (parseLiteral literal : Except LiteralError α)
    = match ofChars? (withoutSeparators literal.toList) with
      | some d => .ok d.toScalar
      | none => .error (.invalid literal) := by
  simp only [parseLiteral, filter_not_isSeparator]
  split
  next refused =>
    cases read : ofChars? (withoutSeparators literal.toList) with
    | none => rfl
    | some d =>
        have word : withoutSeparators literal.toList ∈ numeral.matches' :=
          ofChars?_isSome_iff.mp (by rw [read]; rfl)
        obtain ⟨nonempty, inspected⟩ := inspected_of_mem_numeral word
        simp [nonempty, inspected] at refused
  next => rfl

/-- A literal is read if and only if it is a word of the grammar without its separators.  Separators
may be inserted and removed anywhere: the same number is read, or none in either case.  A literal
that is not read is reported as it was written. -/
theorem literals_follow_grammar :
    (∀ literal : String, (∃ x : α, parseLiteral literal = .ok x)
        ↔ withoutSeparators literal.toList ∈ numeral.matches')
      ∧ (∀ literal other : String, Regrouped literal.toList other.toList →
        (parseLiteral other : Except LiteralError α).toOption = (parseLiteral literal).toOption)
      ∧ ∀ literal : String, (∃ x : α, parseLiteral literal = .ok x)
        ∨ (parseLiteral literal : Except LiteralError α) = .error (.invalid literal) := by
  refine ⟨fun literal => ?_, fun literal other regrouped => ?_, fun literal => ?_⟩
  · rw [parseLiteral_eq, ← ofChars?_isSome_iff]
    cases ofChars? (withoutSeparators literal.toList) <;> simp
  · rw [parseLiteral_eq, parseLiteral_eq, regrouped.withoutSeparators_eq]
    cases ofChars? (withoutSeparators literal.toList) <;> rfl
  · rw [parseLiteral_eq]
    cases ofChars? (withoutSeparators literal.toList) with
    | none => exact .inr rfl
    | some d => exact .inl ⟨d.toScalar, rfl⟩

/-- A thousand and a half is the same number with a comma behind the first digit and with an
underscore behind the second one, where no group of digits ends. -/
theorem thousand_regrouped :
    Regrouped "1,000.5".toList "10_00.5".toList
      ∧ (parseLiteral "10_00.5" : Except LiteralError Float).toOption
        = (parseLiteral "1,000.5").toOption
      ∧ ∃ x : Float, parseLiteral "1,000.5" = .ok x := by
  have regrouped : Regrouped "1,000.5".toList "10_00.5".toList :=
    .insert ['1', '0'] ['0', '0', '.', '5'] (by decide)
      (.remove ['1'] ['0', '0', '0', '.', '5'] (by decide) .refl)
  have word : withoutSeparators "1,000.5".toList ∈ numeral.matches' :=
    (rmatch_iff_matches' _ _).mp (by decide)
  obtain ⟨accepted, unchanged, -⟩ := literals_follow_grammar (α := Float)
  exact ⟨regrouped, unchanged _ _ regrouped, (accepted _).mpr word⟩

end QuantityCalculus
