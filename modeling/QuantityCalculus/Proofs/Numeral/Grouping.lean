/-
Module: QuantityCalculus.Proofs.Numeral.Grouping
Layer: Proofs
Purpose: Integers are shown as decimal numerals, the long ones in groups of three digits, and the
  literal that is shown is read as the same integer.
Imports: QuantityCalculus.Numeral.Display, QuantityCalculus.Proofs.Numeral.Digits,
  QuantityCalculus.Proofs.Numeral.Literal, QuantityCalculus.Proofs.Scalar.Integer
Trusted boundary: none
Main exports: Grouped, grouped_groupDigits, filter_groupDigits, toList_groupedInteger,
  parseLiteral_groupedInteger, displayed_integers_read_back
Open obligations: none
-/
import QuantityCalculus.Numeral.Display
import QuantityCalculus.Proofs.Numeral.Digits
import QuantityCalculus.Proofs.Numeral.Literal
import QuantityCalculus.Proofs.Scalar.Integer

namespace QuantityCalculus

variable {ds : List Char}

/-! ### Groups of three digits -/

/-- Digits with a single space before every third one counted from the right, except at the
front. -/
inductive Grouped : List Char → Prop where
  | front {ds : List Char} (nonempty : ds ≠ []) (short : ds.length ≤ 3)
      (digits : ∀ c ∈ ds, c.isDigit = true) : Grouped ds
  | group {text : List Char} {a b c : Char} (before : Grouped text)
      (digits : ∀ d ∈ [a, b, c], d.isDigit = true) : Grouped (text ++ [' ', a, b, c])

theorem groupDigits_of_length_le (short : ds.length ≤ 3) : groupDigits ds = ds := by
  match ds, short with
  | [], _ => rfl
  | [_], _ => rfl
  | [_, _], _ => rfl
  | [_, _, _], _ => rfl

/-- A space stands between two digits if the number of digits behind it is a multiple of three. -/
theorem groupDigits_cons (d : Char) (nonempty : ds ≠ []) : groupDigits (d :: ds)
    = (if ds.length % 3 = 0 then [d, ' '] else [d]) ++ groupDigits ds := by
  rw [groupDigits]
  have filled : ds.isEmpty = false := List.isEmpty_eq_false_iff.mpr nonempty
  by_cases place : ds.length % 3 = 0 <;> simp [place, filled]

/-- The last three digits are a group of their own. -/
theorem groupDigits_append (nonempty : ds ≠ []) (a b c : Char) :
    groupDigits (ds ++ [a, b, c]) = groupDigits ds ++ [' ', a, b, c] := by
  induction ds with
  | nil => exact absurd rfl nonempty
  | cons d ds ih =>
    cases ds with
    | nil => simp [groupDigits]
    | cons d' ds =>
      have rest := List.cons_ne_nil d' ds
      have places : (d' :: ds ++ [a, b, c]).length % 3 = (d' :: ds).length % 3 := by
        rw [List.length_append]
        exact Nat.add_mod_right _ 3
      rw [List.cons_append, groupDigits_cons d (List.append_ne_nil_of_left_ne_nil rest _), places,
        ih rest,
        groupDigits_cons d rest, List.append_assoc]

theorem grouped_of_length_le (nonempty : ds ≠ []) (short : ds.length ≤ 3)
    (digits : ∀ c ∈ ds, c.isDigit = true) : Grouped (groupDigits ds) := by
  rw [groupDigits_of_length_le short]
  exact .front nonempty short digits

/-- Groups are taken off at the end until at most three digits are left. -/
theorem grouped_groupDigits_reverse : ∀ rs : List Char, rs ≠ [] →
    (∀ c ∈ rs.reverse, c.isDigit = true) → Grouped (groupDigits rs.reverse)
  | [], nonempty, _ => absurd rfl nonempty
  | [_], _, digits => grouped_of_length_le (by simp) (by simp) digits
  | [_, _], _, digits => grouped_of_length_le (by simp) (by simp) digits
  | [_, _, _], _, digits => grouped_of_length_le (by simp) (by simp) digits
  | c :: b :: a :: d :: rs, _, digits => by
      have split : (c :: b :: a :: d :: rs).reverse = (d :: rs).reverse ++ [a, b, c] := by simp
      rw [split] at digits ⊢
      rw [groupDigits_append (by simp)]
      have before := grouped_groupDigits_reverse (d :: rs) (List.cons_ne_nil d rs) fun e he =>
        digits e (List.mem_append_left _ he)
      exact .group before fun e he => digits e (List.mem_append_right _ he)

theorem grouped_groupDigits (nonempty : ds ≠ []) (digits : ∀ c ∈ ds, c.isDigit = true) :
    Grouped (groupDigits ds) := by
  have reversed := grouped_groupDigits_reverse ds.reverse (List.reverse_ne_nil_iff.mpr nonempty)
  rw [List.reverse_reverse] at reversed
  exact reversed digits

/-- Grouping inserts nothing but spaces. -/
theorem filter_groupDigits {p : Char → Bool} (space : p ' ' = false) (kept : ∀ c ∈ ds, p c = true) :
    (groupDigits ds).filter p = ds := by
  induction ds with
  | nil => rfl
  | cons d ds ih =>
    have first : p d = true := kept d List.mem_cons_self
    have others := ih fun c hc => kept c (List.mem_cons_of_mem d hc)
    rw [groupDigits]
    split
    next => rw [List.filter_cons_of_pos first, List.filter_cons_of_neg (by simp [space]), others]
    next => rw [List.filter_cons_of_pos first, others]

/-! ### Integers -/

theorem toList_groupedInteger (i : Int) : (groupedInteger i).toList = signChars i
    ++ if groupingThreshold ≤ i.natAbs then groupDigits (Nat.toDigits 10 i.natAbs)
      else Nat.toDigits 10 i.natAbs := by
  rw [groupedInteger, String.toList_ofList, signChars]
  split <;> rfl

/-- What is shown of an integer, apart from spaces, is its numeral. -/
theorem filter_groupedInteger {p : Char → Bool} (i : Int) (space : p ' ' = false)
    (minus : p '-' = true)
    (kept : ∀ c : Char, c.isDigit = true → p c = true) :
    (groupedInteger i).toList.filter p = (toString i).toList := by
  have digits : ∀ c ∈ Nat.toDigits 10 i.natAbs, p c = true := fun c hc =>
    kept c (isDigit_of_mem_digits hc)
  have sign : (signChars i).filter p = signChars i := by
    apply List.filter_eq_self.mpr
    intro c hc
    rw [(mem_signChars.mp hc).2, minus]
  rw [toList_groupedInteger, toList_toString, List.filter_append, sign]
  split
  next => rw [filter_groupDigits space digits]
  next => rw [List.filter_eq_self.mpr digits]

/-! ### Reading what is shown -/

theorem digitsValue_digits (n : Nat) : Decimal.digitsValue (Nat.toDigits 10 n) = n :=
  Nat.ofDigitChars_ten_toDigits

/-- The sign is read off what is written in front of the digits. -/
theorem splitSign_signChars (i : Int) (unsigned : ∀ c ∈ ds.head?, c ≠ '+' ∧ c ≠ '-') :
    Decimal.splitSign (signChars i ++ ds) = (decide (i < 0), ds) := by
  rw [signChars]
  split
  next negative =>
    rw [decide_eq_true negative]
    rfl
  next positive =>
    rw [decide_eq_false positive, List.nil_append, Decimal.splitSign.eq_def]
    split
    next => exact absurd rfl (unsigned _ rfl).2
    next => exact absurd rfl (unsigned _ rfl).1
    next => rfl

/-- The numeral of an integer is read as the integer. -/
theorem ofChars?_toString (i : Int) :
    Decimal.ofChars? (toString i).toList = some ⟨decide (i < 0), i.natAbs, 0⟩ := by
  have digits : ∀ c ∈ Nat.toDigits 10 i.natAbs, c.isDigit = true := fun _ => isDigit_of_mem_digits
  have filled : (Nat.toDigits 10 i.natAbs).isEmpty = false :=
    List.isEmpty_eq_false_iff.mpr Nat.toDigits_ne_nil
  have sign := splitSign_signChars i fun c hc =>
    Decimal.unsigned_of_isDigit (digits c (List.mem_of_mem_head? hc))
  simp only [toList_toString, Decimal.ofChars?, sign, Decimal.splitDigits_of_digits digits,
    Decimal.splitFraction, Decimal.exponentOfChars?]
  simp [filled, digitsValue_digits]

/-- Separators are no part of a numeral. -/
theorem withoutSeparators_groupedInteger (i : Int) :
    withoutSeparators (groupedInteger i).toList = (toString i).toList := by
  have apart : ∀ c ∈ groupSeparators, c.isDigit = false := by simp [groupSeparators]
  apply filter_groupedInteger i (by decide) (by decide)
  intro c digit
  rw [decide_eq_true_iff]
  intro separator
  rw [apart c separator] at digit
  cases digit

theorem parseLiteral_groupedInteger {α : Type} [Scalar α] (i : Int) :
    (parseLiteral (groupedInteger i) : Except LiteralError α)
      = .ok (Decimal.mk (decide (i < 0)) i.natAbs 0).toScalar := by
  rw [parseLiteral_eq, withoutSeparators_groupedInteger, ofChars?_toString]

/-- Integers of at most 53 binary digits are read exactly. -/
theorem value?_toScalar {i : Int} (small : i.natAbs < 2 ^ 53) :
    Binary64.value? (Decimal.mk (decide (i < 0)) i.natAbs 0).toScalar = some (i : Rat) := by
  rcases Int.lt_or_le i 0 with negative | positive
  · have size : (i : Rat) = -(i.natAbs : Rat) := by
      rw [Nat.cast_natAbs, abs_of_neg negative, Int.cast_neg, neg_neg]
    rw [size, decide_eq_true negative]
    exact Binary64.value?_neg_floatOfDecimal small
  · have size : (i : Rat) = (i.natAbs : Rat) := by
      rw [Nat.cast_natAbs, abs_of_nonneg positive]
    rw [size, decide_eq_false (Int.not_lt.mpr positive)]
    exact Binary64.value?_floatOfDecimal small

theorem prettyNumber_eq_groupedInteger {x : Float} {i : Int}
    (integral : Binary64.value? x = some (i : Rat))
    (bounded : i.natAbs < integerLimit) : prettyNumber x = groupedInteger i := by
  rw [prettyNumber, Binary64.value?_eq_some_iff.mp integral]
  exact if_pos bounded

/-- What an integer looks like: apart from spaces it is written as its numeral, and spaces stand
between groups of three digits if it has at least five digits. -/
structure Shows (text : List Char) (i : Int) : Prop where
  numeral : text.filter (· ≠ ' ') = (toString i).toList
  /-- There is no zero in front of other digits. -/
  leading : i ≠ 0 → (toString i.natAbs).toList.head? ≠ some '0'
  grouped : 10000 ≤ |i| → ∃ digits, text = signChars i ++ digits ∧ Grouped digits
  plain : |i| < 10000 → ' ' ∉ text

/-- What is shown for an integer is its numeral, with a space before every third digit. -/
theorem shows_groupedInteger (i : Int) : Shows (groupedInteger i).toList i where
  numeral := by
    apply filter_groupedInteger i (by decide) (by decide)
    intro c digit
    rw [decide_eq_true_iff]
    rintro rfl
    cases digit
  leading nonzero := by
    have digits : (toString i.natAbs).toList = Nat.toDigits 10 i.natAbs := Nat.toList_repr
    rw [digits]
    exact head?_digits_ne_zero (Int.natAbs_pos.mpr nonzero)
  grouped long := by
    have many : groupingThreshold ≤ i.natAbs := by
      rw [Int.abs_eq_natAbs] at long
      exact_mod_cast long
    rw [toList_groupedInteger, if_pos many]
    exact ⟨_, rfl, grouped_groupDigits Nat.toDigits_ne_nil fun _ => isDigit_of_mem_digits⟩
  plain short := by
    have few : ¬ groupingThreshold ≤ i.natAbs := by
      rw [Int.abs_eq_natAbs] at short
      exact Nat.not_le.mpr (by exact_mod_cast short)
    rw [toList_groupedInteger, if_neg few, List.mem_append, not_or]
    constructor
    · intro space
      cases (mem_signChars.mp space).2
    · intro space
      cases isDigit_of_mem_digits space

/-- A number that is an integer below `10 ^ 15` in absolute value is shown as its numeral, with
spaces before every third digit from the right if it has at least five digits, and what is shown is
a literal for a number that is the same integer. -/
theorem displayed_integers_read_back {x : Float} {i : Int}
    (integral : Binary64.value? x = some (i : Rat))
    (bounded : |i| < 10 ^ 15) :
    Shows (prettyNumber x).toList i
      ∧ ∃ y : Float, parseLiteral (prettyNumber x) = .ok y
        ∧ Binary64.value? y = some (i : Rat) := by
  have limit : i.natAbs < integerLimit := by
    rw [Int.abs_eq_natAbs] at bounded
    exact_mod_cast bounded
  have small : i.natAbs < 2 ^ 53 := limit.trans (by decide)
  rw [prettyNumber_eq_groupedInteger integral limit]
  exact ⟨shows_groupedInteger i, _, parseLiteral_groupedInteger i, value?_toScalar small⟩

/-- A negative integer of seven digits has no space between its sign and its first digit. -/
theorem negative_millions_read_back :
    Binary64.value? (Float.ofBits 0xC132D68700000000) = some ((-1234567 : Int) : Rat)
      ∧ prettyNumber (Float.ofBits 0xC132D68700000000) = "-1 234 567"
      ∧ Shows "-1 234 567".toList (-1234567)
      ∧ ∃ y : Float, parseLiteral "-1 234 567" = .ok y
        ∧ Binary64.value? y = some ((-1234567 : Int) : Rat) := by
  have integral : Binary64.value? (Float.ofBits 0xC132D68700000000)
      = some ((-1234567 : Int) : Rat) :=
    Binary64.value?_eq_some_iff.mpr (by decide +kernel)
  have shown : prettyNumber (Float.ofBits 0xC132D68700000000) = "-1 234 567" := by decide +kernel
  have both := displayed_integers_read_back integral (by decide)
  rw [shown] at both
  exact ⟨integral, shown, both⟩

-- Negative zero is the integer zero and is shown without a sign.
example : prettyNumber (Float.ofBits 0x8000000000000000) = "0" := by decide +kernel

end QuantityCalculus
