/-
Module: QuantityCalculus.Proofs.Text.LowerCase
Layer: Proofs
Purpose: Lower-casing a text of ASCII characters lower-cases each of them, and no text changes when
  it is lower-cased a second time.  The latter holds because the lower-case forms of the table are
  not upper-case themselves, for which whole runs are compared and not their members.
Imports: Mathlib, QuantityCalculus.Text.LowerCase
Trusted boundary: none
Main exports: lowerCase_ascii, lowerCase_toUpper, LowerRun.Covers, lowerRuns_miss_capitals, Lowered,
  lowerCase_lowerCase
Open obligations: none
-/
import Mathlib
import QuantityCalculus.Text.LowerCase

namespace QuantityCalculus.Text

/-! ### Texts of ASCII characters -/

theorem lowerChars_ascii {before word : List Char} (ascii : ∀ c ∈ word, c.toNat < 0x80) :
    lowerChars before word = word.map Char.toLower := by
  induction word generalizing before with
  | nil => rfl
  | cons c rest ih =>
      obtain ⟨first, others⟩ := List.forall_mem_cons.mp ascii
      have notSigma : (c.toNat == 0x3A3) = false := by
        rw [beq_eq_false_iff_ne]
        omega
      rw [lowerChars, notSigma, ih others, lowerChar, if_pos first]
      rfl

/-- A text of ASCII characters is lower-cased letter by letter. -/
theorem lowerCase_ascii {text : String} (ascii : ∀ c ∈ text.toList, c.toNat < 0x80) :
    lowerCase text = text.toLower := by
  rw [lowerCase, lowerChars_ascii ascii, String.toLower, ← String.toList_map, String.ofList_toList]

/-- It does not matter in which case such a text is written. -/
theorem lowerCase_toUpper {text : String} (ascii : ∀ c ∈ text.toList, c.toNat < 0x80) :
    lowerCase text.toUpper = lowerCase text := by
  have upper : ∀ n < 0x80, (Char.ofNat n).toUpper.toNat < 0x80 := by decide
  have ascii' : ∀ c ∈ text.toUpper.toList, c.toNat < 0x80 := by
    rw [String.toUpper, String.toList_map]
    refine List.forall_mem_map.mpr fun c listed => ?_
    have small := upper c.toNat (ascii c listed)
    rwa [Char.ofNat_toNat] at small
  apply String.toList_inj.mp
  rw [lowerCase_ascii ascii', lowerCase_ascii ascii, String.toLower, String.toLower, String.toUpper,
    String.toList_map, String.toList_map, String.toList_map, List.map_map]
  exact List.map_congr_left fun c _ => Char.toLower_toUpper_eq_toLower c

/-! ### Runs of the table -/

/-- The run gives a code point a lower-case form. -/
def LowerRun.Covers (r : LowerRun) (n : Nat) : Prop :=
  r.first ≤ n ∧ n ≤ r.last ∧ r.step ∣ n - r.first

instance (r : LowerRun) : DecidablePred r.Covers := fun _ => inferInstanceAs (Decidable (_ ∧ _ ∧ _))

/-- The lower-case forms of the members of a run. -/
def LowerRun.image (r : LowerRun) : LowerRun :=
  ⟨(r.first + r.shift).toNat, (r.last + r.shift).toNat, r.step, 0⟩

/-- Two runs lie apart, or the members of one fall between those of the other. -/
def LowerRun.misses (r q : LowerRun) : Bool :=
  r.last.blt q.first || q.last.blt r.first
    || (r.step % q.step == 0 || r.first == r.last) && (r.first - q.first) % q.step != 0

/-- Runs that miss each other have no member in common. -/
theorem LowerRun.not_covers_of_misses {r q : LowerRun} {n : Nat} (h : r.misses q = true)
    (member : r.Covers n) : ¬ q.Covers n := by
  rintro ⟨first, last, steps⟩
  obtain ⟨first', last', steps'⟩ := member
  simp only [misses, Bool.or_eq_true, Bool.and_eq_true, Nat.blt_eq, beq_iff_eq, bne_iff_ne] at h
  rcases h with (apart | apart) | ⟨regular, between⟩
  · omega
  · omega
  · have later : q.first < r.first := by
      by_contra notLater
      exact between (by rw [Nat.sub_eq_zero_of_le (not_lt.mp notLater), Nat.zero_mod])
    have whole : q.step ∣ n - r.first := by
      rcases regular with multiple | single
      · exact (Nat.dvd_of_mod_eq_zero multiple).trans steps'
      · rw [show n - r.first = 0 by omega]
        exact dvd_zero q.step
    have split : n - q.first = n - r.first + (r.first - q.first) := by omega
    rw [split, Nat.dvd_add_right whole] at steps
    exact between (Nat.mod_eq_zero_of_dvd steps)

/-- All code points that have a lower-case form other than themselves. -/
def capitals : List LowerRun :=
  ⟨0x41, 0x5A, 1, 32⟩ :: ⟨0x130, 0x130, 1, -199⟩ :: lowerRuns.toList

-- Runs are compared with runs here, since comparing every member with every run takes too long.
theorem lowerRuns_miss_capitals :
    (lowerRuns.toList.all fun r => capitals.all fun q => r.image.misses q) = true := by
  decide +kernel

theorem lowerRuns_shift : ∀ r ∈ lowerRuns.toList, 0 ≤ r.first + r.shift := by
  decide +kernel

/-- The lower-case form of a member is one of the forms of its run. -/
theorem LowerRun.image_covers {r : LowerRun} {n : Nat} (shift : 0 ≤ r.first + r.shift)
    (member : r.Covers n) : r.image.Covers (n + r.shift).toNat := by
  obtain ⟨first, last, steps⟩ := member
  refine ⟨?_, ?_, ?_⟩
  · exact Int.toNat_le_toNat (by omega)
  · exact Int.toNat_le_toNat (by omega)
  · have same : (n + r.shift).toNat - (r.first + r.shift).toNat = n - r.first := by omega
    rw [image, same]
    exact steps

/-! ### Texts that are lower-cased twice -/

/-- Lower-casing leaves the character alone, wherever it stands. -/
def Lowered (c : Char) : Prop := c.toNat ≠ 0x3A3 ∧ lowerChar c = [c]

instance : DecidablePred Lowered := fun _ => inferInstanceAs (Decidable (_ ∧ _))

/-- A character is lower-cased as ASCII, as the dotted capital I, by a run of the table, or not at
all. -/
theorem lowerChar_cases (c : Char) :
    (c.toNat < 0x80 ∧ lowerChar c = [c.toLower])
      ∨ (c.toNat = 0x130 ∧ lowerChar c = ['i', Char.ofNat 0x307])
      ∨ (∃ r ∈ lowerRuns, r.Covers c.toNat ∧ lowerChar c = [Char.ofNat (c.toNat + r.shift).toNat])
      ∨ lowerChar c = [c] := by
  rw [lowerChar]
  split
  next ascii => exact .inl ⟨ascii, rfl⟩
  next =>
    split
    next dotted => exact .inr (.inl ⟨by simpa using dotted, rfl⟩)
    next =>
      split
      next r found =>
        have within := Array.find?_some found
        simp only [Bool.and_eq_true, decide_eq_true_eq] at within
        split
        next regular =>
          have steps : r.step ∣ c.toNat - r.first := Nat.dvd_of_mod_eq_zero (by simpa using regular)
          refine .inr (.inr (.inl ⟨r, Array.mem_of_find?_eq_some found, ?_, rfl⟩))
          exact ⟨within.1, within.2, steps⟩
        next => exact .inr (.inr (.inr rfl))
      next => exact .inr (.inr (.inr rfl))

/-- Among the ASCII characters only the capital letters have another lower-case form, and it is
none. -/
theorem toLower_ascii : ∀ n < 0x80, Lowered (Char.ofNat n).toLower
    ∧ (¬ (0x41 ≤ n ∧ n ≤ 0x5A) → (Char.ofNat n).toLower = Char.ofNat n) := by
  decide +kernel

/-- A code point that no capital has is left alone. -/
theorem lowered_of_not_capital {c : Char} (free : ∀ q ∈ capitals, ¬ q.Covers c.toNat) :
    Lowered c := by
  obtain ⟨notAscii, free⟩ := List.forall_mem_cons.mp free
  obtain ⟨notDotted, free⟩ := List.forall_mem_cons.mp free
  constructor
  · intro sigma
    refine free ⟨0x3A3, 0x3AB, 1, 32⟩ (by decide +kernel) ?_
    rw [sigma]
    exact ⟨by norm_num, by norm_num, one_dvd _⟩
  · rcases lowerChar_cases c with ⟨ascii, same⟩ | ⟨dotted, -⟩ | ⟨r, listed, covers, -⟩ | same
    · have small : ¬ (0x41 ≤ c.toNat ∧ c.toNat ≤ 0x5A) := fun h => notAscii ⟨h.1, h.2, one_dvd _⟩
      have kept := (toLower_ascii c.toNat ascii).2 small
      rw [Char.ofNat_toNat] at kept
      rw [same, kept]
    · exact absurd ⟨dotted.ge, dotted.le, one_dvd _⟩ notDotted
    · exact absurd covers (free r (Array.mem_toList_iff.mpr listed))
    · exact same

/-- What comes of a character is left alone from then on.  The capital sigma is lower-cased by its
surroundings instead. -/
theorem lowerChar_lowered {c d : Char} (notSigma : c.toNat ≠ 0x3A3) (listed : d ∈ lowerChar c) :
    Lowered d := by
  rcases lowerChar_cases c with ⟨ascii, same⟩ | ⟨-, same⟩ | ⟨r, known, covers, same⟩ | same
  · rw [same, List.mem_singleton] at listed
    have lowered := (toLower_ascii c.toNat ascii).1
    rw [Char.ofNat_toNat] at lowered
    exact listed ▸ lowered
  · rw [same] at listed
    have lowered : ∀ c ∈ ['i', Char.ofNat 0x307], Lowered c := by
      refine List.forall_mem_cons.mpr ⟨lowered_of_not_capital (by decide +kernel), ?_⟩
      exact List.forall_mem_singleton.mpr (lowered_of_not_capital (by decide +kernel))
    exact lowered d listed
  · rw [same, List.mem_singleton] at listed
    rw [listed]
    have run := Array.mem_toList_iff.mpr known
    have covered := r.image_covers (lowerRuns_shift r run) covers
    have missed := List.all_eq_true.mp (List.all_eq_true.mp lowerRuns_miss_capitals r run)
    by_cases valid : (c.toNat + r.shift).toNat.isValidChar
    · refine lowered_of_not_capital fun q capital => ?_
      rw [Char.toNat_ofNat, if_pos valid]
      exact LowerRun.not_covers_of_misses (missed q capital) covered
    · rw [← Char.ofNat_toNat (Char.ofNat _), Char.toNat_ofNat, if_neg valid]
      decide +kernel
  · rw [same, List.mem_singleton] at listed
    exact listed ▸ ⟨notSigma, same⟩

/-- Nothing that comes of a text is lower-cased any further. -/
theorem lowerChars_lowered {before word : List Char} : ∀ d ∈ lowerChars before word, Lowered d := by
  induction word generalizing before with
  | nil => exact List.forall_mem_nil _
  | cons c rest ih =>
      rw [lowerChars]
      split
      next =>
        refine List.forall_mem_cons.mpr ⟨?_, ih⟩
        split
        · exact lowered_of_not_capital (by decide +kernel)
        · exact lowered_of_not_capital (by decide +kernel)
      next other =>
        refine List.forall_mem_append.mpr ⟨fun d listed => lowerChar_lowered ?_ listed, ih⟩
        exact fun sigma => other (beq_iff_eq.mpr sigma)

theorem lowerChars_of_lowered {before word : List Char} (lowered : ∀ c ∈ word, Lowered c) :
    lowerChars before word = word := by
  induction word generalizing before with
  | nil => rfl
  | cons c rest ih =>
      obtain ⟨⟨notSigma, same⟩, others⟩ := List.forall_mem_cons.mp lowered
      rw [lowerChars, beq_eq_false_iff_ne.mpr notSigma, same, ih others]
      rfl

/-- A text that has been lower-cased does not change any more. -/
theorem lowerCase_lowerCase (text : String) : lowerCase (lowerCase text) = lowerCase text := by
  rw [lowerCase, lowerCase, String.toList_ofList, lowerChars_of_lowered lowerChars_lowered]

end QuantityCalculus.Text
