/-
Module: QuantityCalculus.Proofs.Product.Text
Layer: Proofs
Purpose: What the text of a product tells of it.  With names that are free of the characters the
  text is laid out with, the factors above the bar and below it can be read back, whichever layout
  was chosen, and every factor has a text of its own.
Imports: Mathlib.Tactic.IntervalCases, QuantityCalculus.Product.Text,
  QuantityCalculus.Proofs.Numeral.Digits, QuantityCalculus.Proofs.Product.Names
Trusted boundary: none
Main exports: Exponent.superscript_injective, Legible, Factor.eq_of_text, Product.Readable,
  Product.sides, Product.sides_text, Product.eq_of_text, Product.text_named, Canonical.perm_sides
Open obligations: none
-/
import Mathlib.Tactic.IntervalCases
import QuantityCalculus.Product.Text
import QuantityCalculus.Proofs.Numeral.Digits
import QuantityCalculus.Proofs.Product.Names

namespace QuantityCalculus

/-- The raised forms of the minus sign and of the digits. -/
def raisedChars : List Char := ['⁻', '⁰', '¹', '²', '³', '⁴', '⁵', '⁶', '⁷', '⁸', '⁹']

/-- The characters that separate factors from each other. -/
def separators : List Char := ['·', '/', '(', ')']

/-- A function that tells the members of two lists apart tells the lists apart. -/
theorem eq_of_map_eq {σ τ : Type} {f : σ → τ} {as bs : List σ}
    (apart : ∀ a ∈ as, ∀ b ∈ bs, f a = f b → a = b) (same : as.map f = bs.map f) : as = bs := by
  induction as generalizing bs with
  | nil => exact (List.map_eq_nil_iff.mp same.symm).symm
  | cons a as ih =>
      cases bs with
      | nil => cases same
      | cons b bs =>
          obtain ⟨first, rest⟩ := List.cons.inj same
          rw [apart a List.mem_cons_self b List.mem_cons_self first,
            ih (fun c hc d hd => apart c (List.mem_cons_of_mem _ hc) d (List.mem_cons_of_mem _ hd))
            rest]

namespace Exponent

/-! ### Raised exponents -/

/-- The characters that integers are written with. -/
def decimalChars : List Char := ['-', '0', '1', '2', '3', '4', '5', '6', '7', '8', '9']

/-- Digits are among the characters of integers. -/
theorem mem_decimalChars_of_isDigit {c : Char} (digit : c.isDigit = true) : c ∈ decimalChars := by
  obtain ⟨low, high⟩ := Char.isDigit_iff_toNat.mp digit
  rw [← Char.ofNat_toNat c]
  generalize c.toNat = code at low high
  have from48 : 48 ≤ code := low
  have upTo57 : code ≤ 57 := high
  interval_cases code <;> decide

theorem mem_decimalChars {n : Int} {c : Char} (h : c ∈ (toString n).toList) : c ∈ decimalChars := by
  rw [toList_toString] at h
  rcases List.mem_append.mp h with sign | digit
  · rw [(mem_signChars.mp sign).2]
    exact List.mem_cons_self
  · exact mem_decimalChars_of_isDigit (isDigit_of_mem_digits digit)

/-- An integer is written with a minus exactly if it is negative. -/
theorem minus_mem_toString_iff {n : Int} : '-' ∈ (toString n).toList ↔ n < 0 := by
  rw [toList_toString, List.mem_append, mem_signChars]
  constructor
  · rintro (sign | digit)
    · exact sign.1
    · cases isDigit_of_mem_digits digit
  · intro negative
    exact .inl ⟨negative, rfl⟩

theorem toString_ne_nil (n : Int) : (toString n).toList ≠ [] := by
  rw [toList_toString]
  exact List.append_ne_nil_of_right_ne_nil _ Nat.toDigits_ne_nil

theorem raisedChar_mem : ∀ c ∈ decimalChars, raisedChar c ∈ raisedChars := by
  simp [decimalChars, raisedChars, raisedChar]

theorem raisedChar_injective :
    ∀ c ∈ decimalChars, ∀ d ∈ decimalChars, raisedChar c = raisedChar d → c = d := by
  simp [decimalChars, raisedChar]

variable {a b : Exponent}

theorem toList_superscript (other : a ≠ one) :
    a.superscript.toList = (toString a.val).toList.map raisedChar := by
  rw [superscript, if_neg other, String.toList_ofList]

theorem raised_of_mem_superscript {c : Char} (h : c ∈ a.superscript.toList) : c ∈ raisedChars := by
  by_cases first : a = one
  · subst first
    cases h
  · rw [toList_superscript first] at h
    obtain ⟨d, member, rfl⟩ := List.mem_map.mp h
    exact raisedChar_mem d (mem_decimalChars member)

/-- The raised minus sign stands in the negative exponents. -/
theorem minus_mem_superscript_iff : '⁻' ∈ a.superscript.toList ↔ a.val < 0 := by
  by_cases first : a = one
  · subst first
    decide
  · rw [toList_superscript first, List.mem_map, ← minus_mem_toString_iff]
    constructor
    · rintro ⟨c, member, minus⟩
      rwa [← raisedChar_injective c (mem_decimalChars member) '-' (by decide) minus]
    · exact fun member => ⟨_, member, rfl⟩

/-- No two exponents are written alike. -/
theorem superscript_injective (same : a.superscript = b.superscript) : a = b := by
  rw [← String.toList_inj] at same
  by_cases firstA : a = one <;> by_cases firstB : b = one
  · exact firstA.trans firstB.symm
  · rw [firstA, toList_superscript firstB] at same
    exact absurd (List.map_eq_nil_iff.mp same.symm) (toString_ne_nil b.val)
  · rw [firstB, toList_superscript firstA] at same
    exact absurd (List.map_eq_nil_iff.mp same) (toString_ne_nil a.val)
  · rw [toList_superscript firstA, toList_superscript firstB] at same
    have digits : (toString a.val).toList = (toString b.val).toList :=
      eq_of_map_eq
        (fun c hc d hd => raisedChar_injective c (mem_decimalChars hc) d (mem_decimalChars hd)) same
    exact ext_val (Int.repr_injective (String.toList_inj.mp digits))

end Exponent

/-! ### The text of a factor -/

/-- A name that is not empty and has neither separators nor raised characters in it. -/
structure Legible (name : String) : Prop where
  nonempty : name ≠ ""
  unseparated : ∀ c ∈ name.toList, c ∉ separators
  unraised : ∀ c ∈ name.toList, c ∉ raisedChars

namespace Factor

variable {f g : Factor String}

theorem toList_text (f : Factor String) :
    f.text.toList = f.base.toList ++ f.exponent.superscript.toList := by
  rw [text, String.toList_append]
  rfl

/-- A legible factor is written without separators. -/
theorem notMem_separators_of_mem_text (legible : Legible f.base) {c : Char}
    (h : c ∈ f.text.toList) :
    c ∉ separators := by
  rw [toList_text] at h
  rcases List.mem_append.mp h with named | raised
  · exact legible.unseparated c named
  · have apart : ∀ d ∈ raisedChars, d ∉ separators := by simp [raisedChars, separators]
    exact apart c (Exponent.raised_of_mem_superscript raised)

theorem minus_mem_text_iff (legible : Legible f.base) :
    '⁻' ∈ f.text.toList ↔ f.exponent.val < 0 := by
  have unnamed : '⁻' ∉ f.base.toList := fun named => legible.unraised '⁻' named List.mem_cons_self
  rw [toList_text, List.mem_append, or_iff_right unnamed, Exponent.minus_mem_superscript_iff]

theorem text_ne_nil (legible : Legible f.base) : f.text.toList ≠ [] := by
  rw [toList_text]
  exact List.append_ne_nil_of_left_ne_nil (String.toList_eq_nil_iff.not.mpr legible.nonempty) _

/-- The name of a factor ends where the raised characters begin. -/
theorem raised_text (legible : Legible f.base) :
    (f.text.toList.filter fun c => c ∈ raisedChars) = f.exponent.superscript.toList := by
  have unraised : (f.base.toList.filter fun c => c ∈ raisedChars) = [] := by
    simpa using legible.unraised
  have raised : (f.exponent.superscript.toList.filter fun c => c ∈ raisedChars)
      = f.exponent.superscript.toList := by
    simpa using fun c => Exponent.raised_of_mem_superscript
  rw [toList_text, List.filter_append, unraised, raised, List.nil_append]

/-- Every factor has a text of its own. -/
theorem eq_of_text (hf : Legible f.base) (hg : Legible g.base)
    (same : f.text.toList = g.text.toList) :
    f = g := by
  have raised : f.exponent.superscript.toList = g.exponent.superscript.toList := by
    rw [← raised_text hf, same, raised_text hg]
  have bases : f.base = g.base := by
    rw [toList_text, toList_text, raised] at same
    exact String.toList_inj.mp (List.append_cancel_right same)
  have exponents : f.exponent = g.exponent :=
    Exponent.superscript_injective (String.toList_inj.mp raised)
  exact congrArg₂ Factor.mk bases exponents

variable {β : Type}

/-- An inverted exponent is the opposite one, if there is one. -/
theorem invert_val {f : Factor β} (opposite : f.exponent ≠ Exponent.minimum) :
    f.invert.exponent.val = -f.exponent.val := by
  have aboveMinimum : f.exponent.val ≠ -2147483648 := fun least => opposite (Exponent.ext_val least)
  have lower := f.exponent.lower
  have upper := f.exponent.upper
  have exact : f.invert.exponent.val = f.exponent.val * -1 :=
    Exponent.clamp_val_of_inRange (by change _ ≤ _ * -1; omega) (by change _ * -1 ≤ _; omega)
  rw [exact, Int.mul_neg_one]

/-- To invert a factor twice leads back, unless its exponent is the least one. -/
theorem invert_invert {f : Factor β} (opposite : f.exponent ≠ Exponent.minimum) :
    f.invert.invert = f := by
  have once := invert_val opposite
  have upper := f.exponent.upper
  have inverted : f.invert.exponent ≠ Exponent.minimum := by
    intro least
    rw [least] at once
    change (-2147483648 : Int) = _ at once
    omega
  have twice : f.invert.invert.exponent = f.exponent :=
    Exponent.ext_val (by rw [invert_val inverted, once, Int.neg_neg])
  exact congrArg (Factor.mk f.base) twice

end Factor

namespace Product

/-! ### Joined factors -/

variable {fs above below : List (Factor String)}

/-- The texts of factors. -/
def texts (fs : List (Factor String)) : List (List Char) := fs.map fun f => f.text.toList

/-- Factors with dots between them. -/
def joined (fs : List (Factor String)) : List Char := ['·'].intercalate (texts fs)

/-- What stands between the dots of a text. -/
def pieces (text : List Char) : List (List Char) := (text.splitOn '·').filter (· ≠ [])

theorem toList_intercalate_text (fs : List (Factor String)) :
    ("·".intercalate (fs.map Factor.text)).toList = joined fs := by
  rw [String.toList_intercalate, List.map_map]
  rfl

/-- A joined text consists of the characters of its factors and the dots between them. -/
theorem mem_joined_iff {c : Char} (other : c ≠ '·') :
    c ∈ joined fs ↔ ∃ f ∈ fs, c ∈ f.text.toList := by
  induction fs with
  | nil => simp [joined, texts]
  | cons f fs ih =>
      cases fs with
      | nil => simp [joined, texts]
      | cons g fs =>
          have split : joined (f :: g :: fs) = f.text.toList ++ ['·'] ++ joined (g :: fs) :=
            List.intercalate_cons_cons
          rw [split, List.mem_append, List.mem_append, List.mem_singleton, or_iff_left other, ih]
          exact (List.exists_mem_cons_iff (fun h => c ∈ h.text.toList) f (g :: fs)).symm

theorem notMem_joined (legible : ∀ f ∈ fs, Legible f.base) {c : Char} (separator : c ∈ separators)
    (other : c ≠ '·') : c ∉ joined fs := by
  rw [mem_joined_iff other]
  rintro ⟨f, member, written⟩
  exact Factor.notMem_separators_of_mem_text (legible f member) written separator

theorem minus_mem_joined_iff (legible : ∀ f ∈ fs, Legible f.base) :
    '⁻' ∈ joined fs ↔ ∃ f ∈ fs, f.exponent.val < 0 := by
  rw [mem_joined_iff (by decide)]
  exact exists_congr fun f => and_congr_right fun member =>
    Factor.minus_mem_text_iff (legible f member)

/-- Legible factors are told apart by the dots between them. -/
theorem pieces_joined (legible : ∀ f ∈ fs, Legible f.base) : pieces (joined fs) = texts fs := by
  cases fs with
  | nil => rfl
  | cons f rest =>
      have undotted : ∀ text ∈ texts (f :: rest), '·' ∉ text := by
        intro text member dot
        obtain ⟨g, written, rfl⟩ := List.mem_map.mp member
        exact Factor.notMem_separators_of_mem_text (legible g written) dot List.mem_cons_self
      have nonempty : ∀ text ∈ texts (f :: rest), text ≠ [] := by
        intro text member
        obtain ⟨g, written, rfl⟩ := List.mem_map.mp member
        exact Factor.text_ne_nil (legible g written)
      rw [pieces, joined, List.splitOn_intercalate '·' undotted (List.cons_ne_nil _ _)]
      exact List.filter_eq_self.mpr fun text member => decide_eq_true (nonempty text member)

theorem eq_of_texts {gs : List (Factor String)} (hf : ∀ f ∈ fs, Legible f.base)
    (hg : ∀ g ∈ gs, Legible g.base) (same : texts fs = texts gs) : fs = gs :=
  eq_of_map_eq (fun f memberF g memberG => Factor.eq_of_text (hf f memberF) (hg g memberG)) same

/-! ### Above and below the bar -/

/-- The texts of the factors above the bar and of those below it.  What has no bar stands above it,
unless it has raised minus signs. -/
def sides (text : List Char) : List (List Char) × List (List Char) :=
  match text.splitOn '/' with
  | [above, below] => (pieces above, pieces (below.filter fun c => c ≠ '(' ∧ c ≠ ')'))
  | _ => if '⁻' ∈ text then ([], pieces text) else (pieces text, [])

theorem sides_unbarred (legible : ∀ f ∈ fs, Legible f.base) :
    sides (joined fs)
      = if ∃ f ∈ fs, f.exponent.val < 0 then ([], texts fs) else (texts fs, []) := by
  have unbarred : '/' ∉ joined fs := notMem_joined legible (by decide) (by decide)
  rw [sides, List.splitOn_eq_singleton unbarred, pieces_joined legible]
  exact if_congr (minus_mem_joined_iff legible) rfl rfl

/-- The texts on both sides of a bar are told apart by it. -/
theorem sides_barred (legibleAbove : ∀ f ∈ above, Legible f.base)
    (legibleBelow : ∀ f ∈ below, Legible f.base) {text : List Char} (unbarred : '/' ∉ text)
    (inner : (text.filter fun c => c ≠ '(' ∧ c ≠ ')') = joined below) :
    sides (joined above ++ '/' :: text) = (texts above, texts below) := by
  have unbarredAbove : '/' ∉ joined above := notMem_joined legibleAbove (by decide) (by decide)
  have halves : joined above ++ '/' :: text = ['/'].intercalate [joined above, text] := by
    rw [List.intercalate_cons_cons, List.intercalate_singleton, List.append_assoc,
      List.singleton_append]
  rw [sides, halves,
    List.splitOn_intercalate '/' (by simp [unbarredAbove, unbarred]) (List.cons_ne_nil _ _)]
  simp only [inner, pieces_joined legibleAbove, pieces_joined legibleBelow]

theorem filter_joined (legible : ∀ f ∈ fs, Legible f.base) :
    ((joined fs).filter fun c => c ≠ '(' ∧ c ≠ ')') = joined fs := by
  refine List.filter_eq_self.mpr fun c member => decide_eq_true ⟨?_, ?_⟩
  · rintro rfl
    exact notMem_joined legible (by decide) (by decide) member
  · rintro rfl
    exact notMem_joined legible (by decide) (by decide) member

variable {β : Type} [Keyed β]

/-- A product of which every factor has a legible name and an exponent with an opposite. -/
def Readable (p : Product β) : Prop :=
  ∀ f ∈ p.factors, Legible (key f.base) ∧ f.exponent ≠ Exponent.minimum

/-- The factors with negative exponents. -/
def negatives (p : Product β) : List (Factor β) := p.factors.filter fun f => f.exponent.val < 0

variable {p q : Product String}

/-- Inverted once more, what is written below the bar has negative exponents again. -/
theorem map_invert_denominator (readable : p.Readable) :
    p.denominator.map Factor.invert = p.negatives := by
  rw [denominator, List.map_map]
  calc p.negatives.map (Factor.invert ∘ Factor.invert)
    _ = p.negatives.map id := List.map_congr_left fun f member =>
        Factor.invert_invert (readable f (List.mem_of_mem_filter member)).2
    _ = p.negatives := List.map_id _

theorem legible_numerator (readable : p.Readable) : ∀ f ∈ p.numerator, Legible f.base :=
  fun f member => (readable f (List.mem_of_mem_filter member)).1

theorem legible_negatives (readable : p.Readable) : ∀ f ∈ p.negatives, Legible f.base :=
  fun f member => (readable f (List.mem_of_mem_filter member)).1

theorem legible_denominator (readable : p.Readable) : ∀ f ∈ p.denominator, Legible f.base := by
  intro f member
  obtain ⟨g, negative, rfl⟩ := List.mem_map.mp member
  exact legible_negatives readable g negative

/-! #### The three layouts -/

/-- With nothing above the bar there is no bar, and negative exponents are written as such. -/
theorem toList_text_of_no_numerator (readable : p.Readable) (none : p.numerator = []) :
    (p.text "·" "/").toList = joined p.negatives := by
  rw [← map_invert_denominator readable, ← toList_intercalate_text]
  unfold text
  split
  next noneBelow => rw [noneBelow]; rfl
  next => rfl
  all_goals contradiction

/-- With nothing below the bar there is no bar. -/
theorem toList_text_of_no_denominator (none : p.denominator = []) :
    (p.text "·" "/").toList = joined p.numerator := by
  rw [← toList_intercalate_text]
  unfold text
  split
  next noneAbove _ => rw [noneAbove]; rfl
  next someBelow => exact absurd none someBelow
  next => rfl
  next single only _ => cases none.symm.trans only
  next someBelow _ _ => exact absurd none someBelow

/-- With factors on both sides there is a bar, and parentheses below it if need be. -/
theorem toList_text_of_both (readable : p.Readable) (someAbove : p.numerator ≠ [])
    (someBelow : p.denominator ≠ []) :
    ∃ text, (p.text "·" "/").toList = joined p.numerator ++ '/' :: text ∧ '/' ∉ text
      ∧ (text.filter fun c => c ≠ '(' ∧ c ≠ ')') = joined p.denominator := by
  have below := legible_denominator readable
  have unbarred : '/' ∉ joined p.denominator := notMem_joined below (by decide) (by decide)
  unfold text
  split
  next noneAbove _ => exact absurd noneAbove someAbove
  next noneAbove _ => exact absurd noneAbove someAbove
  next noneBelow _ => exact absurd noneBelow someBelow
  next single only _ =>
    have one : joined p.denominator = single.text.toList := by
      rw [only]
      exact List.intercalate_singleton
    refine ⟨joined p.denominator, ?_, unbarred, filter_joined below⟩
    simp only [String.toList_append, toList_intercalate_text, one]
    exact List.append_assoc ..
  next =>
    refine ⟨['('] ++ joined p.denominator ++ [')'], ?_, ?_, ?_⟩
    · simp only [String.toList_append, toList_intercalate_text]
      simp
    · simp [unbarred]
    · rw [List.filter_append, List.filter_append, filter_joined below]
      exact List.append_nil _

/-! #### Reading -/

/-- A text without a bar and without a minus stands above it. -/
theorem sides_numerator (readable : p.Readable) :
    sides (joined p.numerator) = (texts p.numerator, []) := by
  have positive : ¬∃ f ∈ p.numerator, f.exponent.val < 0 := by
    rintro ⟨f, member, negative⟩
    have above : 0 < f.exponent.val := of_decide_eq_true (List.mem_filter.mp member).2
    omega
  rw [sides_unbarred (legible_numerator readable), if_neg positive]

/-- A text without a bar but with a minus in each factor stands below it. -/
theorem sides_negatives (readable : p.Readable) :
    sides (joined p.negatives) = ([], texts p.negatives) := by
  rw [sides_unbarred (legible_negatives readable)]
  cases members : p.negatives with
  | nil => rfl
  | cons f rest =>
      have member : f ∈ p.negatives := members ▸ List.mem_cons_self
      have negative : f.exponent.val < 0 := of_decide_eq_true (List.mem_filter.mp member).2
      rw [if_pos ⟨f, List.mem_cons_self, negative⟩]

/-- The factors can be read off the text.  Without a factor above the bar, those below it are
written with negative exponents. -/
theorem sides_text (readable : p.Readable) :
    sides (p.text "·" "/").toList
      = (texts p.numerator, texts (if p.numerator = [] then p.negatives else p.denominator)) := by
  by_cases noneAbove : p.numerator = []
  · rw [toList_text_of_no_numerator readable noneAbove, sides_negatives readable, if_pos noneAbove,
      noneAbove]
    rfl
  · rw [if_neg noneAbove]
    by_cases noneBelow : p.denominator = []
    · rw [toList_text_of_no_denominator noneBelow, sides_numerator readable, noneBelow]
      rfl
    · obtain ⟨text, written, unbarred, inner⟩ := toList_text_of_both readable noneAbove noneBelow
      rw [written,
        sides_barred (legible_numerator readable) (legible_denominator readable) unbarred inner]

/-- Products with the same text have the same factors above the bar, and the same below it. -/
theorem eq_of_text (hp : p.Readable) (hq : q.Readable) (same : p.text "·" "/" = q.text "·" "/") :
    p.numerator = q.numerator ∧ p.negatives = q.negatives := by
  have read : (texts p.numerator, texts (if p.numerator = [] then p.negatives else p.denominator))
      = (texts q.numerator, texts (if q.numerator = [] then q.negatives else q.denominator)) := by
    rw [← sides_text hp, same, sides_text hq]
  obtain ⟨textsAbove, textsBelow⟩ := Prod.mk.inj read
  have above : p.numerator = q.numerator :=
    eq_of_texts (legible_numerator hp) (legible_numerator hq) textsAbove
  refine ⟨above, ?_⟩
  -- How the factors below the bar are written depends on whether any stand above it.
  rw [above] at textsBelow
  by_cases noneAbove : q.numerator = []
  · rw [if_pos noneAbove, if_pos noneAbove] at textsBelow
    exact eq_of_texts (legible_negatives hp) (legible_negatives hq) textsBelow
  · rw [if_neg noneAbove, if_neg noneAbove] at textsBelow
    have below : p.denominator = q.denominator :=
      eq_of_texts (legible_denominator hp) (legible_denominator hq) textsBelow
    rw [← map_invert_denominator hp, below, map_invert_denominator hq]

/-- A canonical product consists of the factors above the bar and of those below it. -/
theorem Canonical.perm_sides (canonical : p.Canonical) :
    (p.numerator ++ p.negatives).Perm p.factors := by
  -- No exponent is zero, so whatever is not above the bar is below it.
  have rest : p.negatives = p.factors.filter fun f => !decide (0 < f.exponent.val) := by
    refine List.filter_congr fun f member => ?_
    have nonzero := canonical.nonzero f member
    rw [← decide_not, decide_eq_decide]
    omega
  rw [rest]
  exact List.filter_append_perm _ _

/-! ### Names in place of bases -/

section Named

variable {β : Type} [Keyed β]

theorem numerator_named (p : Product β) : p.named.numerator = p.numerator.map Factor.named := by
  rw [numerator, numerator, named, List.filter_map]
  rfl

theorem negatives_named (p : Product β) : p.named.negatives = p.negatives.map Factor.named := by
  rw [negatives, negatives, named, List.filter_map]
  rfl

theorem map_invert_named (fs : List (Factor β)) :
    (fs.map Factor.named).map Factor.invert = (fs.map Factor.invert).map Factor.named := by
  rw [List.map_map, List.map_map]
  rfl

theorem denominator_named (p : Product β) :
    p.named.denominator = p.denominator.map Factor.named := by
  change p.named.negatives.map Factor.invert = (p.negatives.map Factor.invert).map Factor.named
  rw [negatives_named, map_invert_named]

/-- Only the names of bases show in a text. -/
theorem text_named (p : Product β) (multiplied divided : String) :
    p.named.text multiplied divided = p.text multiplied divided := by
  have join (fs : List (Factor β)) : multiplied.intercalate ((fs.map Factor.named).map Factor.text)
      = multiplied.intercalate (fs.map Factor.text) := by
    rw [List.map_map]
    rfl
  unfold text
  rw [numerator_named, denominator_named]
  cases p.numerator with
  | nil =>
      cases p.denominator with
      | nil => rfl
      | cons g below =>
          have inverse := join ((g :: below).map Factor.invert)
          rwa [← map_invert_named] at inverse
  | cons f above =>
      cases p.denominator with
      | nil => exact join (f :: above)
      | cons g below =>
          cases below with
          | nil => exact congrArg (· ++ divided ++ g.text) (join (f :: above))
          | cons h below =>
              exact congrArg₂ (fun above below => above ++ divided ++ "(" ++ below ++ ")")
                (join (f :: above)) (join (g :: h :: below))

theorem Readable.named {p : Product β} (readable : p.Readable) : p.named.Readable := by
  intro f member
  obtain ⟨g, unnamed, rfl⟩ := List.mem_map.mp member
  exact readable g unnamed

end Named

end Product

end QuantityCalculus
