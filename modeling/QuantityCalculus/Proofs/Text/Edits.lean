/-
Module: QuantityCalculus.Proofs.Text.Edits
Layer: Proofs
Purpose: Edits of words, and alignments of two words.  A sequence of edits may change one place many
  times and pass through words that have nothing in common with either end.  An alignment treats
  every character once, from front to back, and so lends itself to a table.  As many edits lead from
  one word to another as the cheapest alignment costs.
Imports: Mathlib.Order.Lattice.Nat, Mathlib.Tactic
Trusted boundary: none
Main exports: Edit, Edits, leastEdits, leastEdits_le_iff, Aligned, Aligned.edit, edits_iff_aligned,
  edits_reverse_iff
Open obligations: none
-/
import Mathlib.Order.Lattice.Nat
import Mathlib.Tactic

namespace QuantityCalculus.Text

/-! ### Edits -/

/-- A single edit of a word: a character is inserted, deleted or replaced, or two neighbours change
places, in front or further behind. -/
inductive Edit : List Char → List Char → Prop where
  | insertion (c : Char) (xs : List Char) : Edit xs (c :: xs)
  | deletion (c : Char) (xs : List Char) : Edit (c :: xs) xs
  | substitution (c d : Char) (xs : List Char) : Edit (c :: xs) (d :: xs)
  | transposition (c d : Char) (xs : List Char) : Edit (c :: d :: xs) (d :: c :: xs)
  | later (c : Char) {xs ys : List Char} (edit : Edit xs ys) : Edit (c :: xs) (c :: ys)

/-- At most a given number of edits leads from one word to another. -/
inductive Edits : Nat → List Char → List Char → Prop where
  | none (n : Nat) (xs : List Char) : Edits n xs xs
  | more {n : Nat} {xs ys zs : List Char} (edits : Edits n xs ys) (edit : Edit ys zs) :
      Edits (n + 1) xs zs

variable {m n : Nat} {xs ys zs : List Char}

/-- Every edit can be undone by one. -/
theorem Edit.symm (h : Edit xs ys) : Edit ys xs := by
  induction h with
  | insertion c xs => exact .deletion c xs
  | deletion c xs => exact .insertion c xs
  | substitution c d xs => exact .substitution d c xs
  | transposition c d xs => exact .transposition d c xs
  | later c _ ih => exact .later c ih

/-- An edit does not depend on what stands before it. -/
theorem Edit.append_left (before : List Char) (h : Edit xs ys) :
    Edit (before ++ xs) (before ++ ys) := by
  induction before with
  | nil => exact h
  | cons c before ih => exact .later c ih

/-- Nor on what stands behind it. -/
theorem Edit.append_right (h : Edit xs ys) (after : List Char) :
    Edit (xs ++ after) (ys ++ after) := by
  induction h with
  | insertion c xs => exact .insertion c (xs ++ after)
  | deletion c xs => exact .deletion c (xs ++ after)
  | substitution c d xs => exact .substitution c d (xs ++ after)
  | transposition c d xs => exact .transposition c d (xs ++ after)
  | later c _ ih => exact .later c ih

/-- An edit can be read from back to front. -/
theorem Edit.reverse (h : Edit xs ys) : Edit xs.reverse ys.reverse := by
  induction h with
  | insertion c xs =>
      simpa using (Edit.insertion c []).append_left xs.reverse
  | deletion c xs =>
      simpa using (Edit.deletion c []).append_left xs.reverse
  | substitution c d xs =>
      simpa using (Edit.substitution c d []).append_left xs.reverse
  | transposition c d xs =>
      simpa using (Edit.transposition d c []).append_left xs.reverse
  | later c _ ih =>
      simpa using ih.append_right [c]

namespace Edits

theorem mono (h : Edits m xs ys) (le : m ≤ n) : Edits n xs ys := by
  induction h generalizing n with
  | none m xs => exact .none n xs
  | more _ edit ih =>
      obtain ⟨k, rfl⟩ := Nat.exists_eq_add_of_le' le
      exact (ih (Nat.le_add_left _ _)).more edit

theorem single (h : Edit xs ys) : Edits 1 xs ys := .more (.none 0 xs) h

theorem trans (h : Edits m xs ys) (k : Edits n ys zs) : Edits (m + n) xs zs := by
  induction k with
  | none n ys => exact h.mono (Nat.le_add_right m n)
  | more _ edit ih => exact (ih h).more edit

theorem symm (h : Edits n xs ys) : Edits n ys xs := by
  induction h with
  | none n xs => exact .none n xs
  | more _ edit ih =>
      rw [Nat.add_comm]
      exact (single edit.symm).trans ih

theorem later (c : Char) (h : Edits n xs ys) : Edits n (c :: xs) (c :: ys) := by
  induction h with
  | none n xs => exact .none n (c :: xs)
  | more _ edit ih => exact ih.more (.later c edit)

theorem append_left (before : List Char) (h : Edits n xs ys) :
    Edits n (before ++ xs) (before ++ ys) := by
  induction before with
  | nil => exact h
  | cons c before ih => exact ih.later c

theorem reverse (h : Edits n xs ys) : Edits n xs.reverse ys.reverse := by
  induction h with
  | none n xs => exact .none n xs.reverse
  | more _ edit ih => exact ih.more edit.reverse

theorem insertAll (v ys : List Char) : Edits v.length ys (v ++ ys) := by
  induction v with
  | nil => exact .none 0 ys
  | cons c v ih => exact ih.more (.insertion c (v ++ ys))

end Edits

/-- Edits from back to front are edits from front to back. -/
theorem edits_reverse_iff : Edits n xs.reverse ys.reverse ↔ Edits n xs ys := by
  constructor
  · intro h
    simpa using h.reverse
  · exact Edits.reverse

/-- Without an edit nothing changes. -/
theorem edits_zero_iff : Edits 0 xs ys ↔ xs = ys := by
  constructor
  · intro h
    cases h
    rfl
  · rintro rfl
    exact .none 0 xs

/-- Any word can be edited into any other: all characters are deleted, and the new ones inserted. -/
theorem exists_edits (xs ys : List Char) : ∃ n, Edits n xs ys := by
  have deleted := (Edits.insertAll xs []).symm
  have inserted := Edits.insertAll ys []
  rw [List.append_nil] at deleted inserted
  exact ⟨_, deleted.trans inserted⟩

/-- The least number of edits that lead from one word to another. -/
noncomputable def leastEdits (xs ys : List Char) : ℕ := sInf {n | Edits n xs ys}

theorem leastEdits_le_iff : leastEdits xs ys ≤ n ↔ Edits n xs ys := by
  have attained : Edits (leastEdits xs ys) xs ys := Nat.sInf_mem (exists_edits xs ys)
  exact ⟨attained.mono, fun h => Nat.sInf_le h⟩

/-! ### Alignments -/

/-- Two words are aligned, from front to back, at no more than a given cost.  Characters are kept,
replaced, deleted and inserted.  Two characters may also be exchanged if all those between them are
deleted from the first word and inserted into the second one. -/
inductive Aligned : Nat → List Char → List Char → Prop where
  | nil (n : Nat) : Aligned n [] []
  | keep {n : Nat} {xs ys : List Char} (c : Char) (rest : Aligned n xs ys) :
      Aligned n (c :: xs) (c :: ys)
  | replace {n : Nat} {xs ys : List Char} (c d : Char) (rest : Aligned n xs ys) :
      Aligned (n + 1) (c :: xs) (d :: ys)
  | delete {n : Nat} {xs ys : List Char} (c : Char) (rest : Aligned n xs ys) :
      Aligned (n + 1) (c :: xs) ys
  | insert {n : Nat} {xs ys : List Char} (d : Char) (rest : Aligned n xs ys) :
      Aligned (n + 1) xs (d :: ys)
  | exchange {m n : Nat} {xs ys : List Char} (c d : Char) (u v : List Char)
      (rest : Aligned m xs ys) (cost : m + u.length + 1 + v.length ≤ n) :
      Aligned n (c :: (u ++ d :: xs)) (d :: (v ++ c :: ys))

namespace Aligned

theorem mono (h : Aligned m xs ys) (le : m ≤ n) : Aligned n xs ys := by
  induction h generalizing n with
  | nil => exact .nil n
  | keep c _ ih => exact .keep c (ih le)
  | replace c d _ ih =>
      obtain ⟨k, rfl⟩ := Nat.exists_eq_add_of_le' le
      exact .replace c d (ih (Nat.le_add_left _ _))
  | delete c _ ih =>
      obtain ⟨k, rfl⟩ := Nat.exists_eq_add_of_le' le
      exact .delete c (ih (Nat.le_add_left _ _))
  | insert d _ ih =>
      obtain ⟨k, rfl⟩ := Nat.exists_eq_add_of_le' le
      exact .insert d (ih (Nat.le_add_left _ _))
  | exchange c d u v rest cost _ => exact .exchange c d u v rest (cost.trans le)

theorem refl (n : Nat) (xs : List Char) : Aligned n xs xs := by
  induction xs with
  | nil => exact .nil n
  | cons c xs ih => exact .keep c ih

theorem deleteAll (u : List Char) (h : Aligned n xs ys) : Aligned (n + u.length) (u ++ xs) ys := by
  induction u with
  | nil => exact h
  | cons c u ih => exact .delete c ih

theorem insertAll (v : List Char) (h : Aligned n xs ys) : Aligned (n + v.length) xs (v ++ ys) := by
  induction v with
  | nil => exact h
  | cons c v ih => exact .insert c ih

/-- The cost of an alignment pays for as many edits. -/
theorem edits (h : Aligned n xs ys) : Edits n xs ys := by
  induction h with
  | nil n => exact .none n []
  | keep c _ ih => exact ih.later c
  | @replace n xs ys c d _ ih => exact (ih.later c).more (.substitution c d ys)
  | @delete n xs ys c _ ih => exact (ih.later c).more (.deletion c ys)
  | @insert n xs ys d _ ih => exact ih.more (.insertion d ys)
  | @exchange m n xs ys c d u v _ cost ih =>
      have deleted : Edits u.length (c :: (u ++ d :: ys)) (c :: d :: ys) :=
        (Edits.insertAll u (d :: ys)).symm.later c
      have exchanged : Edits 1 (c :: d :: ys) (d :: c :: ys) := .single (.transposition c d ys)
      have inserted : Edits v.length (d :: c :: ys) (d :: (v ++ c :: ys)) :=
        (Edits.insertAll v (c :: ys)).later d
      have first : Edits m (c :: (u ++ d :: xs)) (c :: (u ++ d :: ys)) :=
        ((ih.later d).append_left u).later c
      exact (((first.trans deleted).trans exchanged).trans inserted).mono cost

/-! ### One more edit -/

/-- In an alignment with a word, its first character stems from the same character, or can be left
out without any cost. -/
theorem first_cases {b : Char} (h : Aligned n xs (b :: ys)) :
    Aligned n xs ys
      ∨ ∃ m w rest, xs = w ++ b :: rest ∧ Aligned m rest ys ∧ m + w.length ≤ n := by
  generalize whole : b :: ys = zs at h
  induction h with
  | nil => cases whole
  | @keep n xs _ c rest _ =>
      cases whole
      exact .inr ⟨n, [], xs, rfl, rest, le_rfl⟩
  | replace c d rest _ =>
      cases whole
      exact .inl (.delete c rest)
  | delete c _ ih =>
      rcases ih whole with without | ⟨m, w, rest, rfl, aligned, cost⟩
      · exact .inl (.delete c without)
      · exact .inr ⟨m, c :: w, rest, rfl, aligned, Nat.succ_le_succ cost⟩
  | insert d rest _ =>
      cases whole
      exact .inl (rest.mono (Nat.le_succ _))
  | @exchange m n xs ys c d u v rest cost _ =>
      cases whole
      have left := (Aligned.keep c ((Aligned.delete b rest).deleteAll u)).insertAll v
      exact .inl (left.mono (by omega))

/-- Transposing the first two characters costs no more than one, if the first one is kept. -/
theorem transpose_kept (c : Char) {b : Char} (h : Aligned n xs (b :: ys)) :
    Aligned (n + 1) (c :: xs) (b :: c :: ys) := by
  rcases h.first_cases with without | ⟨m, w, rest, rfl, aligned, cost⟩
  · exact .insert b (.keep c without)
  · exact .exchange c b w [] aligned (by rw [List.length_nil]; omega)

/-- The same if the first one replaces another one. -/
theorem transpose_replaced (c d : Char) {b : Char} (h : Aligned n xs (b :: ys)) :
    Aligned (n + 2) (c :: xs) (b :: d :: ys) := by
  rcases h.first_cases with without | ⟨m, w, rest, rfl, aligned, cost⟩
  · exact .insert b (.replace c d without)
  · have kept := Aligned.delete c ((Aligned.keep b (Aligned.insert d aligned)).deleteAll w)
    exact kept.mono (by omega)

end Aligned

/-- Where an edit of a word may take place, seen from one of its characters. -/
theorem Edit.append_cases {c : Char} {v : List Char} (h : Edit (v ++ c :: ys) zs) :
    (∃ w, zs = w ++ c :: ys ∧ w.length ≤ v.length + 1)
      ∨ zs = v ++ ys
      ∨ (∃ d, zs = v ++ d :: ys)
      ∨ (∃ w b, v = w ++ [b] ∧ zs = w ++ c :: b :: ys)
      ∨ (∃ b rest, ys = b :: rest ∧ zs = v ++ b :: c :: rest)
      ∨ ∃ ws, Edit ys ws ∧ zs = v ++ c :: ws := by
  induction v generalizing zs with
  | nil =>
      cases h with
      | insertion b => exact .inl ⟨[b], rfl, le_rfl⟩
      | deletion => exact .inr (.inl rfl)
      | substitution _ d => exact .inr (.inr (.inl ⟨d, rfl⟩))
      | transposition _ b rest => exact .inr (.inr (.inr (.inr (.inl ⟨b, rest, rfl, rfl⟩))))
      | later _ edit => exact .inr (.inr (.inr (.inr (.inr ⟨_, edit, rfl⟩))))
  | cons a v ih =>
      rw [List.cons_append] at h
      generalize whole : v ++ c :: ys = behind at h
      cases h with
      | insertion b =>
          subst whole
          exact .inl ⟨b :: a :: v, rfl, le_rfl⟩
      | deletion =>
          subst whole
          exact .inl ⟨v, rfl, by rw [List.length_cons]; omega⟩
      | substitution _ d =>
          subst whole
          exact .inl ⟨d :: v, rfl, Nat.le_succ _⟩
      | transposition _ b rest =>
          cases v with
          | nil =>
              cases whole
              exact .inr (.inr (.inr (.inl ⟨[], a, rfl, rfl⟩)))
          | cons e v =>
              cases whole
              exact .inl ⟨b :: a :: v, rfl, Nat.le_succ _⟩
      | later _ edit =>
          subst whole
          rcases ih edit with ⟨w, rfl, shorter⟩ | rfl | ⟨d, rfl⟩ | ⟨w, b, rfl, rfl⟩
            | ⟨b, rest, rfl, rfl⟩ | ⟨ws, deeper, rfl⟩
          · exact .inl ⟨a :: w, rfl, Nat.succ_le_succ shorter⟩
          · exact .inr (.inl rfl)
          · exact .inr (.inr (.inl ⟨d, rfl⟩))
          · exact .inr (.inr (.inr (.inl ⟨a :: w, b, rfl, rfl⟩)))
          · exact .inr (.inr (.inr (.inr (.inl ⟨b, rest, rfl, rfl⟩))))
          · exact .inr (.inr (.inr (.inr (.inr ⟨ws, deeper, rfl⟩))))

namespace Aligned

/-- An edit in or behind the second one of two exchanged characters costs no more than one. -/
theorem exchange_edit {c : Char} (d : Char) (u : List Char) {v : List Char}
    (rest : Aligned m xs ys) (cost : m + u.length + 1 + v.length ≤ n)
    (later : ∀ ws, Edit ys ws → Aligned (m + 1) xs ws) (edit : Edit (v ++ c :: ys) zs) :
    Aligned (n + 1) (c :: (u ++ d :: xs)) (d :: zs) := by
  -- The first character is given up where its counterpart is edited.
  have givenUp : ∀ {k : Nat} {ws : List Char}, Aligned k xs (v ++ ws) →
      k + u.length + 1 ≤ n + 1 → Aligned (n + 1) (c :: (u ++ d :: xs)) (d :: (v ++ ws)) :=
    fun aligned le => (Aligned.delete c ((Aligned.keep d aligned).deleteAll u)).mono le
  rcases edit.append_cases with ⟨w, rfl, shorter⟩ | rfl | ⟨e, rfl⟩ | ⟨w, b, rfl, rfl⟩
    | ⟨b, behind, rfl, rfl⟩ | ⟨ws, deeper, rfl⟩
  · exact .exchange c d u w rest (by omega)
  · exact givenUp (rest.insertAll v) (by omega)
  · exact givenUp ((Aligned.insert e rest).insertAll v) (by omega)
  · rw [List.length_append, List.length_singleton] at cost
    exact .exchange c d u w (.insert b rest) (by omega)
  · have inserted := later (b :: c :: behind) (.later b (.insertion c behind))
    exact givenUp (inserted.insertAll v) (by omega)
  · exact .exchange c d u v (later ws deeper) (by omega)

/-- An edit of the second word costs no more than one. -/
theorem edit (h : Aligned n xs ys) (edit : Edit ys zs) : Aligned (n + 1) xs zs := by
  induction h generalizing zs with
  | nil n =>
      cases edit with
      | insertion b => exact .insert b (.nil n)
  | keep c rest ih =>
      cases edit with
      | insertion b => exact .insert b (.keep c rest)
      | deletion => exact .delete c rest
      | substitution _ e => exact .replace c e rest
      | transposition _ b => exact rest.transpose_kept c
      | later _ edit => exact .keep c (ih edit)
  | replace c d rest ih =>
      cases edit with
      | insertion b => exact .insert b (.replace c d rest)
      | deletion => exact (Aligned.delete c rest).mono (Nat.le_succ _)
      | substitution _ e => exact (Aligned.replace c e rest).mono (Nat.le_succ _)
      | transposition _ b => exact rest.transpose_replaced c d
      | later _ edit => exact .replace c d (ih edit)
  | delete c _ ih => exact .delete c (ih edit)
  | insert d rest ih =>
      cases edit with
      | insertion b => exact .insert b (.insert d rest)
      | deletion => exact rest.mono (by omega)
      | substitution _ e => exact (Aligned.insert e rest).mono (Nat.le_succ _)
      | transposition _ b behind =>
          exact (ih (.later b (.insertion d behind))).mono (Nat.le_succ _)
      | later _ edit => exact .insert d (ih edit)
  | @exchange m n xs ys c d u v rest cost ih =>
      -- Both characters can be had at the same cost without the first one in the second word.
      have without : Aligned n (c :: (u ++ d :: xs)) (v ++ c :: ys) :=
        ((Aligned.keep c ((Aligned.delete d rest).deleteAll u)).insertAll v).mono (by omega)
      generalize whole : v ++ c :: ys = behind at edit without
      cases edit with
      | insertion b =>
          subst whole
          exact .insert b (.exchange c d u v rest cost)
      | deletion => exact without.mono (Nat.le_succ n)
      | substitution _ e => exact .insert e without
      | transposition _ b behind =>
          cases v with
          | nil =>
              cases whole
              exact (Aligned.keep c ((Aligned.keep d rest).deleteAll u)).mono (by omega)
          | cons e v =>
              cases whole
              rw [List.length_cons] at cost
              exact .insert b (.exchange c d u v rest (by omega))
      | later _ edit =>
          subst whole
          exact rest.exchange_edit d u cost (fun ws => ih) edit

end Aligned

/-- At most so many edits lead from one word to another as an alignment of the two may cost. -/
theorem edits_iff_aligned : Edits n xs ys ↔ Aligned n xs ys := by
  constructor
  · intro h
    induction h with
    | none n xs => exact .refl n xs
    | more _ edit ih => exact ih.edit edit
  · exact Aligned.edits

end QuantityCalculus.Text
