/-
Module: QuantityCalculus.Proofs.Text.EditDistance
Layer: Proofs
Purpose: The distance of two words is the least number of edits that lead from one to the other.
  Every entry of the table is the least cost of an alignment of two beginnings, where a pair of
  exchanged characters need only be looked for at the last places before the ends of the beginnings.
Imports: QuantityCalculus.Proofs.Text.Edits, QuantityCalculus.Text.EditDistance
Trusted boundary: none
Main exports: IsLeastCost, isLeastCost_direct, isLeastCost_exchange, lastPosition_cases, IsTable,
  Row.Filled, Row.Filled.run, IsTable.run, editDistance_le_iff, editDistance_eq_leastEdits,
  editDistance_eq_zero_iff, editDistance_comm, editDistance_triangle
Open obligations: none
-/
import QuantityCalculus.Proofs.Text.Edits
import QuantityCalculus.Text.EditDistance

namespace QuantityCalculus.Text

/-! ### Least costs -/

/-- Two words can be aligned at a given cost, and at no lower one. -/
def IsLeastCost (cost : Nat) (xs ys : List Char) : Prop := ∀ n, Aligned n xs ys ↔ cost ≤ n

variable {n : Nat} {xs ys : List Char} {x y : Char}

theorem aligned_comm : Aligned n xs ys ↔ Aligned n ys xs := by
  rw [← edits_iff_aligned, ← edits_iff_aligned]
  exact ⟨Edits.symm, Edits.symm⟩

/-- From the empty word, every character has to be inserted. -/
theorem isLeastCost_nil_left (ys : List Char) : IsLeastCost ys.length [] ys := by
  intro n
  constructor
  · intro h
    induction ys generalizing n with
    | nil => exact Nat.zero_le n
    | cons y ys ih =>
        cases h with
        | insert _ rest => exact Nat.succ_le_succ (ih _ rest)
  · intro le
    have inserted := (Aligned.nil 0).insertAll ys
    rw [List.append_nil, Nat.zero_add] at inserted
    exact inserted.mono le

theorem isLeastCost_nil_right (xs : List Char) : IsLeastCost xs.length xs [] := fun n =>
  aligned_comm.trans (isLeastCost_nil_left xs n)

/-- What an alignment of two words may begin with. -/
theorem Aligned.cons_cases (h : Aligned n (x :: xs) (y :: ys)) :
    (x = y ∧ Aligned n xs ys)
      ∨ (∃ m, n = m + 1 ∧ (Aligned m xs ys ∨ Aligned m xs (y :: ys) ∨ Aligned m (x :: xs) ys))
      ∨ ∃ m u v xs' ys', xs = u ++ y :: xs' ∧ ys = v ++ x :: ys' ∧ Aligned m xs' ys'
        ∧ m + u.length + 1 + v.length ≤ n := by
  cases h with
  | keep _ rest => exact .inl ⟨rfl, rest⟩
  | replace _ _ rest => exact .inr (.inl ⟨_, rfl, .inl rest⟩)
  | delete _ rest => exact .inr (.inl ⟨_, rfl, .inr (.inl rest)⟩)
  | insert _ rest => exact .inr (.inl ⟨_, rfl, .inr (.inr rest)⟩)
  | exchange _ _ u v rest cost => exact .inr (.inr ⟨_, u, v, _, _, rfl, rfl, rest, cost⟩)

/-- The first place of a character, and how far it lies before a given one. -/
theorem exists_first (c : Char) (u xs : List Char) :
    ∃ w t, u ++ c :: xs = w ++ c :: (t ++ xs) ∧ c ∉ w ∧ t.length + w.length = u.length := by
  induction u with
  | nil => exact ⟨[], [], rfl, List.not_mem_nil, rfl⟩
  | cons b u ih =>
      by_cases same : b = c
      · subst same
        exact ⟨[], u ++ [b], by simp, List.not_mem_nil, by simp⟩
      · obtain ⟨w, t, split, absent, length⟩ := ih
        refine ⟨b :: w, t, by rw [List.cons_append, split, List.cons_append], ?_, ?_⟩
        · rw [List.mem_cons, not_or]
          exact ⟨Ne.symm same, absent⟩
        · rw [List.length_cons, List.length_cons, ← length, Nat.add_assoc]

/-- Characters are exchanged at no higher cost at their first places. -/
theorem Aligned.nearest {m : Nat} {u v xs' ys' : List Char} (rest : Aligned m xs' ys') :
    ∃ k w t behind behind', u ++ y :: xs' = w ++ y :: behind ∧ y ∉ w
      ∧ v ++ x :: ys' = t ++ x :: behind' ∧ x ∉ t ∧ Aligned k behind behind'
      ∧ k + w.length + t.length = m + u.length + v.length := by
  obtain ⟨w, p, split, absent, length⟩ := exists_first y u xs'
  obtain ⟨t, q, split', absent', length'⟩ := exists_first x v ys'
  exact ⟨_, w, t, _, _, split, absent, split', absent', (rest.deleteAll p).insertAll q, by omega⟩

/-- Words that have a character at the same first place agree before it and behind it. -/
theorem first_unique {c : Char} {u w a b : List Char} (absent : c ∉ u) (absent' : c ∉ w)
    (same : u ++ c :: a = w ++ c :: b) : u = w ∧ a = b := by
  induction u generalizing w with
  | nil =>
      cases w with
      | nil => exact ⟨rfl, (List.cons.inj same).2⟩
      | cons d w => exact absurd (List.mem_cons.mpr (.inl (List.cons.inj same).1)) absent'
  | cons d u ih =>
      cases w with
      | nil => exact absurd (List.mem_cons.mpr (.inl (List.cons.inj same).1.symm)) absent
      | cons e w =>
          simp only [List.mem_cons, not_or] at absent absent'
          obtain ⟨rfl, behind⟩ := List.cons.inj same
          obtain ⟨rfl, rfl⟩ := ih absent.2 absent'.2 behind
          exact ⟨rfl, rfl⟩

section Step

variable {replaced deleted inserted : Nat} (hr : IsLeastCost replaced xs ys)
  (hd : IsLeastCost deleted xs (y :: ys)) (hi : IsLeastCost inserted (x :: xs) ys)

include hr hd hi

/-- Words can be aligned at the cost of a replacement, a deletion or an insertion in front. -/
theorem aligned_of_direct
    (le : min (replaced + if x = y then 0 else 1) (min (deleted + 1) (inserted + 1)) ≤ n) :
    Aligned n (x :: xs) (y :: ys) := by
  rcases min_le_iff.mp le with le | le
  · split at le
    next same =>
      rw [← same]
      exact .keep x ((hr n).mpr le)
    next => exact (Aligned.replace x y ((hr replaced).mpr le_rfl)).mono le
  · rcases min_le_iff.mp le with le | le
    · exact (Aligned.delete x ((hd deleted).mpr le_rfl)).mono le
    · exact (Aligned.insert y ((hi inserted).mpr le_rfl)).mono le

/-- Unless one of these is the cheapest, the first characters are exchanged, at their first
places. -/
theorem direct_le_or_exchange (h : Aligned n (x :: xs) (y :: ys)) :
    min (replaced + if x = y then 0 else 1) (min (deleted + 1) (inserted + 1)) ≤ n
      ∨ ∃ m w t behind behind', xs = w ++ y :: behind ∧ y ∉ w ∧ ys = t ++ x :: behind' ∧ x ∉ t
        ∧ Aligned m behind behind' ∧ m + w.length + 1 + t.length ≤ n := by
  rcases h.cons_cases with ⟨same, rest⟩ | ⟨m, rfl, rest | rest | rest⟩
    | ⟨m, u, v, xs', ys', rfl, rfl, rest, cost⟩
  · have le := (hr n).mp rest
    rw [if_pos same]
    exact .inl (by omega)
  · have le := (hr m).mp rest
    refine .inl ((Nat.min_le_left _ _).trans ?_)
    split <;> omega
  · have le := (hd m).mp rest
    exact .inl (by omega)
  · have le := (hi m).mp rest
    exact .inl (by omega)
  · obtain ⟨k, w, t, behind, behind', split, absent, split', absent', aligned, same⟩ :=
      rest.nearest (u := u) (v := v) (x := x) (y := y)
    exact .inr ⟨k, w, t, behind, behind', split, absent, split', absent', aligned, by omega⟩

/-- The least cost for two words follows from those for shorter ones, if their first characters
cannot be exchanged. -/
theorem isLeastCost_direct (apart : y ∉ xs ∨ x ∉ ys) :
    IsLeastCost (min (replaced + if x = y then 0 else 1) (min (deleted + 1) (inserted + 1)))
      (x :: xs) (y :: ys) := by
  refine fun n => ⟨fun h => ?_, aligned_of_direct hr hd hi⟩
  rcases direct_le_or_exchange hr hd hi h with le | ⟨_, w, t, _, _, rfl, _, rfl, _⟩
  · exact le
  · rcases apart with apart | apart
    · exact absurd (by simp) apart
    · exact absurd (by simp) apart

/-- If they can, only their first places count. -/
theorem isLeastCost_exchange {exchanged : Nat} {w t behind behind' : List Char}
    (split : xs = w ++ y :: behind) (absent : y ∉ w) (split' : ys = t ++ x :: behind')
    (absent' : x ∉ t) (he : IsLeastCost exchanged behind behind') :
    IsLeastCost (min (min (replaced + if x = y then 0 else 1) (min (deleted + 1) (inserted + 1)))
      (exchanged + w.length + 1 + t.length)) (x :: xs) (y :: ys) := by
  intro n
  constructor
  · intro h
    rcases direct_le_or_exchange hr hd hi h with le | ⟨m, u, v, ahead, ahead', other, without,
      other', without', rest, cost⟩
    · exact (Nat.min_le_left _ _).trans le
    · obtain ⟨rfl, rfl⟩ := first_unique absent without (split.symm.trans other)
      obtain ⟨rfl, rfl⟩ := first_unique absent' without' (split'.symm.trans other')
      have le := (he m).mp rest
      exact (Nat.min_le_right _ _).trans (by omega)
  · intro le
    rcases min_le_iff.mp le with le | le
    · exact aligned_of_direct hr hd hi le
    · rw [split, split']
      exact .exchange x y w t ((he exchanged).mpr le_rfl) le

end Step

/-! ### Beginnings of a word -/

/-- The first characters of a word, the last of them first. -/
def before (word : Array Char) (n : Nat) : List Char := (word.toList.take n).reverse

variable {word left right : Array Char} {i j : Nat}

theorem before_zero : before word 0 = [] := rfl

theorem before_succ (h : n < word.size) : before word (n + 1) = word[n] :: before word n := by
  rw [before, List.take_succ_eq_append_getElem h, List.reverse_concat, Array.getElem_toList, before]

theorem length_before (h : n ≤ word.size) : (before word n).length = n := by
  rw [before, List.length_reverse, List.length_take, Array.length_toList, Nat.min_eq_left h]

/-- A beginning either lacks a character or splits at the last position of it. -/
theorem lastPosition_cases (c : Char) (h : n ≤ word.size) :
    (lastPosition word c n = 0 ∧ c ∉ before word n)
      ∨ ∃ k u, lastPosition word c n = k + 1 ∧ before word n = u ++ c :: before word k ∧ c ∉ u
        ∧ k + 1 + u.length = n := by
  induction n with
  | zero => exact .inl ⟨rfl, List.not_mem_nil⟩
  | succ n ih =>
      simp only [lastPosition, before_succ h, Array.getElem?_eq_getElem h, Option.some.injEq]
      split
      next last => exact .inr ⟨n, [], rfl, by rw [last, List.nil_append], List.not_mem_nil, rfl⟩
      next other =>
        rcases ih (Nat.le_of_succ_le h) with ⟨none, absent⟩ | ⟨k, u, last, split, absent, length⟩
        · exact .inl ⟨none, List.not_mem_cons_of_ne_of_not_mem (Ne.symm other) absent⟩
        · refine .inr ⟨k, word[n] :: u, last, by rw [split, List.cons_append], ?_, ?_⟩
          · exact List.not_mem_cons_of_ne_of_not_mem (Ne.symm other) absent
          · rw [List.length_cons, ← Nat.add_assoc, length]

/-! ### The table -/

/-- The rows of the first beginnings of one word hold the least costs to all beginnings of the
other. -/
structure IsTable (left right : Array Char) (rows : Array (Array Nat)) (i : Nat) : Prop where
  size : rows.size = i + 1
  least : ∀ a ≤ i, ∀ b ≤ right.size, IsLeastCost (entry rows a b) (before left a) (before right b)

/-- A row holds the least costs to the first beginnings, and remembers where the last character of
its own beginning stood last in them. -/
structure Row.Filled (left right : Array Char) (i : Nat) (row : Row) (j : Nat) : Prop where
  size : row.distances.size = j + 1
  least : ∀ b ≤ j, IsLeastCost (row.distances.getD b 0) (before left (i + 1)) (before right b)
  lastMatch : ∀ c, left[i]? = some c → row.lastMatch = lastPosition right c j

variable {rows : Array (Array Nat)} {row : Row}

theorem getD_push_lt {α : Type} (a : Array α) (x d : α) (h : n < a.size) :
    (a.push x).getD n d = a.getD n d := by
  rw [Array.getD_eq_getD_getElem?, Array.getD_eq_getD_getElem?, Array.getElem?_push,
    if_neg (Nat.ne_of_lt h)]

theorem getD_push_size {α : Type} (a : Array α) (x d : α) (h : n = a.size) :
    (a.push x).getD n d = x := by
  rw [Array.getD_eq_getD_getElem?, Array.getElem?_push, if_pos h, Option.getD_some]

/-- The entry that is appended to a row is a least cost, too. -/
theorem Row.Filled.extend_least (h : row.Filled left right i j) (table : IsTable left right rows i)
    (hi : i < left.size) (hj : j < right.size) :
    IsLeastCost ((row.extend left right rows i j).distances.getD (j + 1) 0) (before left (i + 1))
      (before right (j + 1)) := by
  have replaced := table.least i le_rfl j hj.le
  have deleted := table.least i le_rfl (j + 1) hj
  have inserted := h.least j le_rfl
  rw [before_succ hj] at deleted
  rw [before_succ hi] at inserted
  rw [before_succ hi, before_succ hj, extend, getD_push_size _ _ _ h.size.symm]
  simp only [h.lastMatch _ (Array.getElem?_eq_getElem hi), Array.getElem?_eq_getElem hi,
    Array.getElem?_eq_getElem hj, Option.some.injEq]
  rcases lastPosition_cases right[j] hi.le with ⟨none, absent⟩ | ⟨k, w, last, split, absent, length⟩
  · rw [if_pos (.inl none)]
    exact isLeastCost_direct replaced deleted inserted (.inl absent)
  · rcases lastPosition_cases left[i] hj.le
      with ⟨none, absent'⟩ | ⟨l, t, last', split', absent', length'⟩
    · rw [if_pos (.inr none)]
      exact isLeastCost_direct replaced deleted inserted (.inr absent')
    · have exchanged := table.least k (by omega) l (by omega)
      have least :=
        isLeastCost_exchange replaced deleted inserted split absent split' absent' exchanged
      have between : i - (k + 1) = w.length := by omega
      have between' : j - (l + 1) = t.length := by omega
      rw [if_neg (by omega), last, last', between, between']
      exact least

/-- One more entry fills a row one place further. -/
theorem Row.Filled.extend (h : row.Filled left right i j) (table : IsTable left right rows i)
    (hi : i < left.size) (hj : j < right.size) :
    (row.extend left right rows i j).Filled left right i (j + 1) where
  size := by rw [Row.extend, Array.size_push, h.size]
  least := by
    intro b le
    rcases Nat.lt_or_eq_of_le le with earlier | rfl
    · have kept : (row.extend left right rows i j).distances.getD b 0 = row.distances.getD b 0 :=
        getD_push_lt _ _ _ (h.size ▸ earlier)
      rw [kept]
      exact h.least b (Nat.le_of_lt_succ earlier)
    · exact h.extend_least table hi hj
  lastMatch := by
    intro c ends
    simp only [Row.extend, lastPosition, h.lastMatch c ends, ends, eq_comm]

/-- A row begins with the deletion of all characters of its own beginning. -/
theorem Row.Filled.start (hi : i < left.size) : Row.Filled left right i ⟨#[i + 1], 0⟩ 0 where
  size := rfl
  least := by
    intro b le
    rw [Nat.le_zero.mp le, before_zero]
    have all := isLeastCost_nil_right (before left (i + 1))
    rw [length_before hi] at all
    exact all
  lastMatch := fun _ _ => rfl

/-- A row is filled from left to right. -/
theorem Row.Filled.run (table : IsTable left right rows i) (hi : i < left.size)
    (hj : j ≤ right.size) :
    ((List.range j).foldl (Row.extend left right rows i) ⟨#[i + 1], 0⟩).Filled left right i j := by
  induction j with
  | zero => exact start hi
  | succ j ih =>
      rw [List.range_succ, List.foldl_append]
      exact (ih (Nat.le_of_succ_le hj)).extend table hi hj

/-- One more row is filled with all the rows before it at hand. -/
theorem IsTable.push (table : IsTable left right rows i) (hi : i < left.size) :
    IsTable left right (rows.push (nextRow left right rows i)) (i + 1) where
  size := by rw [Array.size_push, table.size]
  least := by
    intro a le b within
    rw [entry]
    rcases Nat.lt_or_eq_of_le le with earlier | rfl
    · rw [getD_push_lt _ _ _ (table.size ▸ earlier)]
      exact table.least a (Nat.le_of_lt_succ earlier) b within
    · rw [getD_push_size _ _ _ table.size.symm]
      exact (Row.Filled.run table hi le_rfl).least b within

/-- The first row counts insertions only. -/
theorem IsTable.first : IsTable left right #[(List.range (right.size + 1)).toArray] 0 where
  size := rfl
  least := by
    intro a le b within
    rw [Nat.le_zero.mp le, before_zero]
    have all := isLeastCost_nil_left (before right b)
    rw [length_before within] at all
    have read : entry #[(List.range (right.size + 1)).toArray] 0 b = b := by
      simp [entry, Nat.lt_succ_of_le within]
    rw [read]
    exact all

/-- The table is filled row by row. -/
theorem IsTable.run (hi : i ≤ left.size) :
    IsTable left right ((List.range i).foldl (fun rows i => rows.push (nextRow left right rows i))
      #[(List.range (right.size + 1)).toArray]) i := by
  induction i with
  | zero => exact first
  | succ i ih =>
      rw [List.range_succ (n := i), List.foldl_append]
      exact (ih (Nat.le_of_succ_le hi)).push hi

/-! ### The distance -/

theorem before_all (word : List Char) : before word.toArray word.toArray.size = word.reverse := by
  rw [before, List.size_toArray, List.take_length]

theorem isLeastCost_editDistance (left right : String) :
    IsLeastCost (editDistance left right) left.toList.reverse right.toList.reverse := by
  rw [← before_all, ← before_all]
  exact (IsTable.run le_rfl).least _ le_rfl _ le_rfl

/-- The distance is the least number of edits that lead from one word to the other. -/
theorem editDistance_le_iff {left right : String} :
    editDistance left right ≤ n ↔ Edits n left.toList right.toList := by
  rw [← isLeastCost_editDistance left right n, ← edits_iff_aligned, edits_reverse_iff]

/-- So it is the Damerau–Levenshtein distance, with neighbours exchanged at any time. -/
theorem editDistance_eq_leastEdits (left right : String) :
    editDistance left right = leastEdits left.toList right.toList :=
  eq_of_forall_ge_iff fun _ => editDistance_le_iff.trans leastEdits_le_iff.symm

theorem edits_editDistance (left right : String) :
    Edits (editDistance left right) left.toList right.toList :=
  editDistance_le_iff.mp le_rfl

/-- No two different words are at distance zero. -/
theorem editDistance_eq_zero_iff {left right : String} :
    editDistance left right = 0 ↔ left = right := by
  rw [← Nat.le_zero, editDistance_le_iff, edits_zero_iff, String.toList_inj]

theorem editDistance_comm (left right : String) :
    editDistance left right = editDistance right left :=
  le_antisymm (editDistance_le_iff.mpr (edits_editDistance right left).symm)
    (editDistance_le_iff.mpr (edits_editDistance left right).symm)

theorem editDistance_triangle (left middle right : String) :
    editDistance left right ≤ editDistance left middle + editDistance middle right :=
  editDistance_le_iff.mpr ((edits_editDistance left middle).trans (edits_editDistance middle right))

end QuantityCalculus.Text
