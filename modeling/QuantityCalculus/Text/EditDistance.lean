/-
Module: QuantityCalculus.Text.EditDistance
Layer: Text
Purpose: The distance of two words in insertions, deletions, substitutions and transpositions of
  neighbours, where other edits may happen between two transposed characters.
Imports: none
Trusted boundary: none
Main exports: editDistance
Open obligations: none
-/
namespace QuantityCalculus.Text

/-- The last of the first `n` positions, counted from one, at which `c` stands; zero if there is
none. -/
def lastPosition (word : Array Char) (c : Char) : Nat → Nat
  | 0 => 0
  | n + 1 => if word[n]? = some c then n + 1 else lastPosition word c n

/-- The entry of a table of distances; entries outside the table are zero. -/
def entry (rows : Array (Array Nat)) (i j : Nat) : Nat :=
  (rows.getD i #[]).getD j 0

/-- A row of distances that is being filled, and the last position in it whose character matched. -/
structure Row where
  distances : Array Nat
  lastMatch : Nat

/-- Appends the distance of the first `i + 1` characters of `left` and the first `j + 1` characters
of `right` to the row of all shorter beginnings of `right`.  `rows` are those of all shorter
beginnings of `left`.  A transposition joins the last earlier pair of positions that match
crosswise, and pays for all characters in between. -/
def Row.extend (left right : Array Char) (rows : Array (Array Nat)) (i : Nat) (row : Row)
    (j : Nat) :
    Row :=
  let matched := left[i]? = right[j]?
  let substitution := entry rows i j + (if matched then 0 else 1)
  let deletion := entry rows i (j + 1) + 1
  let insertion := row.distances.getD j 0 + 1
  let k := match right[j]? with
    | some c => lastPosition left c i
    | none => 0
  let l := row.lastMatch
  let direct := min substitution (min deletion insertion)
  let distance :=
    if k = 0 ∨ l = 0 then direct
    else min direct (entry rows (k - 1) (l - 1) + (i - k) + 1 + (j - l))
  ⟨row.distances.push distance, if matched then j + 1 else l⟩

/-- The row of distances of the first `i + 1` characters of `left` to all beginnings of `right`. -/
def nextRow (left right : Array Char) (rows : Array (Array Nat)) (i : Nat) : Array Nat :=
  ((List.range right.size).foldl (Row.extend left right rows i) ⟨#[i + 1], 0⟩).distances

/-- The unrestricted Damerau–Levenshtein distance of two words. -/
def editDistance (left right : String) : Nat :=
  let xs := left.toList.toArray
  let ys := right.toList.toArray
  let first := (List.range (ys.size + 1)).toArray
  let rows := (List.range xs.size).foldl (fun rows i => rows.push (nextRow xs ys rows i)) #[first]
  entry rows xs.size ys.size

end QuantityCalculus.Text
