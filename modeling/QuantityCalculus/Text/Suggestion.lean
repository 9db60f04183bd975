/-
Module: QuantityCalculus.Text.Suggestion
Layer: Text
Purpose: The known name that a misspelled one most likely stands for.
Imports: QuantityCalculus.Text.LowerCase, QuantityCalculus.Text.EditDistance
Trusted boundary: none
Main exports: nameDistance, suggest
Open obligations: none
-/
import QuantityCalculus.Text.LowerCase
import QuantityCalculus.Text.EditDistance

namespace QuantityCalculus.Text

/-- No name further away than this is suggested. -/
def maxNameDistance : Nat := 2

/-- Shorter names are close to too many others to be corrected. -/
def minCorrectableLength : Nat := 3

/-- How far a name is from what was written.  Case does not count. -/
def nameDistance (name written : String) : Nat :=
  editDistance (lowerCase name) (lowerCase written)

/-- A name together with its distance from what was written. -/
structure RankedName where
  distance : Nat
  name : String
deriving DecidableEq, Repr

/-- Nearer names rank first, and names that are equally near rank in the order of their
characters. -/
def RankedName.before (a b : RankedName) : Bool :=
  a.distance < b.distance || (a.distance == b.distance && a.name < b.name)

/-- The first of a list of names that no other one ranks before. -/
def RankedName.best? : List RankedName → Option RankedName
  | [] => none
  | a :: rest => some (rest.foldl (fun best b => if b.before best then b else best) a)

/-- The candidate closest to a misspelled name, if the name is long enough to be corrected and some
candidate is close enough. -/
def suggest (candidates : List String) (written : String) : Option String :=
  if written.length < minCorrectableLength then none
  else
    let ranked := candidates.map fun name => RankedName.mk (nameDistance name written) name
    (RankedName.best? (ranked.filter fun r => r.distance ≤ maxNameDistance)).map (·.name)

end QuantityCalculus.Text
