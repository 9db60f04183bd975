/-
Module: QuantityCalculus.Text.LowerCase
Layer: Text
Purpose: Lower-casing of texts in full Unicode, with the two forms of the small sigma.
Imports: QuantityCalculus.Text.CaseTable
Trusted boundary: the character tables of QuantityCalculus.Text.CaseTable
Main exports: lowerCase
Open obligations: none
-/
import QuantityCalculus.Text.CaseTable

namespace QuantityCalculus.Text

/-- Whether some range of the table contains the code point. -/
def inRanges (table : Array (Nat × Nat)) (n : Nat) : Bool :=
  table.any fun (first, last) => first ≤ n && n ≤ last

/-- Characters that are passed over when the surroundings of a capital sigma are inspected.  In
ASCII these are the apostrophe, the full stop, the colon, the circumflex and the grave accent. -/
def isCaseIgnorable (c : Char) : Bool :=
  if c.toNat < 0x80 then [0x27, 0x2E, 0x3A, 0x5E, 0x60].contains c.toNat
  else inRanges ignorableRanges c.toNat

/-- Characters that have case and are not passed over. -/
def isCased (c : Char) : Bool :=
  if c.toNat < 0x80 then c.isAlpha else inRanges casedRanges c.toNat

/-- The lower-case form of a character that stands alone. -/
def lowerChar (c : Char) : List Char :=
  if c.toNat < 0x80 then [c.toLower]
  else if c.toNat == 0x130 then ['i', Char.ofNat 0x307]
  else
    match lowerRuns.find? (fun r => r.first ≤ c.toNat && c.toNat ≤ r.last) with
    | some r =>
        if (c.toNat - r.first) % r.step == 0 then [Char.ofNat (c.toNat + r.shift).toNat] else [c]
    | none => [c]

/-- Whether a cased character comes first once the ignorable ones are passed over. -/
def casedComesNext (cs : List Char) : Bool :=
  match cs.dropWhile isCaseIgnorable with
  | [] => false
  | c :: _ => isCased c

/-- Lower-cases the characters after `before`, which is held in reverse.  A capital sigma ends a
word, and becomes the final form, if a cased character precedes it and none follows. -/
def lowerChars (before : List Char) : List Char → List Char
  | [] => []
  | c :: rest =>
      if c.toNat == 0x3A3 then
        let final := casedComesNext before && !casedComesNext rest
        Char.ofNat (if final then 0x3C2 else 0x3C3) :: lowerChars (c :: before) rest
      else lowerChar c ++ lowerChars (c :: before) rest

/-- The lower-case form of a text. -/
def lowerCase (s : String) : String :=
  String.ofList (lowerChars [] s.toList)

end QuantityCalculus.Text
