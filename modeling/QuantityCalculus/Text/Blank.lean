/-
Module: QuantityCalculus.Text.Blank
Layer: Text
Purpose: The blank characters and the trimming of blanks from both ends of a text.
Imports: none
Trusted boundary: none
Main exports: isBlank, trimBlanks
Open obligations: none
-/
namespace QuantityCalculus.Text

/-- The characters with the Unicode property `White_Space`. -/
def isBlank (c : Char) : Bool :=
  let n := c.toNat
  (9 ≤ n && n ≤ 13) || n == 0x20 || n == 0x85 || n == 0xA0 || n == 0x1680
    || (0x2000 ≤ n && n ≤ 0x200A) || n == 0x2028 || n == 0x2029 || n == 0x202F
    || n == 0x205F || n == 0x3000

/-- A list of characters without the blanks at its two ends; blanks inside stay. -/
def trimBlankChars (cs : List Char) : List Char :=
  ((cs.dropWhile isBlank).reverse.dropWhile isBlank).reverse

/-- A text without the blanks at its two ends. -/
def trimBlanks (s : String) : String :=
  String.ofList (trimBlankChars s.toList)

end QuantityCalculus.Text
