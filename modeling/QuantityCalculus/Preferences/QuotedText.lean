/-
Module: QuantityCalculus.Preferences.QuotedText
Layer: Preferences
Purpose: Quoted texts in TOML documents: plain and literal ones, on one line or on several.
Imports: none
Trusted boundary: none
Main exports: QuotedText.read?, QuotedText.write
Open obligations: none
-/
namespace QuantityCalculus.QuotedText

def quote : Char := Char.ofNat 34
def apostrophe : Char := Char.ofNat 39
def backslash : Char := Char.ofNat 92
def lineFeed : Char := Char.ofNat 10
def carriageReturn : Char := Char.ofNat 13
def tab : Char := Char.ofNat 9

/-- The characters that may stand in a document as they are: all but the control characters, of
which the tab is excepted. -/
def isPrintable (c : Char) : Bool := c == tab || (0x20 ≤ c.toNat && c.toNat != 0x7F)

/-- Spaces and tabs separate what stands on a line. -/
def isSpace (c : Char) : Bool := c == ' ' || c == tab

/-- A line ends with a line feed, before which a carriage return may stand. -/
def dropLineEnd? : List Char → Option (List Char)
  | c :: rest =>
      if c == lineFeed then some rest
      else if c == carriageReturn then
        match rest with
        | d :: rest => if d == lineFeed then some rest else none
        | [] => none
      else none
  | [] => none

/-- Text read so far, together with what follows it. -/
structure Piece where
  chars : List Char
  rest : List Char
deriving DecidableEq, Repr

def Piece.cons (c : Char) (p : Piece) : Piece := ⟨c :: p.chars, p.rest⟩

/-- Closes a text on several lines where `cs` starts with at least three of the closing character.
Up to two more of them directly before the end belong to the text. -/
def closeLines? (closing : Char) (cs : List Char) : Option Piece :=
  let count := min 5 (cs.takeWhile (· == closing)).length
  if count < 3 then none else some ⟨List.replicate (count - 3) closing, cs.drop count⟩

/-- The value of a hexadecimal digit. -/
def hexDigit? (c : Char) : Option Nat :=
  let n := c.toNat
  if 48 ≤ n && n ≤ 57 then some (n - 48)
  else if 65 ≤ n && n ≤ 70 then some (n - 55)
  else if 97 ≤ n && n ≤ 102 then some (n - 87)
  else none

/-- The character of a code, unless the code is a surrogate or out of range. -/
def charOfCode? (n : Nat) : Option Char :=
  if h : n.isValidChar then some (Char.ofNatAux n h) else none

/-- The character that a backslash with a letter stands for. -/
def escapedChar? (c : Char) : Option Char :=
  if c == 'b' then some (Char.ofNat 8)
  else if c == 't' then some tab
  else if c == 'n' then some lineFeed
  else if c == 'f' then some (Char.ofNat 12)
  else if c == 'r' then some carriageReturn
  else if c == quote then some quote
  else if c == backslash then some backslash
  else none

/-- Where a reader stands within a plain text. -/
inductive Position where
  /-- Between two characters. -/
  | between
  /-- Behind a backslash. -/
  | escaped
  /-- Within a character code of which the given number of digits is left. -/
  | code (digits : Nat) (value : Nat)
  /-- Behind a backslash at the end of a line, where blanks and further line ends are skipped. -/
  | folding
deriving DecidableEq, Repr

/-- Whether only spaces are left on a line. -/
def endsLine (cs : List Char) : Bool := (dropLineEnd? (cs.dropWhile isSpace)).isSome

/-- Reads a plain text up to its closing quotes.  Backslashes escape characters, and on several
lines also the end of a line. -/
def readPlain? (lines : Bool) : Position → List Char → Option Piece
  | _, [] => none
  | .escaped, c :: rest =>
      if c == 'u' then readPlain? lines (.code 4 0) rest
      else if c == 'U' then readPlain? lines (.code 8 0) rest
      else
        match escapedChar? c with
        | some d => (readPlain? lines .between rest).map (Piece.cons d)
        | none => if lines && endsLine (c :: rest) then readPlain? lines .folding rest else none
  | .code digits value, c :: rest =>
      match hexDigit? c with
      | none => none
      | some d =>
          if digits ≤ 1 then
            match charOfCode? (16 * value + d) with
            | some e => (readPlain? lines .between rest).map (Piece.cons e)
            | none => none
          else readPlain? lines (.code (digits - 1) (16 * value + d)) rest
  | position, c :: rest =>
      if position = .folding && (isSpace c || (dropLineEnd? (c :: rest)).isSome) then
        readPlain? lines .folding rest
      else if c == backslash then readPlain? lines .escaped rest
      else if c == quote then
        if lines then
          match closeLines? quote (c :: rest) with
          | some piece => some piece
          | none => (readPlain? lines .between rest).map (Piece.cons c)
        else some ⟨[], rest⟩
      else if isPrintable c then (readPlain? lines .between rest).map (Piece.cons c)
      else if lines && c == lineFeed then (readPlain? lines .between rest).map (Piece.cons c)
      else if lines && (dropLineEnd? (c :: rest)).isSome then readPlain? lines .between rest
      else none

/-- Reads a literal text up to its closing apostrophes.  Nothing is escaped. -/
def readLiteral? (lines : Bool) : List Char → Option Piece
  | [] => none
  | c :: rest =>
      if c == apostrophe then
        if lines then
          match closeLines? apostrophe (c :: rest) with
          | some piece => some piece
          | none => (readLiteral? lines rest).map (Piece.cons c)
        else some ⟨[], rest⟩
      else if isPrintable c then (readLiteral? lines rest).map (Piece.cons c)
      else if lines && c == lineFeed then (readLiteral? lines rest).map (Piece.cons c)
      else if lines && (dropLineEnd? (c :: rest)).isSome then readLiteral? lines rest
      else none

/-- Whether a list starts with three of the same character. -/
def opensLines (opening : Char) (cs : List Char) : Bool :=
  (cs.take 3) == [opening, opening, opening]

/-- The line end directly behind the opening of a text on several lines does not belong to it. -/
def dropFirstLineEnd (cs : List Char) : List Char := (dropLineEnd? cs).getD cs

/-- Reads a quoted text on one line. -/
def readLine? : List Char → Option Piece
  | [] => none
  | c :: rest =>
      if c == quote then readPlain? false .between rest
      else if c == apostrophe then readLiteral? false rest
      else none

/-- Reads a quoted text of any form. -/
def read? (cs : List Char) : Option Piece :=
  if opensLines quote cs then readPlain? true .between (dropFirstLineEnd (cs.drop 3))
  else if opensLines apostrophe cs then readLiteral? true (dropFirstLineEnd (cs.drop 3))
  else readLine? cs

/-! ### Writing -/

/-- The forms of quoted texts. -/
inductive Form where
  | plain
  | literal
  | plainLines
  | literalLines
deriving DecidableEq, Repr

/-- The length of the longest run of a character. -/
def longestRun (c : Char) (cs : List Char) : Nat :=
  (cs.foldl (fun (longest, current) d =>
    if d == c then (max longest (current + 1), current + 1) else (longest, 0)) (0, 0)).1

/-- Whether a text holds a control character that no form can show as it is. -/
def needsCode (cs : List Char) : Bool :=
  cs.any fun c => !isPrintable c && c != lineFeed

/-- The form in which a text is written: on one line without escapes if possible, in a literal form
rather than with escaped quotes or backslashes, and on several lines if the text has several. -/
def formFor (cs : List Char) : Form :=
  let code := needsCode cs
  let lines := cs.contains lineFeed
  let escape := cs.contains backslash
  let quotes := longestRun quote cs
  let apostrophes := longestRun apostrophe cs
  if !code && !escape && quotes == 0 && !lines then .plain
  else if !code && apostrophes == 0 && !lines then .literal
  else if !code && !escape && quotes ≤ 2 then .plainLines
  else if !code && apostrophes ≤ 2 then .literalLines
  else if lines then .plainLines
  else .plain

/-- A code of four hexadecimal digits. -/
def codeChars (n : Nat) : List Char :=
  let digits := (Nat.toDigits 16 n).map Char.toUpper
  List.replicate (4 - digits.length) '0' ++ digits

/-- One character of a plain text.  `quotes` is the number of quotes directly before it that were
written as they are; on several lines two of them may follow each other. -/
def plainChar (lines : Bool) (quotes : Nat) (c : Char) : List Char :=
  if c == quote then
    if lines && quotes < 2 then [quote] else [backslash, quote]
  else if c.toNat == 8 then [backslash, 'b']
  else if c == tab then [backslash, 't']
  else if c == lineFeed then if lines then [lineFeed] else [backslash, 'n']
  else if c.toNat == 12 then [backslash, 'f']
  else if c == carriageReturn then [backslash, 'r']
  else if c == backslash then [backslash, backslash]
  else if isPrintable c then [c]
  else backslash :: 'u' :: codeChars c.toNat

/-- The characters of a plain text. -/
def plainChars (lines : Bool) : Nat → List Char → List Char
  | _, [] => []
  | quotes, c :: rest =>
      let written := plainChar lines quotes c
      written ++ plainChars lines (if written == [quote] then quotes + 1 else 0) rest

/-- A text in quotes, in the form that suits it. -/
def write (text : String) : String :=
  let cs := text.toList
  let opening := if cs.contains lineFeed then [lineFeed] else []
  let quotes := List.replicate 3 quote
  let apostrophes := List.replicate 3 apostrophe
  String.ofList <|
    match formFor cs with
    | .plain => [quote] ++ plainChars false 0 cs ++ [quote]
    | .literal => [apostrophe] ++ cs ++ [apostrophe]
    | .plainLines => quotes ++ opening ++ plainChars true 0 cs ++ quotes
    | .literalLines => apostrophes ++ opening ++ cs ++ apostrophes

end QuantityCalculus.QuotedText
