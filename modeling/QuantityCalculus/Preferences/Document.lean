/-
Module: QuantityCalculus.Preferences.Document
Layer: Preferences
Purpose: Preferences as a TOML document with one line for each choice.
Imports: QuantityCalculus.Preferences.Basic, QuantityCalculus.Preferences.QuotedText
Trusted boundary: none
Main exports: PreferencesError, Preferences.ofDocument, Preferences.toDocument
Open obligations: none
-/
import QuantityCalculus.Preferences.Basic
import QuantityCalculus.Preferences.QuotedText

namespace QuantityCalculus

/-- Why preferences could not be read. -/
inductive PreferencesError where
  | unreadable
deriving DecidableEq, Repr

namespace Document

open QuotedText

/-- The values that preferences consist of. -/
inductive Value where
  | text (text : String)
  | flag (flag : Bool)
deriving DecidableEq, Repr

/-- A line that gives a value to a key. -/
structure Entry where
  key : String
  value : Value
deriving DecidableEq, Repr

/-- The characters of keys without quotes. -/
def isKeyChar (c : Char) : Bool := c.isAlphanum || c == '_' || c == '-'

/-- Reads a key: bare, or quoted on one line. -/
def readKey? (cs : List Char) : Option Piece :=
  let bare := cs.takeWhile isKeyChar
  if bare.isEmpty then readLine? cs else some ⟨bare, cs.dropWhile isKeyChar⟩

/-- Reads a value: `true`, `false` or a quoted text. -/
def readValue? (cs : List Char) : Option (Value × List Char) :=
  if "true".toList.isPrefixOf cs then some (.flag true, cs.drop 4)
  else if "false".toList.isPrefixOf cs then some (.flag false, cs.drop 5)
  else (read? cs).map fun piece => (.text (String.ofList piece.chars), piece.rest)

/-- Drops a comment, which extends to the end of the line. -/
def dropComment : List Char → List Char
  | [] => []
  | c :: rest => if c == '#' then rest.dropWhile isPrintable else c :: rest

/-- Drops the rest of a line, which may hold spaces and a comment; the last line of a document need
not be ended. -/
def finishLine? (cs : List Char) : Option (List Char) :=
  match dropComment (cs.dropWhile isSpace) with
  | [] => some []
  | rest => dropLineEnd? rest

/-- Reads a line that gives a value to a key. -/
def readEntry? (cs : List Char) : Option (Entry × List Char) :=
  match readKey? cs with
  | none => none
  | some name =>
      match name.rest.dropWhile isSpace with
      | [] => none
      | c :: rest =>
          if c == '=' then
            match readValue? (rest.dropWhile isSpace) with
            | none => none
            | some (value, rest) =>
                (finishLine? rest).map fun rest => (⟨String.ofList name.chars, value⟩, rest)
          else none

/-- Reads the lines of a document: entries, comments and empty lines.  The first argument bounds
their number. -/
def readLines? : Nat → List Char → Option (List Entry)
  | 0, _ => none
  | fuel + 1, cs =>
      let start := cs.dropWhile isSpace
      if start.isEmpty then some []
      else
        match finishLine? start with
        | some rest => readLines? fuel rest
        | none =>
            match readEntry? start with
            | some (entry, rest) => (readLines? fuel rest).map (entry :: ·)
            | none => none

/-- The mark that may stand in front of a text to tell its encoding. -/
def byteOrderMark : Char := Char.ofNat 0xFEFF

/-- Reads a document.  Every line has at least one character, so their number is bounded. -/
def read? (document : String) : Option (List Entry) :=
  let cs := match document.toList with
    | c :: rest => if c == byteOrderMark then rest else c :: rest
    | [] => []
  readLines? (cs.length + 1) cs

end Document

namespace Preferences

open Document

def angleUnitKey : String := "preferred-angle-unit"
def unitSchemeKey : String := "preferred-unit-scheme"
def shortUnitNamesKey : String := "display-short-unit-names"

/-- Makes the choice that an entry of a document states.  There is none for a key that is not known
or a value of the wrong kind. -/
def choose? (p : Preferences) (e : Entry) : Option Preferences :=
  match e.value with
  | .text text =>
      if e.key == angleUnitKey then some { p with angleUnit := some text }
      else if e.key == unitSchemeKey then some { p with unitScheme := some text }
      else none
  | .flag flag =>
      if e.key == shortUnitNamesKey then some { p with shortUnitNames := flag } else none

/-- Whether no key stands twice. -/
def keysDistinct : List Entry → Bool
  | [] => true
  | e :: rest => !(rest.any fun f => f.key == e.key) && keysDistinct rest

/-- Reads preferences from a document.  What it does not mention is as in the standard
preferences. -/
def ofDocument (document : String) : Except PreferencesError Preferences :=
  match Document.read? document with
  | none => .error .unreadable
  | some entries =>
      if keysDistinct entries then
        match entries.foldlM choose? standard with
        | some p => .ok p
        | none => .error .unreadable
      else .error .unreadable

/-- A line that gives a value to a key. -/
def line (key value : String) : String := key ++ " = " ++ value ++ "\n"

/-- Writes preferences as a document.  Choices that were not made are left out. -/
def toDocument (p : Preferences) : String :=
  let text (key : String) (choice : Option String) : String :=
    match choice with
    | some s => line key (QuotedText.write s)
    | none => ""
  text angleUnitKey p.angleUnit ++ text unitSchemeKey p.unitScheme
    ++ line shortUnitNamesKey (if p.shortUnitNames then "true" else "false")

end Preferences

end QuantityCalculus
