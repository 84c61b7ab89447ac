import Tranquility.Text.Line
import Tranquility.Text.Units

/-!
# The word at a place of a document

An editor asks about the word at a place, given by a line and a column in units of UTF-16. A word is
made of ASCII letters, digits and underscores, and reaches to both sides of the place.
-/

namespace Tranquility.Editor

/-- A character of a word. -/
def inWord (c : Char) : Bool :=
  c.isAlphanum || c == '_'

/-- The longest word that a text starts with. -/
def leadingWord (text : List Char) : List Char :=
  text.takeWhile inWord

/-- The longest word that a text ends with. -/
def trailingWord (text : List Char) : List Char :=
  (leadingWord text.reverse).reverse

/-- A line with a plain newline where it ends with a carriage return and a newline. -/
def plainLineEnd (line : List Char) : List Char :=
  if ['\r', '\n'].isSuffixOf line then line.dropLast.dropLast ++ ['\n'] else line

/-- The number of characters before a column of a line; a column beyond the line means its last
unit. -/
def cursorIndex (line : List Char) (column : Nat) : Nat :=
  let shown := plainLineEnd line
  let width := Text.units shown
  Text.charsBefore (if column > width then width - 1 else column) shown

/-- The word at a column of a line. -/
def wordInLine (line : List Char) (column : Nat) : List Char :=
  let (before, after) := line.splitAt (cursorIndex line column)
  trailingWord (Text.dropFinalNewline before) ++ leadingWord after

/-- The word at a place of a text, if there is one. -/
def wordAt? (text : String) (line column : Nat) : Option String :=
  match (Text.editorLines text.toList)[line]? with
  | none => none
  | some shown =>
    match wordInLine shown column with
    | [] => none
    | word => some (String.ofList word)

end Tranquility.Editor
