import Tranquility.Text.Printable

/-!
# Quoted text

Listings show a text between quotes on one line. The quote is the apostrophe, unless the text holds
an apostrophe and no double quote. The backslash and the quote are escaped by a backslash, newline,
carriage return and tab have letters, and every other unprintable character is written by its code
point in two, four or eight hexadecimal digits.
-/

namespace Tranquility.Text

/-- The quote that encloses a text: an apostrophe, or a double quote where that avoids an escape. -/
def quoteFor (text : List Char) : Char :=
  if text.contains '\'' && !text.contains '"' then '"' else '\''

/-- A number in lower-case hexadecimal digits, filled with zeros on the left to a width. -/
def hexadecimal (width n : Nat) : List Char :=
  let digits := Nat.toDigits 16 n
  List.replicate (width - digits.length) '0' ++ digits

/-- The code point of a character after a backslash, in the shortest of the three widths. -/
def codePointEscape (c : Char) : List Char :=
  if c.toNat < 0x100 then '\\' :: 'x' :: hexadecimal 2 c.toNat
  else if c.toNat < 0x10000 then '\\' :: 'u' :: hexadecimal 4 c.toNat
  else '\\' :: 'U' :: hexadecimal 8 c.toNat

/-- How one character is written between the given quotes. -/
def escapeChar (quote c : Char) : List Char :=
  if c = '\\' ∨ c = quote then ['\\', c]
  else if c = '\n' then ['\\', 'n']
  else if c = '\r' then ['\\', 'r']
  else if c = '\t' then ['\\', 't']
  else if isPrintable c then [c]
  else codePointEscape c

/-- A text as listings show it: between quotes, on one line, with unprintable characters spelled
out. -/
def quoted (text : String) : String :=
  let quote := quoteFor text.toList
  String.ofList (quote :: text.toList.flatMap (escapeChar quote) ++ [quote])

end Tranquility.Text
