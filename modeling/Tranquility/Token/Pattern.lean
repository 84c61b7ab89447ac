import Tranquility.Token.Basic
import Tranquility.Text.WordChar

/-!
# Patterns of tokens

A pattern says how many characters a kind of token takes from the front of a text, and takes none
where it does not apply. Each takes the longest text of its kind. The table of patterns is ordered:
the first one that applies decides, so keywords come before identifiers and `<<` before `<`, and the
last pattern accepts whatever no other one does.
-/

namespace Tranquility

/-- How one kind of token is recognised at the front of a text. -/
structure Pattern where
  /-- The kind of the token. -/
  kind : Kind
  /-- How many characters the token takes; none where the pattern does not apply. -/
  extent : List Char → Nat

namespace Pattern

/-- The length of the longest run of characters of a class. -/
def run (among : Char → Bool) (text : List Char) : Nat :=
  (text.takeWhile among).length

/-- The length of the first of the words that the text starts with. -/
def firstWord (words : List String) (text : List Char) : Nat :=
  match words.find? fun word => word.toList.isPrefixOf text with
  | some word => word.length
  | none => 0

/-- The words with a meaning of their own. -/
def keywords : List String :=
  ["else", "fun", "if", "loop", "return", "until", "var"]

/-- No word character stands at the front of the text. -/
def wordEnds : List Char → Bool
  | [] => true
  | c :: _ => !Text.isWordChar c

/-- A keyword that the text starts with and that no word character follows. -/
def keywordExtent (text : List Char) : Nat :=
  let length := firstWord keywords text
  if wordEnds (text.drop length) then length else 0

/-- A number sign and the rest of its line. -/
def commentExtent : List Char → Nat
  | '#' :: rest => 1 + run (· != '\n') rest
  | _ => 0

/-- How many characters a literal takes up to its closing quote, that quote included. A backslash
and the character after it stand for themselves, and a literal stays on one line. -/
def untilQuote (quote : Char) : List Char → Option Nat
  | [] => none
  | '\\' :: c :: rest => if c = '\n' then none else (untilQuote quote rest).map (· + 2)
  | c :: rest =>
    if c = quote then some 1
    else if c = '\\' ∨ c = '\n' then none
    else (untilQuote quote rest).map (· + 1)

/-- A string: characters and escaped characters between double quotes. -/
def stringExtent : List Char → Nat
  | '"' :: rest => ((untilQuote '"' rest).map (· + 1)).getD 0
  | _ => 0

/-- A character: one character or one escaped character between apostrophes. -/
def characterExtent : List Char → Nat
  | '\'' :: '\\' :: c :: '\'' :: _ => if c = '\n' then 0 else 4
  | '\'' :: c :: '\'' :: _ => if c = '\'' ∨ c = '\\' ∨ c = '\n' then 0 else 3
  | _ => 0

/-- An ASCII letter or an underscore. -/
def startsName (c : Char) : Bool :=
  c.isAlpha || c == '_'

/-- An ASCII letter or digit, or an underscore. -/
def continuesName (c : Char) : Bool :=
  c.isAlphanum || c == '_'

/-- A name: what starts one, then whatever continues it. -/
def identifierExtent : List Char → Nat
  | c :: rest => if startsName c then 1 + run continuesName rest else 0
  | [] => 0

/-- A space or a tab. -/
def isBlank (c : Char) : Bool :=
  c == ' ' || c == '\t'

/-- The patterns of the language, in order of priority. -/
def table : List Pattern := [
  ⟨.comment, commentExtent⟩,
  ⟨.newline, run (· == '\n')⟩,
  ⟨.whitespace, run isBlank⟩,
  ⟨.keyword, keywordExtent⟩,
  ⟨.string, stringExtent⟩,
  ⟨.character, characterExtent⟩,
  ⟨.integer, run Char.isDigit⟩,
  ⟨.leftBrace, firstWord ["\x7b"]⟩,
  ⟨.rightBrace, firstWord ["\x7d"]⟩,
  ⟨.leftParen, firstWord ["("]⟩,
  ⟨.rightParen, firstWord [")"]⟩,
  ⟨.colon, firstWord [":"]⟩,
  ⟨.comma, firstWord [","]⟩,
  ⟨.dot, firstWord ["."]⟩,
  ⟨.bitwiseShift, firstWord ["<<", ">>"]⟩,
  ⟨.comparison, firstWord ["==", "!=", "<=", ">=", "<", ">"]⟩,
  ⟨.minus, firstWord ["-"]⟩,
  ⟨.additive, firstWord ["+"]⟩,
  ⟨.multiplicative, firstWord ["*", "/", "%"]⟩,
  ⟨.bitwiseComparison, firstWord ["&", "|"]⟩,
  ⟨.xor, firstWord ["^"]⟩,
  ⟨.bitwiseNot, firstWord ["~"]⟩,
  ⟨.identifier, identifierExtent⟩,
  ⟨.unrecognized, run fun c => c != '\n' && !isBlank c⟩]

/-- The patterns of a table whose kinds are not among those given, in the same order. -/
def without (kinds : List Kind) (patterns : List Pattern) : List Pattern :=
  patterns.filter fun pattern => !kinds.contains pattern.kind

end Pattern

end Tranquility
