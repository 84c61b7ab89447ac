import Tranquility.Token.Kind
import Tranquility.Text.Quoted

/-!
# Tokens

A token is a piece of source text with its kind, its place and its number among the tokens of the
source. Lines and columns count from zero and columns count characters. Numbers identify tokens:
two tokens with the same number are one token to a reporter of diagnostics.
-/

namespace Tranquility

/-- The characters from one place to another; both lines and columns count from zero. -/
structure Range where
  /-- The line of the first character. -/
  startLine : Int
  /-- The column of the first character. -/
  startColumn : Int
  /-- The line of the end. -/
  endLine : Int
  /-- The column after the last character. -/
  endColumn : Int
  deriving DecidableEq, Repr

/-- A piece of source text with its kind and place. -/
structure Token where
  /-- What the token is. -/
  kind : Kind
  /-- The characters of the token. -/
  text : String
  /-- The line of the first character. -/
  line : Int
  /-- The column of the first character. -/
  column : Int
  /-- The number of the token in its list, or `-1` before it has one. -/
  index : Int := -1
  deriving DecidableEq, Repr

namespace Token

/-- The token is a keyword of the given text. -/
def isKeyword (token : Token) (text : String) : Bool :=
  token.kind = .keyword && token.text = text

/-- The column after the last character. -/
def endColumn (token : Token) : Int :=
  token.column + token.text.length

/-- The range of a token: it starts at the token and stays on its line for the token's length. -/
def range (token : Token) : Range :=
  ⟨token.line, token.column, token.line, token.endColumn⟩

/-- A character of a token as messages show it: line ends are spelled out. -/
def describeChar (c : Char) : List Char :=
  if c = '\n' then ['\\', 'n'] else if c = '\r' then ['\\', 'r'] else [c]

/-- A token as messages show it: its text on one line, or the end of the input. -/
def describe (token : Token) : String :=
  if token.kind = .endOfInput then "end of input"
  else String.ofList (token.text.toList.flatMap describeChar)

/-- A token as debug listings show it. -/
def outline (token : Token) : String :=
  s!"Token({token.kind.name}, {Text.quoted token.text}, line={token.line}, column={token.column})"

/-- A message with the place of a token, counted from one. -/
def locate (token : Token) (message : String) : String :=
  s!"{message} (line {token.line + 1}, column {token.column + 1})"

/-- The token that stands for the end of a list of tokens: it is empty, follows the last token, and
stays at that token's place if it is a newline. -/
def endOf (tokens : List Token) : Token :=
  match tokens.getLast? with
  | none => ⟨.endOfInput, "", 0, 0, 0⟩
  | some last =>
    let column := if last.kind = .newline then last.column else last.endColumn
    ⟨.endOfInput, "", last.line, column, tokens.length⟩

/-- The token at the end of a list is of the kind that says so. -/
@[simp] theorem kind_endOf (tokens : List Token) : (endOf tokens).kind = .endOfInput := by
  unfold endOf
  split <;> rfl

/-- The token at the end of a list has no text. -/
@[simp] theorem text_endOf (tokens : List Token) : (endOf tokens).text = "" := by
  unfold endOf
  split <;> rfl

/-- The token at the end of a list is numbered after all of them. -/
@[simp] theorem index_endOf (tokens : List Token) : (endOf tokens).index = tokens.length := by
  unfold endOf
  split
  · simp_all
  · rfl

end Token

end Tranquility
