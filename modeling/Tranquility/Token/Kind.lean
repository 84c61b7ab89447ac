/-!
# Kinds of tokens

The kinds of the language, each with the name that listings print and the phrase that messages use.
A token made by hand may carry a kind the language does not know; such a kind is called by its own
name in both.
-/

namespace Tranquility

/-- What a token is. -/
inductive Kind where
  | keyword
  | identifier
  | integer
  | string
  | character
  | leftBrace
  | rightBrace
  | leftParen
  | rightParen
  | colon
  | comma
  | dot
  | minus
  | additive
  | multiplicative
  | comparison
  | bitwiseComparison
  | bitwiseShift
  | bitwiseNot
  | xor
  | newline
  | whitespace
  | comment
  | unrecognized
  | endOfInput
  /-- A kind the language does not know. -/
  | other (name : String)
  deriving DecidableEq, Repr

namespace Kind

/-- The name of a kind in listings. -/
def name : Kind → String
  | keyword => "KEYWORD"
  | identifier => "IDENTIFIER"
  | integer => "INTEGER"
  | string => "STRING"
  | character => "CHARACTER"
  | leftBrace => "LBRACE"
  | rightBrace => "RBRACE"
  | leftParen => "LPAREN"
  | rightParen => "RPAREN"
  | colon => "COLON"
  | comma => "COMMA"
  | dot => "DOT"
  | minus => "MINUS"
  | additive => "ADDITIVE"
  | multiplicative => "MULTIPLICATIVE"
  | comparison => "COMPARISON"
  | bitwiseComparison => "BITWISE_COMPARISON"
  | bitwiseShift => "BITWISE_SHIFT"
  | bitwiseNot => "BITWISE_NOT"
  | xor => "XOR"
  | newline => "NEWLINE"
  | whitespace => "WHITESPACE"
  | comment => "COMMENT"
  | unrecognized => "UNRECOGNIZED"
  | endOfInput => "EOF"
  | other name => name

/-- The kind that a listing name stands for. -/
def ofName : String → Kind
  | "KEYWORD" => keyword
  | "IDENTIFIER" => identifier
  | "INTEGER" => integer
  | "STRING" => string
  | "CHARACTER" => character
  | "LBRACE" => leftBrace
  | "RBRACE" => rightBrace
  | "LPAREN" => leftParen
  | "RPAREN" => rightParen
  | "COLON" => colon
  | "COMMA" => comma
  | "DOT" => dot
  | "MINUS" => minus
  | "ADDITIVE" => additive
  | "MULTIPLICATIVE" => multiplicative
  | "COMPARISON" => comparison
  | "BITWISE_COMPARISON" => bitwiseComparison
  | "BITWISE_SHIFT" => bitwiseShift
  | "BITWISE_NOT" => bitwiseNot
  | "XOR" => xor
  | "NEWLINE" => newline
  | "WHITESPACE" => whitespace
  | "COMMENT" => comment
  | "UNRECOGNIZED" => unrecognized
  | "EOF" => endOfInput
  | name => other name

/-- The phrase for a kind in messages. -/
def phrase : Kind → String
  | keyword => "keyword"
  | identifier => "identifier"
  | integer => "integer"
  | string => "string"
  | character => "character"
  | leftBrace => "left brace"
  | rightBrace => "right brace"
  | leftParen => "left parentheses"
  | rightParen => "right parentheses"
  | colon => "colon"
  | comma => "comma"
  | dot => "dot"
  | minus => "minus"
  | additive => "additive"
  | multiplicative => "multiplicative"
  | comparison => "comparison"
  | bitwiseComparison => "bitwise comparison"
  | bitwiseShift => "bitwise shift"
  | bitwiseNot => "bitwise not"
  | xor => "xor"
  | newline => "newline"
  | whitespace => "whitespace"
  | comment => "comment"
  | unrecognized => "unrecognized"
  | endOfInput => "end of input"
  | other name => name

/-- Blanks and comments, which separate tokens and mean nothing. -/
def isTrivia (kind : Kind) : Bool :=
  kind = whitespace || kind = comment

/-- Every name stands for a kind of that name. -/
theorem name_ofName (name : String) : (ofName name).name = name := by
  unfold ofName
  split <;> rfl

end Kind

end Tranquility
