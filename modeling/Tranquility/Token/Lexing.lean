import Tranquility.Text.Slice
import Tranquility.Token.Pattern

/-!
# The tokens of a source

`scan` cuts a source into tokens from left to right and drops nothing: the texts of the tokens
joined are the source, or the part of it before the place where no pattern applies. `tokenize` drops
blanks and comments, keeps one of several newlines in a row, and numbers what is left.
-/

namespace Tranquility

/-- A source that no pattern of a table applies to at some offset. -/
structure LexicalError where
  /-- The whole source. -/
  source : String
  /-- The offset, in characters, where no pattern applies. -/
  position : Int
  deriving DecidableEq, Repr

/-- The message shows up to twenty characters from the offset. -/
def LexicalError.message (error : LexicalError) : String :=
  let shown := Text.slice error.source.toList error.position (error.position + 20)
  s!"No token rule matches {Text.quoted (String.ofList shown)} at offset {error.position}"

/-- A place in a source. -/
structure Place where
  /-- The number of characters before the place. -/
  offset : Nat
  /-- The number of newlines before the place. -/
  line : Nat
  /-- The number of characters since the last newline. -/
  column : Nat
  deriving DecidableEq, Repr

namespace Place

/-- The place where a source begins. -/
def start : Place := ⟨0, 0, 0⟩

/-- The place after a token: a run of newlines starts a line, any other text stays on its line. -/
def after (place : Place) (kind : Kind) (length : Nat) : Place :=
  if kind = .newline then ⟨place.offset + length, place.line + length, 0⟩
  else ⟨place.offset + length, place.line, place.column + length⟩

end Place

/-- The tokens of a source up to its end or to the offset where no pattern applies. -/
structure Scan where
  /-- The tokens, blanks and comments included. -/
  tokens : List Token
  /-- The offset where no pattern applies, if there is one. -/
  stuck : Option Nat
  deriving DecidableEq, Repr

namespace Scan

/-- Put a token in front of the others. -/
def cons (token : Token) (scan : Scan) : Scan :=
  { scan with tokens := token :: scan.tokens }

/-- The kind and length of the token at the front of a text, by the first pattern that applies. -/
def front? (patterns : List Pattern) (text : List Char) : Option (Kind × Nat) :=
  patterns.findSome? fun pattern =>
    match pattern.extent text with
    | 0 => none
    | length + 1 => some (pattern.kind, length + 1)

/-- The tokens from a place on, once `pending` characters have been passed over: they belong to the
token in front, whose end is the place. -/
def onward (patterns : List Pattern) (place : Place) : (pending : Nat) → List Char → Scan
  | _, [] => ⟨[], none⟩
  | pending + 1, _ :: rest => onward patterns place pending rest
  | 0, c :: rest =>
    match front? patterns (c :: rest) with
    | none => ⟨[], some place.offset⟩
    | some (kind, length) =>
      cons ⟨kind, String.ofList ((c :: rest).take length), place.line, place.column, -1⟩
        (onward patterns (place.after kind length) (length - 1) rest)

end Scan

/-- Cut a source into tokens by a table of patterns, blanks and comments included. -/
def scanWith (patterns : List Pattern) (source : String) : Scan :=
  Scan.onward patterns .start 0 source.toList

/-- Cut a source into the tokens of the language, blanks and comments included. -/
def scan (source : String) : Scan :=
  scanWith Pattern.table source

namespace Token

/-- Drop every newline that follows a newline; `after` tells that one has just gone before. -/
def mergeNewlines (after : Bool) : List Token → List Token
  | [] => []
  | token :: rest =>
    if token.kind = .newline ∧ after then mergeNewlines true rest
    else token :: mergeNewlines (token.kind = .newline) rest

/-- Number the tokens of a list from `first` on. -/
def number (first : Nat) : List Token → List Token
  | [] => []
  | token :: rest => { token with index := first } :: number (first + 1) rest

/-- The tokens that matter to the grammar, numbered from zero. -/
def significant (tokens : List Token) : List Token :=
  number 0 (mergeNewlines false (tokens.filter fun token => !token.kind.isTrivia))

end Token

/-- The numbered tokens of a source without blanks and comments, or the offset where no pattern of
the table applies. -/
def tokenizeWith (patterns : List Pattern) (source : String) : Except LexicalError (List Token) :=
  let result := scanWith patterns source
  match result.stuck with
  | some position => .error ⟨source, position⟩
  | none => .ok (Token.significant result.tokens)

/-- The numbered tokens of a source in the language, without blanks and comments. -/
def tokenize (source : String) : Except LexicalError (List Token) :=
  tokenizeWith Pattern.table source

end Tranquility
