import Tranquility.Token.Lexing
import Tranquility.Diagnostic.Basic
import Tranquility.Scope.Kind
import Tranquility.Tree.Ty

/-!
# Errors

A violation is a breach of the grammar or of a rule of the language. It is found at a token, and the
two together give the message. The other errors are no fault of a program: a table of patterns that
does not cover a source, a move between scopes that does not exist, and a string token that ends
inside an escape.
-/

namespace Tranquility

/-- A breach of the grammar or of a rule of the language. -/
inductive Violation where
  /-- A token of one kind was expected. -/
  | expectedKind (kind : Kind)
  /-- A token of one text was expected. -/
  | expectedText (text : String)
  /-- The input ended where any token was expected. -/
  | endOfInput
  /-- The program ended before its first function. -/
  | missingFunction
  /-- The program starts with neither a variable list nor a function. -/
  | expectedDeclarations
  /-- Something other than a function follows the functions. -/
  | expectedFunction
  /-- A keyword that starts no statement stands where a statement was expected. -/
  | misplacedKeyword
  /-- An expression is followed by neither a colon nor a newline. -/
  | expectedStatement
  /-- No expression starts here. -/
  | expectedExpression
  /-- A literal was expected. -/
  | expectedLiteral
  /-- The function has a name that is visible already. -/
  | duplicateFunction
  /-- The variable has a name that is visible already. -/
  | duplicateVariable
  /-- No visible variable has the name. -/
  | undefinedVariable
  /-- No visible function has the name. -/
  | undefinedFunction
  /-- A call has not as many arguments as the function has parameters. -/
  | argumentCount (expected : Int) (received : Nat)
  /-- The operands of an operator have types that do not go together. -/
  | operandTypes (left right : Ty)
  /-- A string has an escape that the language does not know. -/
  | invalidEscape (escaped : Char)
  /-- The body of a loop has no `until` statement. -/
  | endlessLoop
  /-- A breach that is described by its words alone. -/
  | described (message : String)
  deriving DecidableEq, Repr

namespace Violation

/-- What an operator of a given text cannot do with operands of the given types. -/
def operandMessage (operator left right : String) : String :=
  match operator with
  | "^" => s!"Cannot XOR {left} with {right}"
  | "&" | "|" => s!"Cannot bitwise compare {left} to {right}"
  | "==" | "!=" | "<" | ">" | "<=" | ">=" => s!"Cannot compare {left} to {right}"
  | "<<" | ">>" => s!"Cannot shift {left} by {right}"
  | "+" => s!"Cannot add {left} to {right}"
  | "-" => s!"Cannot subtract {right} from {left}"
  | "*" => s!"Cannot multiply {left} by {right}"
  | "/" => s!"Cannot divide {left} by {right}"
  | "%" => s!"Cannot take the remainder of {left} by {right}"
  | _ => s!"Cannot combine {left} with {right}"

/-- The message for a token that should have been something else. -/
def unexpected (shown expected : String) : String :=
  s!"Unexpected token \"{shown}\" - Expected {expected}"

/-- The message for a violation found at a token. -/
def message (token : Token) : Violation → String
  | expectedKind kind => s!"Expected {kind.phrase} but found {token.kind.phrase}"
  | expectedText text => s!"Expected \"{text}\" but found \"{token.describe}\""
  | endOfInput => "Unexpected end of input"
  | missingFunction => "Expected at least one function declaration"
  | expectedDeclarations => unexpected token.describe "a function list or variable list"
  | expectedFunction => unexpected token.describe "a function declaration"
  | misplacedKeyword => unexpected token.text "a statement."
  | expectedStatement => unexpected token.describe "a statement."
  | expectedExpression => unexpected token.describe "expression."
  | expectedLiteral => s!"Expected a literal but found {token.kind.phrase}"
  | duplicateFunction =>
    s!"There already exists a function with the name \"{token.text}\" in the current scope. " ++
      "Choose a different name."
  | duplicateVariable => s!"Duplicate identifier \"{token.text}\""
  | undefinedVariable => s!"Variable \"{token.text}\" is not defined."
  | undefinedFunction => s!"Function \"{token.text}\" is undefined"
  | argumentCount expected received =>
    let noun := if expected = 1 then "argument" else "arguments"
    s!"Incorrect number of arguments: Expected {expected} {noun} but received {received}"
  | operandTypes left right => operandMessage token.text left.withArticle right.withArticle
  | invalidEscape escaped =>
    s!"Invalid escape sequence \"\\{escaped}\". Supported escape sequences " ++
      "are \\b, \\n, \\r, \\t, and \\\\"
  | endlessLoop => "Infinite loop: Loop statement is missing `until` statement."
  | described message => message

end Violation

/-- A violation with the token it was found at. -/
structure TokenError where
  /-- The token at fault. -/
  token : Token
  /-- What is wrong with it. -/
  violation : Violation
  /-- The severity of the diagnostic about it. -/
  severity : Severity := .error
  deriving DecidableEq, Repr

namespace TokenError

/-- What is wrong, in words. -/
def message (error : TokenError) : String :=
  error.violation.message error.token

/-- What is wrong and where, counted from one. -/
def text (error : TokenError) : String :=
  error.token.locate error.message

end TokenError

/-- A move between scopes that does not exist. -/
inductive ScopeError where
  /-- The global scope has no scope around it. -/
  | noOuterScope
  /-- No scope can be opened of the kind asked for, or without a kind. -/
  | cannotOpen (kind : Option ScopeKind)
  deriving DecidableEq, Repr

/-- What is wrong, in words. -/
def ScopeError.message : ScopeError → String
  | noOuterScope => "Cannot exit the global scope"
  | cannotOpen (some kind) => s!"Cannot open a scope of kind {Text.quoted kind.name}"
  | cannotOpen none => "Cannot open a scope of kind None"

/-- Whatever can end the reading of a source. -/
inductive Error where
  /-- No pattern applies to the source at some offset. -/
  | lexical (error : LexicalError)
  /-- The tokens break the grammar or a rule of the language. -/
  | violation (error : TokenError)
  /-- A brace asks for a move between scopes that does not exist. -/
  | scope (error : ScopeError)
  /-- The text of a string token ends after a backslash. -/
  | truncatedEscape (token : Token)
  deriving DecidableEq, Repr

end Tranquility
