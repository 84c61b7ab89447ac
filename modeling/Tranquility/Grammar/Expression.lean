import Tranquility.Grammar.Rule
import Tranquility.Tree.Expr

/-!
# The grammar of expressions

Binary operators stand on six levels and associate to the left on each; operands of the tightest
level are calls, literals, variables, groups and operands with an operator in front. The types of
both operands of a binary operator must go together, and an address among them is worth a warning,
since it is the value stored there that is usually meant.
-/

namespace Tranquility.Grammar

/-- The levels of binary operators. -/
inductive Level where
  | xor
  | bitwiseComparison
  | comparison
  | shift
  | additive
  | multiplicative
  deriving DecidableEq, Repr

namespace Level

/-- The levels from the loosest to the tightest. -/
def all : List Level :=
  [xor, bitwiseComparison, comparison, shift, additive, multiplicative]

/-- How tightly the operators of a level bind. -/
def rank : Level → Nat
  | xor => 0
  | bitwiseComparison => 1
  | comparison => 2
  | shift => 3
  | additive => 4
  | multiplicative => 5

/-- The kinds of the operators on a level. -/
def operators : Level → List Kind
  | xor => [.xor]
  | bitwiseComparison => [.bitwiseComparison]
  | comparison => [.comparison]
  | shift => [.bitwiseShift]
  | additive => [.additive, .minus]
  | multiplicative => [.multiplicative]

/-- The type that the operators of a level yield. -/
def result : Level → Ty
  | xor | shift | additive | multiplicative => .integer
  | bitwiseComparison | comparison => .boolean

/-- A level and all tighter ones, from the loosest to the tightest. -/
def andTighter (level : Level) : List Level :=
  all.drop level.rank

end Level

/-- The warning about an address as the operand of a binary operator. -/
def unsafePointerArithmetic : String :=
  "Unsafe pointer arithmetic. Did you mean to get the value stored at a memory location with \".\"?"

/-- The type of a literal by the kind of its token. -/
def literalType? : Kind → Option Ty
  | .integer => some .integer
  | .string => some .string
  | .character => some .integer
  | _ => none

/-- A fault in the escapes of a string. -/
inductive EscapeFault where
  /-- A character that no escape of the language ends in. -/
  | invalid (escaped : Char)
  /-- The string ends after a backslash. -/
  | truncated
  deriving DecidableEq, Repr

/-- The characters that may follow a backslash in a string. -/
def escapable : List Char :=
  ['b', 'n', 'r', 't', '\\']

/-- The first fault in the escapes of a string, given what is between its quotes. -/
def escapeFault? : List Char → Option EscapeFault
  | [] => none
  | ['\\'] => some .truncated
  | '\\' :: c :: rest => if c ∈ escapable then escapeFault? rest else some (.invalid c)
  | _ :: rest => escapeFault? rest

/-- What a token holds between its first and its last character. -/
def inner (token : Token) : List Char :=
  (token.text.toList.drop 1).dropLast

/-- Reject a string with a fault in its escapes. -/
def checkEscapes (token : Token) : Rule Unit :=
  match escapeFault? (inner token) with
  | none => pure ()
  | some (.invalid escaped) => reject token (.invalidEscape escaped)
  | some .truncated => throw (.truncatedEscape token)

/-- Reject a literal whose text is at fault; only strings can be. -/
def checkText (token : Token) : Rule Unit :=
  if token.kind = .string then checkEscapes token else pure ()

/-- An integer, a string without faults, or a character. -/
def literal : Rule Expr := do
  let token ← observe State.current
  match literalType? token.kind with
  | none => reject token .expectedLiteral
  | some type =>
    let token ← take
    checkText token
    return .literal token type

/-- Warn at an operator if one of its operands is an address. -/
def warnOfAddresses (operator : Token) (left right : Ty) : Rule Unit :=
  if left = .address ∨ right = .address then warn operator unsafePointerArithmetic else pure ()

/-- A binary expression, if the types of the operands go together. -/
def combine (level : Level) (operator : Token) (left right : Expr) : Rule Expr := do
  require (Ty.operandsMatch left.type right.type) operator (.operandTypes left.type right.type)
  warnOfAddresses operator left.type right.type
  return .binary operator left right level.result

/-- The current token is an operator of a level. -/
def State.seesOperator (level : Level) (state : State) : Bool :=
  level.operators.contains state.current.kind

/-- Operands with operators of one level between them, combined from the left. -/
def chain (level : Level) (operand : Rule Expr) : Rule Expr := do
  let first ← operand
  whilst (·.seesOperator level) (fun left => do
    let operator ← take
    let right ← operand
    combine level operator left right) first

/-- Operands with operators of the given levels between them, the loosest first. -/
def climb (operand : Rule Expr) : List Level → Rule Expr
  | [] => operand
  | level :: tighter => chain level (climb operand tighter)

/-- A call of a function that is visible, with as many arguments as it has parameters. -/
def call (argument : Rule Expr) : Rule Expr := do
  let name ← expect .identifier
  match ← observe (·.findFunction? name.text) with
  | none => reject name .undefinedFunction
  | some function =>
    skip .leftParen
    let arguments ← unlessAt .rightParen (commaSeparated argument)
    let count := arguments.length
    require (function.arity == count) name (.argumentCount function.arity count)
    skip .rightParen
    return .call name arguments

/-- A variable that is visible. -/
def reference : Rule Expr := do
  let token ← expect .identifier
  require (← observe (·.hasVariable token.text)) token .undefinedVariable
  return .reference token

/-- Parentheses around one operand or around nothing. -/
def parenthesised (operand : Rule Expr) : Rule Expr := do
  let token ← expect .leftParen
  if ← observe (·.sees .rightParen) then
    skip .rightParen
    return .unit token
  else
    let content ← operand
    skip .rightParen
    return .group token content content.type

/-- An operand with an operator in front of it. -/
def prefixed (kind : Kind) (node : Token → Expr → Expr) (operand : Rule Expr) : Rule Expr := do
  let token ← expect kind
  return node token (← operand)

/-- A call, literal, variable, group, or operand with an operator in front, where `operand` reads
the operands inside it. -/
def operandOver (operand : Rule Expr) : Rule Expr := do
  let token ← observe State.current
  match token.kind with
  | .identifier =>
    if ← observe (·.seesNext .leftParen) then call (climb operand Level.all) else reference
  | .integer | .string | .character => literal
  | .leftParen => parenthesised operand
  | .dot => prefixed .dot .dereference operand
  | .minus => prefixed .minus .negation operand
  | .bitwiseNot => prefixed .bitwiseNot .complement operand
  | _ => reject token .expectedExpression

/-- An operand with others nested in it less than `depth` times. -/
def operandWithin : (depth : Nat) → Rule Expr
  | 0 => do reject (← observe State.current) .expectedExpression
  | depth + 1 => operandOver (operandWithin depth)

/-- An operand. Every operand inside it starts at a later token, so it is nested no deeper than
there are tokens left. -/
def operand : Rule Expr := do
  let depth ← observe (·.rest.length + 1)
  operandWithin depth

/-- An expression whose operators outside parentheses are of a level or tighter. -/
def expressionFrom (level : Level) : Rule Expr :=
  climb operand level.andTighter

/-- An expression. -/
def expression : Rule Expr :=
  expressionFrom .xor

/-- One or more expressions with commas between them. -/
def expressions : Rule (List Expr) :=
  commaSeparated expression

end Tranquility.Grammar
