import Tranquility.Grammar.Expression
import Tranquility.Tree.Stmt

/-!
# The grammar of statements

Every statement ends with the newline it needs. The body of a loop must have an `until` statement
of its own: one in a conditional or in a loop inside it does not count, since it belongs to the
scope of that block.
-/

namespace Tranquility.Grammar

/-- One or more statements up to a right brace. -/
def bodyOver (statement : Rule Stmt) : Rule (List Stmt) := do
  let first ← statement
  collect (fun state => !state.sees .rightBrace) statement [first]

/-- A braced body of one or more statements, in a scope of its own. -/
def braced (kind : ScopeKind) (statement : Rule Stmt) : Rule (List Stmt) := do
  openScope kind
  skip .newline
  let body ← bodyOver statement
  skip .rightBrace
  skip .newline
  return body

/-- A conditional with fewer than `depth` others chained to it. -/
def conditionalWithin (statement : Rule Stmt) : (depth : Nat) → Rule Conditional
  | 0 => do reject (← observe State.current) (.expectedKind .keyword)
  | depth + 1 => do
    let token ← expectKeyword "if"
    let condition ← expression
    let body ← braced .ifBranch statement
    if ← observe (·.seesKeyword "else") then
      skipKeyword "else"
      if ← observe (·.seesKeyword "if") then
        return .chained token condition body (← conditionalWithin statement depth)
      else
        return .otherwise token condition body (← braced .elseBranch statement)
    else
      return .only token condition body

/-- A conditional. Each one chained to it starts at a later token, so there are fewer of them than
tokens left. -/
def conditionalOver (statement : Rule Stmt) : Rule Conditional := do
  let depth ← observe (·.rest.length + 1)
  conditionalWithin statement depth

/-- Mark the current scope as one with an `until` statement, if it is the body of a loop. -/
def markLoop : Rule Unit :=
  modify fun state => { state with scopes := state.scopes.markLoop }

/-- An `until` statement, which counts for the loop in whose body it stands. -/
def untilStatement : Rule Stmt := do
  let token ← expectKeyword "until"
  markLoop
  let condition ← expression
  skip .newline
  return .until token condition

/-- A loop with an `until` statement in its body. -/
def loopOver (statement : Rule Stmt) : Rule Stmt := do
  let token ← expectKeyword "loop"
  openScope .loop
  let scope ← observe (·.scopes.current)
  skip .newline
  let body ← unlessAt .rightBrace (bodyOver statement)
  require (← observe (·.scopes.hasUntil scope)) token .endlessLoop
  skip .rightBrace
  skip .newline
  return .loop token body

/-- The end of a function, with a value or without. -/
def resultStatement : Rule Stmt := do
  let token ← expectKeyword "return"
  if ← observe (·.sees .newline) then
    skip .newline
    return .result token none
  else
    let value ← expression
    skip .newline
    return .result token (some value)

/-- An assignment, or an expression on a line of its own. -/
def simpleStatement : Rule Stmt := do
  let value ← expression
  if ← observe (·.sees .colon) then
    let colon ← expect .colon
    let stored ← expression
    skip .newline
    return .assignment colon value stored
  else if ← observe (·.sees .newline) then
    skip .newline
    return .expression value
  else
    reject (← observe State.current) .expectedStatement

/-- A statement, where `statement` reads the statements inside it. -/
def statementOver (statement : Rule Stmt) : Rule Stmt := do
  let token ← observe State.current
  if token.kind = .keyword then
    match token.text with
    | "if" => .conditional <$> conditionalOver statement
    | "until" => untilStatement
    | "loop" => loopOver statement
    | "return" => resultStatement
    | _ => reject token .misplacedKeyword
  else
    simpleStatement

/-- A statement with others nested in it less than `depth` times. -/
def statementWithin : (depth : Nat) → Rule Stmt
  | 0 => do reject (← observe State.current) .expectedExpression
  | depth + 1 => statementOver (statementWithin depth)

/-- A statement. Every statement inside it starts at a later token, so it is nested no deeper than
there are tokens left. -/
def statement : Rule Stmt := do
  let depth ← observe (·.rest.length + 1)
  statementWithin depth

/-- One or more statements up to a right brace. -/
def body : Rule (List Stmt) :=
  bodyOver statement

/-- A conditional. -/
def conditional : Rule Conditional :=
  conditionalOver statement

/-- A loop. -/
def loop : Rule Stmt :=
  loopOver statement

end Tranquility.Grammar
