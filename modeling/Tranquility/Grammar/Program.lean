import Tranquility.Grammar.Statement
import Tranquility.Tree.Program

/-!
# The grammar of programs

A program declares global variables and then functions. A name is visible from its declaration on: a
function from the brace that opens its body, so that it may call itself, and a variable from the end
of its line. Function names must be new, except that the entry point may always be declared.
-/

namespace Tranquility.Grammar

/-- One or more names with commas between them. -/
def identifiers : Rule (List Token) :=
  commaSeparated (expect .identifier)

/-- A line that declares variables in the current scope. -/
def variableLine : Rule (List Token) := do
  skipKeyword "var"
  let names ← identifiers
  declareVariables names
  skip .newline
  return names

/-- The lines that declare variables, up to one that does not. -/
def variableLines : Rule (List (List Token)) :=
  collect (·.seesKeyword "var") variableLine []

/-- The newline after a function; the last function of a source may do without. -/
def functionEnd : Rule Unit := do
  if ← observe State.atEnd then pure () else skip .newline

/-- A function of the name may be declared in the current scope. -/
def State.allowsFunction (state : State) (name : String) : Bool :=
  name = Builtin.entryPoint || !state.scopes.hasFunction name state.scopes.current

/-- What is wrong where the first function of a program was expected. -/
def State.startFault (state : State) : Violation :=
  if state.atEnd then .missingFunction else .expectedDeclarations

/-- The declaration of a function. -/
def function : Rule FunctionDecl := do
  skipKeyword "fun"
  let name ← expect .identifier
  require (← observe (·.allowsFunction name.text)) name .duplicateFunction
  skip .leftParen
  let parameters ← unlessAt .rightParen identifiers
  skip .rightParen
  let enclosing ← observe (·.scopes.current)
  openScope .function
  declareFunction ⟨name.text, parameters.length, some name⟩ enclosing
  declareVariables parameters
  skip .newline
  let locals ← variableLines
  let body ← unlessAt .rightBrace body
  skip .rightBrace
  functionEnd
  return ⟨name, parameters, locals, body⟩

/-- One or more functions. -/
def functions : Rule (List FunctionDecl) := do
  let first ← function
  collect (·.seesKeyword "fun") function [first]

/-- A program, up to the end of the input. -/
def program : Rule Program := do
  whilst (·.sees .newline) (fun _ => skip .newline) ()
  let globals ← variableLines
  let first ← observe State.current
  require (first.isKeyword "fun") first (← observe State.startFault)
  let functions ← functions
  require (← observe State.atEnd) (← observe State.current) .expectedFunction
  return ⟨globals, functions⟩

end Tranquility.Grammar
