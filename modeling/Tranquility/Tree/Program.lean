import Tranquility.Tree.Stmt

/-!
# Programs

A program is a list of functions after the global variables. Variables are declared in lines, each
of one or more names; a list of lines without any stands for a declaration that is absent.
-/

namespace Tranquility

/-- The names of a list of tokens are their texts. -/
def Token.names (tokens : List Token) : List String :=
  tokens.map (·.text)

/-- The declaration of a function. -/
structure FunctionDecl where
  /-- The token that names the function. -/
  token : Token
  /-- The tokens that name the parameters. -/
  parameters : List Token
  /-- The lines that declare local variables. -/
  locals : List (List Token)
  /-- The statements of the function. -/
  body : List Stmt

namespace FunctionDecl

/-- The name of the function. -/
def name (function : FunctionDecl) : String :=
  function.token.text

/-- The number of arguments the function takes. -/
def arity (function : FunctionDecl) : Nat :=
  function.parameters.length

/-- The function's name and parameters, as an editor shows them. -/
def signature (function : FunctionDecl) : String :=
  "fun " ++ function.name ++ "(" ++ ", ".intercalate (Token.names function.parameters) ++ ")"

end FunctionDecl

/-- A whole program. -/
structure Program where
  /-- The lines that declare global variables. -/
  globals : List (List Token)
  /-- The functions in the order of declaration. -/
  functions : List FunctionDecl

/-- The first function of a name. -/
def Program.findFunction? (program : Program) (name : String) : Option FunctionDecl :=
  program.functions.find? (·.name = name)

end Tranquility
