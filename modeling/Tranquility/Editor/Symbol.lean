import Tranquility.Tree.Program

/-!
# Symbols of a document

The symbols that an editor lists and jumps to are the global variables and the functions of a
program, in the order of the source.
-/

namespace Tranquility.Editor

/-- What a symbol names. -/
inductive SymbolKind where
  /-- A function. -/
  | callable
  /-- A global variable. -/
  | global
  deriving DecidableEq, Repr

/-- The number that editors know a kind of symbol by. -/
def SymbolKind.number : SymbolKind → Nat
  | callable => 12
  | global => 13

/-- A name that a document declares at its top level. -/
structure Symbol where
  /-- The name. -/
  name : String
  /-- What it names. -/
  kind : SymbolKind
  /-- The token that declares it. -/
  token : Token
  /-- Its declaration in short. -/
  detail : String
  deriving DecidableEq, Repr

namespace Symbol

/-- The range of the token that declares the symbol. -/
def range (symbol : Symbol) : Range :=
  symbol.token.range

/-- The symbol of a global variable. -/
def ofVariable (token : Token) : Symbol :=
  ⟨token.text, .global, token, "var " ++ token.text⟩

/-- The symbol of a function. -/
def ofFunction (function : FunctionDecl) : Symbol :=
  ⟨function.name, .callable, function.token, function.signature⟩

/-- The symbols of a program: its variables, then its functions. -/
def ofProgram (program : Program) : List Symbol :=
  program.globals.flatten.map ofVariable ++ program.functions.map ofFunction

end Symbol

end Tranquility.Editor
