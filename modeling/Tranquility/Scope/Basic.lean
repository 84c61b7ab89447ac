import Tranquility.Builtin
import Tranquility.Error

/-!
# Scopes

All scopes ever opened are kept in an arena, in the order of opening, and a scope is known by its
position there. Each scope remembers the scopes around it, nearest first, so that what is visible
from a scope is what it and those hold. Closing a scope makes the one around it current and leaves
its record in the arena. A variable may not have a name that is visible where it is declared.
-/

namespace Tranquility

/-- A function that a scope holds. -/
structure FunctionSymbol where
  /-- The name to call it by. -/
  name : String
  /-- The number of arguments it takes. A function that is entered by hand may have a number below
  zero, and then no call has the right number of arguments. -/
  arity : Int
  /-- The token that names it in its declaration; built-in functions have none. -/
  token : Option Token
  deriving DecidableEq, Repr

/-- A variable or parameter that a scope holds. -/
structure VariableSymbol where
  /-- The token that names it in its declaration. -/
  token : Token
  /-- The type it was declared with. -/
  type : Ty
  deriving DecidableEq, Repr

/-- The name of a variable is the text of its token. -/
def VariableSymbol.name (symbol : VariableSymbol) : String :=
  symbol.token.text

/-- The record of one scope. -/
structure Scope where
  /-- What the scope belongs to. -/
  kind : ScopeKind
  /-- The scopes around it, nearest first; the global scope has none. -/
  outer : List Nat
  /-- The functions declared in it, in order. -/
  functions : List FunctionSymbol
  /-- The variables declared in it, in order. -/
  vars : List VariableSymbol
  /-- Whether a loop's body has had an `until` statement. -/
  hasUntil : Bool
  deriving DecidableEq, Repr

namespace Scope

/-- The scope directly around a scope. -/
def parent? (scope : Scope) : Option Nat :=
  scope.outer.head?

/-- The last declared function of a name. -/
def findFunction? (scope : Scope) (name : String) : Option FunctionSymbol :=
  scope.functions.reverse.find? (·.name = name)

/-- The scope with a function after those it holds. -/
def addFunction (symbol : FunctionSymbol) (scope : Scope) : Scope :=
  { scope with functions := scope.functions ++ [symbol] }

/-- The scope with a variable after those it holds. -/
def addVariable (symbol : VariableSymbol) (scope : Scope) : Scope :=
  { scope with vars := scope.vars ++ [symbol] }

/-- The scope with an `until` statement. -/
def markUntil (scope : Scope) : Scope :=
  { scope with hasUntil := true }

end Scope

/-- All scopes of a program and the one that is current. -/
structure Scopes where
  /-- The scopes in the order of opening. -/
  arena : Array Scope
  /-- The position of the current scope. -/
  current : Nat
  deriving DecidableEq, Repr

namespace Scopes

/-- The global scope alone, which holds the built-in functions. -/
def initial : Scopes where
  arena := #[{
    kind := .global
    outer := []
    functions := Builtin.functions.map fun function =>
      ⟨function.name, function.parameterCount, none⟩
    vars := []
    hasUntil := false }]
  current := 0

/-- The scopes around a scope, nearest first. -/
def outer (scopes : Scopes) (id : Nat) : List Nat :=
  match scopes.arena[id]? with
  | some scope => scope.outer
  | none => []

/-- A scope and the scopes around it, nearest first. -/
def chain (scopes : Scopes) (id : Nat) : List Nat :=
  id :: scopes.outer id

/-- The records of a scope and of the scopes around it, nearest first. -/
def visible (scopes : Scopes) (id : Nat) : List Scope :=
  (scopes.chain id).filterMap (scopes.arena[·]?)

/-- The number of scopes around the current one. -/
def depth (scopes : Scopes) : Nat :=
  (scopes.outer scopes.current).length

/-- The kind of a scope. -/
def kind? (scopes : Scopes) (id : Nat) : Option ScopeKind :=
  (scopes.arena[id]?).map (·.kind)

/-- The scope has had an `until` statement. -/
def hasUntil (scopes : Scopes) (id : Nat) : Bool :=
  (scopes.arena[id]?).any (·.hasUntil)

/-- The functions visible from a scope: nearest scope first, in order of declaration within one. -/
def allFunctions (scopes : Scopes) (id : Nat) : List FunctionSymbol :=
  (scopes.visible id).flatMap (·.functions)

/-- The variables visible from a scope: nearest scope first, in order of declaration within one. -/
def allVariables (scopes : Scopes) (id : Nat) : List VariableSymbol :=
  (scopes.visible id).flatMap (·.vars)

/-- A function of the name is visible from the scope. -/
def hasFunction (scopes : Scopes) (name : String) (id : Nat) : Bool :=
  (scopes.allFunctions id).any (·.name = name)

/-- A variable of the name is visible from the scope. -/
def hasVariable (scopes : Scopes) (name : String) (id : Nat) : Bool :=
  (scopes.allVariables id).any (·.name = name)

/-- The function that a name means in a scope: the nearest scope decides, and within a scope the
last declaration. -/
def findFunction? (scopes : Scopes) (name : String) (id : Nat) : Option FunctionSymbol :=
  (scopes.visible id).findSome? (·.findFunction? name)

/-- Open a scope in the current one and make it current. -/
def enter (scopes : Scopes) (kind : Option ScopeKind) : Except ScopeError Scopes :=
  match kind.filter (·.opens) with
  | some opened => .ok {
      arena := scopes.arena.push ⟨opened, scopes.chain scopes.current, [], [], false⟩
      current := scopes.arena.size }
  | none => .error (.cannotOpen kind)

/-- Make the scope around the current one current. -/
def leave (scopes : Scopes) : Except ScopeError Scopes :=
  match scopes.outer scopes.current with
  | outer :: _ => .ok { scopes with current := outer }
  | [] => .error .noOuterScope

/-- Declare a variable in the current scope, unless its name is visible there. -/
def declareVariable (scopes : Scopes) (token : Token) (type : Ty) : Except TokenError Scopes :=
  if scopes.hasVariable token.text scopes.current then
    .error { token, violation := .duplicateVariable }
  else
    let symbol := ⟨token, type⟩
    .ok { scopes with arena := scopes.arena.modify scopes.current (·.addVariable symbol) }

/-- Declare a function in a scope. -/
def declareFunction (scopes : Scopes) (symbol : FunctionSymbol) (id : Nat) : Scopes :=
  { scopes with arena := scopes.arena.modify id (·.addFunction symbol) }

/-- Note an `until` statement in the current scope. -/
def markUntil (scopes : Scopes) : Scopes :=
  { scopes with arena := scopes.arena.modify scopes.current (·.markUntil) }

/-- Note an `until` statement in the current scope if that is the body of a loop. -/
def markLoop (scopes : Scopes) : Scopes :=
  if scopes.kind? scopes.current = some .loop then scopes.markUntil else scopes

end Scopes

end Tranquility
