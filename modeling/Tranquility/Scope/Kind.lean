/-!
# Kinds of scopes

A program has one global scope, and a brace opens a scope for the body of a function, of a loop, or
of a branch of a conditional. A request to open a scope may name a kind the language does not know.
-/

namespace Tranquility

/-- What a scope belongs to. -/
inductive ScopeKind where
  | global
  | function
  | loop
  | ifBranch
  | elseBranch
  /-- A kind the language does not know. -/
  | other (name : String)
  deriving DecidableEq, Repr

namespace ScopeKind

/-- The name of a kind of scope. -/
def name : ScopeKind → String
  | global => "global"
  | function => "function"
  | loop => "loop"
  | ifBranch => "if"
  | elseBranch => "else"
  | other name => name

/-- The kind of scope that a name stands for. -/
def ofName : String → ScopeKind
  | "global" => global
  | "function" => function
  | "loop" => loop
  | "if" => ifBranch
  | "else" => elseBranch
  | name => other name

/-- A brace may open a scope of this kind. -/
def opens : ScopeKind → Bool
  | function | loop | ifBranch | elseBranch => true
  | global | other _ => false

/-- Every name stands for a kind of that name. -/
theorem name_ofName (name : String) : (ofName name).name = name := by
  unfold ofName
  split <;> rfl

end ScopeKind

end Tranquility
