import Tranquility.Tree.Expr

/-!
# Statements

The bodies of functions, loops and conditionals are lists of statements. A conditional ends after
its body, or goes on with another body, or with another conditional.
-/

namespace Tranquility

mutual

/-- A statement of the language. -/
inductive Stmt where
  /-- A body that runs if a condition holds, with what follows `else`. -/
  | conditional (conditional : Conditional)
  /-- The condition that ends the loop around it. -/
  | until (token : Token) (condition : Expr)
  /-- A body that runs again and again. -/
  | loop (token : Token) (body : List Stmt)
  /-- The end of a function, with its value if it has one. -/
  | result (token : Token) (value : Option Expr)
  /-- A value stored at an address; the token is the colon between them. -/
  | assignment (colon : Token) (target value : Expr)
  /-- An expression on a line of its own. -/
  | expression (value : Expr)

/-- A condition with a body, and what runs if the condition fails. -/
inductive Conditional where
  /-- Nothing runs if the condition fails. -/
  | only (token : Token) (condition : Expr) (body : List Stmt)
  /-- Another body runs if the condition fails. -/
  | otherwise (token : Token) (condition : Expr) (body alternative : List Stmt)
  /-- Another conditional runs if the condition fails. -/
  | chained (token : Token) (condition : Expr) (body : List Stmt) (next : Conditional)

end

/-- An `until` statement. -/
def Stmt.isUntil : Stmt → Bool
  | .until _ _ => true
  | _ => false

end Tranquility
