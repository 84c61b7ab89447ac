import Tranquility.Token.Basic
import Tranquility.Tree.Ty

/-!
# Expressions

An expression keeps the token that introduces each of its parts, and the type found for each part
whose type depends on what it is made of. Parentheses hold at most one operand and are kept as a
group, so the tree needs no others to be written out again.
-/

namespace Tranquility

/-- An expression of the language. -/
inductive Expr where
  /-- An integer, string or character. -/
  | literal (token : Token) (type : Ty)
  /-- A variable, which stands for the address of its value. -/
  | reference (token : Token)
  /-- A call of the function that the token names. -/
  | call (token : Token) (arguments : List Expr)
  /-- Parentheses around nothing; the token is the opening one. -/
  | unit (token : Token)
  /-- Parentheses around an operand; the token is the opening one. -/
  | group (token : Token) (content : Expr) (type : Ty)
  /-- The value stored at an address. -/
  | dereference (token : Token) (operand : Expr)
  /-- The negative of a number. -/
  | negation (token : Token) (operand : Expr)
  /-- The bitwise complement of a number. -/
  | complement (token : Token) (operand : Expr)
  /-- A binary operator between two operands. -/
  | binary (operator : Token) (left right : Expr) (type : Ty)
  deriving Repr

namespace Expr

/-- The type of an expression. -/
def type : Expr → Ty
  | literal _ type => type
  | reference _ => .address
  | call _ _ => .any
  | unit _ => .any
  | group _ _ type => type
  | dereference _ _ => .any
  | negation _ _ => .integer
  | complement _ _ => .integer
  | binary _ _ _ type => type

/-- The token that an expression is known by: the operator of a binary expression, the first token
of any other. -/
def token : Expr → Token
  | literal token _ => token
  | reference token => token
  | call token _ => token
  | unit token => token
  | group token _ _ => token
  | dereference token _ => token
  | negation token _ => token
  | complement token _ => token
  | binary operator _ _ _ => operator

end Expr

end Tranquility
