import Tranquility.Tree.Program
import Mathlib.Data.List.Forall2

/-!
# Trees without places

The tokens of a tree keep where they stand in the source and which number they have there. A tree
without that is what the source says apart from how it is laid out.
-/

namespace Tranquility

/-- A token without its place and its number. -/
def Token.bare (token : Token) : Token :=
  ⟨token.kind, token.text, 0, 0, -1⟩

/-- Without their places tokens are the same if they have the same kind and the same text. -/
theorem Token.bare_eq_bare_iff {token token' : Token} :
    token.bare = token'.bare ↔ token.kind = token'.kind ∧ token.text = token'.text := by
  simp [Token.bare]

mutual

/-- An expression without the places of its tokens. -/
def Expr.bare : Expr → Expr
  | .literal token type => .literal token.bare type
  | .reference token => .reference token.bare
  | .call token arguments => .call token.bare (Expr.bareAll arguments)
  | .unit token => .unit token.bare
  | .group token content type => .group token.bare content.bare type
  | .dereference token operand => .dereference token.bare operand.bare
  | .negation token operand => .negation token.bare operand.bare
  | .complement token operand => .complement token.bare operand.bare
  | .binary operator left right type => .binary operator.bare left.bare right.bare type

/-- Expressions without the places of their tokens. -/
def Expr.bareAll : List Expr → List Expr
  | [] => []
  | expr :: exprs => expr.bare :: Expr.bareAll exprs

end

mutual

/-- A statement without the places of its tokens. -/
def Stmt.bare : Stmt → Stmt
  | .conditional conditional => .conditional conditional.bare
  | .until token condition => .until token.bare condition.bare
  | .loop token body => .loop token.bare (Stmt.bareAll body)
  | .result token value => .result token.bare (value.map Expr.bare)
  | .assignment colon target value => .assignment colon.bare target.bare value.bare
  | .expression value => .expression value.bare

/-- A conditional without the places of its tokens. -/
def Conditional.bare : Conditional → Conditional
  | .only token condition body => .only token.bare condition.bare (Stmt.bareAll body)
  | .otherwise token condition body alternative =>
    .otherwise token.bare condition.bare (Stmt.bareAll body) (Stmt.bareAll alternative)
  | .chained token condition body next =>
    .chained token.bare condition.bare (Stmt.bareAll body) next.bare

/-- Statements without the places of their tokens. -/
def Stmt.bareAll : List Stmt → List Stmt
  | [] => []
  | stmt :: stmts => stmt.bare :: Stmt.bareAll stmts

end

/-- A function without the places of its tokens. -/
def FunctionDecl.bare (function : FunctionDecl) : FunctionDecl where
  token := function.token.bare
  parameters := function.parameters.map Token.bare
  locals := function.locals.map (·.map Token.bare)
  body := Stmt.bareAll function.body

/-- A program without the places of its tokens. -/
def Program.bare (program : Program) : Program where
  globals := program.globals.map (·.map Token.bare)
  functions := program.functions.map FunctionDecl.bare

/-! ## Alike -/

/-- The type of an expression has nothing to do with its place. -/
theorem Expr.type_bare (expr : Expr) : expr.bare.type = expr.type := by
  cases expr <;> rfl

/-- Expressions that are the same without places have one type. -/
theorem Expr.type_eq {expr expr' : Expr} (h : expr.bare = expr'.bare) : expr.type = expr'.type := by
  rw [← expr.type_bare, h, expr'.type_bare]

/-- Expressions that are alike one by one are alike. -/
theorem Expr.bareAll_eq {exprs exprs' : List Expr}
    (h : List.Forall₂ (fun expr expr' => expr.bare = expr'.bare) exprs exprs') :
    bareAll exprs = bareAll exprs' := by
  induction h with
  | nil => rfl
  | cons hfirst _ ih => rw [bareAll, bareAll, hfirst, ih]

/-- Statements that are alike one by one are alike. -/
theorem Stmt.bareAll_eq {stmts stmts' : List Stmt}
    (h : List.Forall₂ (fun stmt stmt' => stmt.bare = stmt'.bare) stmts stmts') :
    bareAll stmts = bareAll stmts' := by
  induction h with
  | nil => rfl
  | cons hfirst _ ih => rw [bareAll, bareAll, hfirst, ih]

end Tranquility
