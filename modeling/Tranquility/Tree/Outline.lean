import Tranquility.Tree.Program

/-!
# Programs as debug listings show them

Every node is written with its name and its fields, lists stand in brackets, and a part that is
absent is `None`. Names of types are quoted and tokens are written as listings of tokens show them.
-/

namespace Tranquility

namespace Outline

/-- A node with its fields in order. -/
def node (name : String) (fields : List (String × String)) : String :=
  let written := fields.map fun (field, value) => field ++ "=" ++ value
  name ++ "(" ++ ", ".intercalate written ++ ")"

/-- A list of nodes. -/
def list (items : List String) : String :=
  "[" ++ ", ".intercalate items ++ "]"

/-- A part that may be absent. -/
def absent : String := "None"

/-- The name of a type. -/
def typeName (type : Ty) : String :=
  Text.quoted type.name

/-- A list of names. -/
def names (tokens : List Token) : String :=
  node "IdentifierList" [("tokens", list (tokens.map (·.outline)))]

/-- Lines that declare variables; without any the declaration is absent. -/
def declarations (lines : List (List Token)) : String :=
  if lines.isEmpty then absent
  else node "VarList" [("declarations", list (lines.map names))]

/-- A body of the statements given. -/
def body (statements : List String) : String :=
  node "StatementList" [("statements", list statements)]

/-- A body of the statements given; without any the body is absent. -/
def optionalBody (statements : List String) : String :=
  if statements.isEmpty then absent else body statements

end Outline

open Outline

mutual

/-- An expression as debug listings show it. -/
def Expr.outline : Expr → String
  | .literal token ty =>
    node "Literal" [("token", token.outline), ("return_type", typeName ty)]
  | .reference token =>
    node "VariableReference" [("token", token.outline), ("return_type", typeName .address)]
  | .call token arguments =>
    node "FunctionCall" [("token", token.outline),
      ("arguments", list (Expr.outlines arguments)), ("return_type", typeName .any)]
  | .unit token =>
    node "Group" [("token", token.outline), ("expression", absent),
      ("return_type", typeName .any)]
  | .group token content ty =>
    node "Group" [("token", token.outline), ("expression", content.outline),
      ("return_type", typeName ty)]
  | .dereference token operand =>
    node "Dereference" [("token", token.outline), ("operand", operand.outline),
      ("return_type", typeName .any)]
  | .negation token operand =>
    node "Negation" [("token", token.outline), ("operand", operand.outline),
      ("return_type", typeName .integer)]
  | .complement token operand =>
    node "BitwiseNegation" [("token", token.outline), ("operand", operand.outline),
      ("return_type", typeName .integer)]
  | .binary operator left right ty =>
    node "BinaryExpression" [("operator", operator.outline), ("left", left.outline),
      ("right", right.outline), ("return_type", typeName ty)]

/-- Expressions as debug listings show them. -/
def Expr.outlines : List Expr → List String
  | [] => []
  | e :: es => e.outline :: Expr.outlines es

end

mutual

/-- A statement as debug listings show it. -/
def Stmt.outline : Stmt → String
  | .conditional conditional => conditional.outline
  | .until token condition =>
    node "UntilStatement" [("token", token.outline), ("condition", condition.outline)]
  | .loop token statements =>
    node "LoopStatement" [("token", token.outline),
      ("body", optionalBody (Stmt.outlines statements))]
  | .result token value =>
    node "ReturnStatement" [("token", token.outline),
      ("expression", (value.map Expr.outline).getD absent)]
  | .assignment colon target value =>
    node "AssignmentStatement" [("token", colon.outline), ("target", target.outline),
      ("value", value.outline)]
  | .expression value => node "ExpressionStatement" [("expression", value.outline)]

/-- A conditional as debug listings show it. -/
def Conditional.outline : Conditional → String
  | .only token condition statements =>
    node "IfStatement" [("token", token.outline), ("condition", condition.outline),
      ("body", body (Stmt.outlines statements)), ("else_body", absent)]
  | .otherwise token condition statements alternative =>
    node "IfStatement" [("token", token.outline), ("condition", condition.outline),
      ("body", body (Stmt.outlines statements)), ("else_body", body (Stmt.outlines alternative))]
  | .chained token condition statements next =>
    node "IfStatement" [("token", token.outline), ("condition", condition.outline),
      ("body", body (Stmt.outlines statements)), ("else_body", next.outline)]

/-- Statements as debug listings show them. -/
def Stmt.outlines : List Stmt → List String
  | [] => []
  | s :: ss => s.outline :: Stmt.outlines ss

end

/-- A function as debug listings show it. -/
def FunctionDecl.outline (function : FunctionDecl) : String :=
  let parameters := if function.parameters.isEmpty then absent else names function.parameters
  node "FunctionDeclaration" [("token", function.token.outline), ("parameters", parameters),
    ("var_list", declarations function.locals),
    ("body", optionalBody (Stmt.outlines function.body))]

/-- A program as debug listings show it. -/
def Program.outline (program : Program) : String :=
  node "Program" [("functions", list (program.functions.map (·.outline))),
    ("var_list", declarations program.globals)]

end Tranquility
