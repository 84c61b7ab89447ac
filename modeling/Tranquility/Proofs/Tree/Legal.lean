import Tranquility.Grammar.Program
import Tranquility.Proofs.Tree.Written

/-!
# Legal trees

Which programs the language allows, said of the tree alone. The rules about expressions hold at
every node: its type follows from its parts, it needs no parentheses that it does not have, its
escapes exist, and its name is visible. Every loop has an `until` statement of its own and no body
of a conditional is empty. Names are told apart as the language asks: a function may share its name
only with another `init`, and no two variables that a function sees have one name.
-/

namespace Tranquility

open Grammar

/-! ## Expressions -/

/-- The level on which operators of a kind stand. -/
def Grammar.Level.ofKind? : Kind → Option Level
  | .xor => some .xor
  | .bitwiseComparison => some .bitwiseComparison
  | .comparison => some .comparison
  | .bitwiseShift => some .shift
  | .additive | .minus => some .additive
  | .multiplicative => some .multiplicative
  | _ => none

/-- The operators of a level are the kinds that stand on it. -/
theorem Grammar.Level.mem_operators_iff {level : Level} {kind : Kind} :
    kind ∈ level.operators ↔ Level.ofKind? kind = some level := by
  cases level <;> cases kind <;> simp [Level.operators, Level.ofKind?]

mutual

/-- The nodes of an expression, each after its parts and the parts in the order of the source. -/
def Expr.nodes : Expr → List Expr
  | .call token arguments => Expr.nodesOfAll arguments ++ [.call token arguments]
  | .group token content type => content.nodes ++ [.group token content type]
  | .dereference token operand => operand.nodes ++ [.dereference token operand]
  | .negation token operand => operand.nodes ++ [.negation token operand]
  | .complement token operand => operand.nodes ++ [.complement token operand]
  | .binary operator left right type =>
    left.nodes ++ right.nodes ++ [.binary operator left right type]
  | leaf => [leaf]

/-- The nodes of some expressions, one expression after the other. -/
def Expr.nodesOfAll : List Expr → List Expr
  | [] => []
  | expr :: exprs => expr.nodes ++ Expr.nodesOfAll exprs

end

/-- The nodes of arguments are those of each of them. -/
theorem Expr.mem_nodesOfAll {node : Expr} {exprs : List Expr} :
    node ∈ nodesOfAll exprs ↔ ∃ expr ∈ exprs, node ∈ expr.nodes := by
  induction exprs with
  | nil => simp [nodesOfAll]
  | cons expr exprs ih => simp [nodesOfAll, ih]

/-- The rank of operands, which bind more tightly than any level. -/
abbrev Grammar.operandRank : Nat := Level.all.length

namespace Expr

/-- How tightly the outermost operator of an expression binds; operands bind tightest. -/
def rank : Expr → Nat
  | .binary operator _ _ _ => ((Level.ofKind? operator.kind).map Level.rank).getD 0
  | _ => operandRank

/-- No expression binds more tightly than an operand. -/
theorem rank_le (expr : Expr) : expr.rank ≤ operandRank := by
  unfold rank
  split
  case h_1 operator _ _ _ =>
    cases Level.ofKind? operator.kind with
    | none => exact Nat.zero_le _
    | some level => cases level <;> decide
  case h_2 => exact Nat.le_refl _

/-- The type of a node is the one that its parts give it, and the operator of a binary node accepts
the types of its operands. -/
def Typed : Expr → Prop
  | .literal token type => literalType? token.kind = some type
  | .group _ content type => type = content.type
  | .binary operator left right type =>
    (Level.ofKind? operator.kind).map Level.result = some type ∧
      Ty.operandsMatch left.type right.type
  | _ => True

/-- A node needs no parentheses: operators associate to the left, and what stands in parentheses or
after an operator in front is an operand. -/
def Canonical : Expr → Prop
  | .group _ content _ => content.rank = operandRank
  | .dereference _ operand | .negation _ operand | .complement _ operand =>
    operand.rank = operandRank
  | .binary operator left right _ => ∃ level, Level.ofKind? operator.kind = some level ∧
      level.rank ≤ left.rank ∧ level.rank < right.rank
  | _ => True

end Expr

/-- A part of a string between its quotes: a character other than the backslash, or a backslash
with a character that may follow it. -/
def IsEscapeUnit (part : List Char) : Prop :=
  (∃ c, c ≠ '\\' ∧ part = [c]) ∨ ∃ c ∈ escapable, part = ['\\', c]

/-- A text is made of characters and of the escapes that the language has. -/
def WellEscaped (text : List Char) : Prop :=
  ∃ parts : List (List Char), text = parts.flatten ∧ ∀ part ∈ parts, IsEscapeUnit part

/-- A string literal holds no other escapes than those of the language. -/
def Expr.Escaped : Expr → Prop
  | .literal token _ => token.kind = .string → WellEscaped (inner token)
  | _ => True

/-- The names that may be used at a place of a program. -/
structure Visible where
  /-- A variable of the name is visible. -/
  hasVariable : String → Bool
  /-- The number of arguments of the function that a name means. -/
  arity? : String → Option Int

/-- A name stands for something visible, and a call has as many arguments as the function takes. -/
def Expr.Named (visible : Visible) : Expr → Prop
  | .reference token => visible.hasVariable token.text
  | .call token arguments => visible.arity? token.text = some arguments.length
  | _ => True

/-- A node keeps the rules about types, parentheses, escapes and names. -/
structure Expr.Sound (visible : Visible) (node : Expr) : Prop where
  typed : node.Typed
  canonical : node.Canonical
  escaped : node.Escaped
  named : node.Named visible

/-- Every node of an expression keeps the rules. -/
def Expr.Legal (visible : Visible) (expr : Expr) : Prop :=
  ∀ node ∈ expr.nodes, node.Sound visible

/-! ## Statements -/

mutual

/-- The nodes of the expressions of a statement, in the order of the source. -/
def Stmt.nodes : Stmt → List Expr
  | .conditional conditional => conditional.nodes
  | .until _ condition => condition.nodes
  | .loop _ body => Stmt.nodesOfAll body
  | .result _ none => []
  | .result _ (some value) => value.nodes
  | .assignment _ target value => target.nodes ++ value.nodes
  | .expression value => value.nodes

/-- The nodes of the expressions of a conditional and of what is chained to it. -/
def Conditional.nodes : Conditional → List Expr
  | .only _ condition body => condition.nodes ++ Stmt.nodesOfAll body
  | .otherwise _ condition body alternative =>
    condition.nodes ++ Stmt.nodesOfAll body ++ Stmt.nodesOfAll alternative
  | .chained _ condition body next => condition.nodes ++ Stmt.nodesOfAll body ++ next.nodes

/-- The nodes of the expressions of some statements. -/
def Stmt.nodesOfAll : List Stmt → List Expr
  | [] => []
  | stmt :: stmts => stmt.nodes ++ Stmt.nodesOfAll stmts

end

mutual

/-- Every loop in a statement has an `until` statement of its own, and no body of a conditional is
empty. -/
def Stmt.Complete : Stmt → Prop
  | .conditional conditional => conditional.Complete
  | .loop _ body => body.any Stmt.isUntil ∧ Stmt.AllComplete body
  | _ => True

/-- What is chained to a conditional counts as part of it. -/
def Conditional.Complete : Conditional → Prop
  | .only _ _ body => body ≠ [] ∧ Stmt.AllComplete body
  | .otherwise _ _ body alternative =>
    (body ≠ [] ∧ Stmt.AllComplete body) ∧ alternative ≠ [] ∧ Stmt.AllComplete alternative
  | .chained _ _ body next => (body ≠ [] ∧ Stmt.AllComplete body) ∧ next.Complete

/-- Every statement of a list is complete. -/
def Stmt.AllComplete : List Stmt → Prop
  | [] => True
  | stmt :: stmts => stmt.Complete ∧ Stmt.AllComplete stmts

end

/-- The expressions of some statements keep the rules, and the statements are complete. -/
structure Stmt.AllLegal (visible : Visible) (stmts : List Stmt) : Prop where
  nodes : ∀ node ∈ Stmt.nodesOfAll stmts, node.Sound visible
  complete : Stmt.AllComplete stmts

/-! ## Programs -/

/-- The nodes of the expressions of a program, in the order of a walk through it: each node after
its operands, and statements and functions one after the other. -/
def Program.nodes (program : Program) : List Expr :=
  program.functions.flatMap fun function => Stmt.nodesOfAll function.body

/-- The number of arguments of a function by its name: the last of the functions declared so far
decides, or else the language itself. -/
def FunctionDecl.arityAmong? (functions : List FunctionDecl) (name : String) : Option Int :=
  match functions.reverse.find? (·.name = name) with
  | some function => some function.arity
  | none => (Builtin.find? name).map (·.parameterCount)

/-- Names that are told apart are told apart without the last of them. -/
theorem Token.nodup_names_append {tokens tokens' : List Token}
    (h : (Token.names (tokens ++ tokens')).Nodup) : (Token.names tokens).Nodup := by
  rw [Token.names, List.map_append] at h
  exact (List.nodup_append.mp h).1

/-- The variables that the body of a function sees: the global ones, its parameters and its own. -/
def FunctionDecl.variablesSeen (globals : List (List Token)) (function : FunctionDecl) :
    List Token :=
  globals.flatten ++ function.parameters ++ function.locals.flatten

/-- The names that the body of a function sees, after the functions declared earlier. -/
def FunctionDecl.visible (globals : List (List Token)) (earlier : List FunctionDecl)
    (function : FunctionDecl) : Visible where
  hasVariable name := (Token.names (function.variablesSeen globals)).contains name
  arity? := arityAmong? (earlier ++ [function])

/-- A function keeps the rules of the language at its place in a program. -/
structure FunctionDecl.Legal (globals : List (List Token)) (earlier : List FunctionDecl)
    (function : FunctionDecl) : Prop where
  name_new : function.name = Builtin.entryPoint ∨
    function.name ∉ Builtin.functions.map (·.name) ∧ function.name ∉ earlier.map (·.name)
  lines_ne_nil : ∀ line ∈ function.locals, line ≠ []
  variables_nodup : (Token.names (function.variablesSeen globals)).Nodup
  body : Stmt.AllLegal (function.visible globals earlier) function.body

/-- Every function of a list keeps the rules after those in front of it. -/
def FunctionDecl.AllLegal (globals : List (List Token)) (functions : List FunctionDecl) : Prop :=
  ∀ earlier function later, functions = earlier ++ function :: later →
    function.Legal globals earlier

/-- One more function is legal behind those in front of it. -/
theorem FunctionDecl.allLegal_concat {globals : List (List Token)}
    {functions : List FunctionDecl} {function : FunctionDecl} :
    AllLegal globals (functions ++ [function]) ↔
      AllLegal globals functions ∧ function.Legal globals functions := by
  constructor
  · intro h
    refine ⟨fun earlier other later heq => ?_, h functions function [] rfl⟩
    exact h earlier other (later ++ [function]) (by simp [heq])
  · rintro ⟨hall, hlast⟩ earlier other later heq
    rcases List.eq_nil_or_concat later with rfl | ⟨later, last, rfl⟩
    · obtain ⟨rfl, hother⟩ := List.append_inj' heq rfl
      rw [← List.singleton_inj.mp hother]
      exact hlast
    · rw [List.concat_eq_append, ← List.cons_append, ← List.append_assoc] at heq
      exact hall earlier other later (List.append_inj' heq rfl).1

/-- A function of a list keeps the rules after those in front of its place. -/
theorem FunctionDecl.AllLegal.legal {globals : List (List Token)} {functions : List FunctionDecl}
    (h : AllLegal globals functions) {place : Nat} {function : FunctionDecl}
    (hfunction : functions[place]? = some function) :
    function.Legal globals (functions.take place) := by
  obtain ⟨hlt, rfl⟩ := List.getElem?_eq_some_iff.mp hfunction
  apply h (functions.take place) _ (functions.drop (place + 1))
  rw [← List.drop_eq_getElem_cons hlt, List.take_append_drop]

/-- A program that the language allows. -/
structure Program.Legal (program : Program) : Prop where
  proper : ∀ piece ∈ program.pieces, piece.Proper
  functions_ne_nil : program.functions ≠ []
  lines_ne_nil : ∀ line ∈ program.globals, line ≠ []
  functions : FunctionDecl.AllLegal program.globals program.functions

end Tranquility
