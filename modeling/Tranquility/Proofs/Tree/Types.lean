import Tranquility.Proofs.Tree.Shape

/-!
# The types that a tree gives

What type an expression has can be told from its tokens and from what it is made of, without the
types that the tree keeps: literals by their kind, operators by theirs, and a group by its content.
Where every node of some expressions keeps the rules about types, the type that a node keeps is the
one that is told like this. The nodes are taken with all of their parts, so that a group can be told
from its content; those of expressions, statements and programs are.
-/

namespace Tranquility

open Grammar

namespace Expr

/-! ## Types -/

/-- The type of an expression, told from its tokens and its parts alone; none if a literal or a
binary operator is of a kind that is not one. -/
def derivedType? : Expr → Option Ty
  | .literal token _ =>
    match token.kind with
    | .integer | .character => some .integer
    | .string => some .string
    | _ => none
  | .reference _ => some .address
  | .call _ _ => some .any
  | .unit _ => some .any
  | .group _ content _ => content.derivedType?
  | .dereference _ _ => some .any
  | .negation _ _ => some .integer
  | .complement _ _ => some .integer
  | .binary operator _ _ _ =>
    match operator.kind with
    | .xor | .bitwiseShift | .additive | .minus | .multiplicative => some .integer
    | .comparison | .bitwiseComparison => some .boolean
    | _ => none

/-- The type of a literal comes from the kind of its token. -/
theorem derivedType?_literal (token : Token) (type : Ty) :
    (literal token type).derivedType? = literalType? token.kind := by
  rw [derivedType?]
  cases token.kind <;> rfl

/-- The type of a binary node comes from the level of its operator. -/
theorem derivedType?_binary (operator : Token) (left right : Expr) (type : Ty) :
    (binary operator left right type).derivedType? =
      (Level.ofKind? operator.kind).map Level.result := by
  rw [derivedType?]
  cases operator.kind <;> rfl

/-! ## Parts -/

/-- What an expression is made of. -/
def parts : Expr → List Expr
  | .call _ arguments => arguments
  | .group _ content _ => [content]
  | .dereference _ operand => [operand]
  | .negation _ operand => [operand]
  | .complement _ operand => [operand]
  | .binary _ left right _ => [left, right]
  | _ => []

/-- With every node its parts are there. -/
def Closed (nodes : List Expr) : Prop :=
  ∀ node ∈ nodes, ∀ part ∈ node.parts, part ∈ nodes

theorem closed_nil : Closed [] :=
  fun _ h => absurd h List.not_mem_nil

theorem Closed.append {nodes nodes' : List Expr} (h : Closed nodes) (h' : Closed nodes') :
    Closed (nodes ++ nodes') := by
  intro node hnode part hpart
  rcases List.mem_append.mp hnode with hnode | hnode
  · exact List.mem_append_left _ (h node hnode part hpart)
  · exact List.mem_append_right _ (h' node hnode part hpart)

/-- A node after all of its parts. -/
theorem Closed.concat {nodes : List Expr} (h : Closed nodes) {node : Expr}
    (hparts : ∀ part ∈ node.parts, part ∈ nodes) : Closed (nodes ++ [node]) := by
  intro other hother part hpart
  refine List.mem_append_left _ ?_
  rcases List.mem_append.mp hother with hother | hother
  · exact h other hother part hpart
  · rw [List.mem_singleton.mp hother] at hpart
    exact hparts part hpart

mutual

/-- The nodes of an expression have their parts among them. -/
theorem closed_nodes : ∀ expr : Expr, Closed expr.nodes
  | .literal _ _ => closed_nil.concat fun _ h => absurd h List.not_mem_nil
  | .reference _ => closed_nil.concat fun _ h => absurd h List.not_mem_nil
  | .unit _ => closed_nil.concat fun _ h => absurd h List.not_mem_nil
  | .call _ arguments => by
    rw [nodes]
    exact (closed_nodesOfAll arguments).concat fun argument h =>
      mem_nodesOfAll.mpr ⟨argument, h, argument.self_mem_nodes⟩
  | .group _ content _ => by
    rw [nodes]
    exact content.closed_nodes.concat fun _ h => List.mem_singleton.mp h ▸ content.self_mem_nodes
  | .dereference _ operand => by
    rw [nodes]
    exact operand.closed_nodes.concat fun _ h => List.mem_singleton.mp h ▸ operand.self_mem_nodes
  | .negation _ operand => by
    rw [nodes]
    exact operand.closed_nodes.concat fun _ h => List.mem_singleton.mp h ▸ operand.self_mem_nodes
  | .complement _ operand => by
    rw [nodes]
    exact operand.closed_nodes.concat fun _ h => List.mem_singleton.mp h ▸ operand.self_mem_nodes
  | .binary _ left right _ => by
    rw [nodes]
    refine (left.closed_nodes.append right.closed_nodes).concat fun part h => ?_
    rcases List.mem_pair.mp h with rfl | rfl
    · exact List.mem_append_left _ part.self_mem_nodes
    · exact List.mem_append_right _ part.self_mem_nodes

theorem closed_nodesOfAll : ∀ exprs : List Expr, Closed (nodesOfAll exprs)
  | [] => closed_nil
  | expr :: exprs => by
    rw [nodesOfAll]
    exact expr.closed_nodes.append (closed_nodesOfAll exprs)

end

/-! ## The types of nodes -/

section

variable {nodes : List Expr}

/-- A node that keeps the rules, with all nodes in it, keeps the type that it gives. -/
theorem Closed.derivedType? (hclosed : Closed nodes) (htyped : ∀ node ∈ nodes, node.Typed) :
    ∀ {node : Expr}, node ∈ nodes → node.derivedType? = some node.type
  | .literal token type, h => (derivedType?_literal token type).trans (htyped _ h)
  | .reference _, _ => rfl
  | .call _ _, _ => rfl
  | .unit _, _ => rfl
  | .group token content type, h => by
    have hcontent := hclosed _ h content (List.mem_singleton_self _)
    have htype : type = content.type := htyped _ h
    rw [Expr.derivedType?, hclosed.derivedType? htyped hcontent, ← htype]
    rfl
  | .dereference _ _, _ => rfl
  | .negation _ _, _ => rfl
  | .complement _ _, _ => rfl
  | .binary operator left right type, h =>
    (derivedType?_binary operator left right type).trans (htyped _ h).1

/-- The operands of a binary node give types that go together. -/
theorem Closed.operandsMatch (hclosed : Closed nodes) (htyped : ∀ node ∈ nodes, node.Typed)
    {operator : Token} {left right : Expr} {type : Ty}
    (h : binary operator left right type ∈ nodes) :
    left.derivedType? = some left.type ∧ right.derivedType? = some right.type ∧
      Ty.operandsMatch left.type right.type = true :=
  have hleft : left ∈ nodes := hclosed _ h left (List.mem_pair.mpr (.inl rfl))
  have hright : right ∈ nodes := hclosed _ h right (List.mem_pair.mpr (.inr rfl))
  ⟨hclosed.derivedType? htyped hleft, hclosed.derivedType? htyped hright, (htyped _ h).2⟩

end

/-- The type that a legal expression keeps is the one derived. -/
theorem Legal.derivedType? {visible : Visible} {expr : Expr} (h : expr.Legal visible) :
    expr.derivedType? = some expr.type :=
  expr.closed_nodes.derivedType? (fun node hnode => (h node hnode).typed) expr.self_mem_nodes

end Expr

/-! ## Statements and programs -/

mutual

/-- The nodes of a statement have their parts among them. -/
theorem Stmt.closed_nodes : ∀ stmt : Stmt, Expr.Closed stmt.nodes
  | .conditional conditional => conditional.closed_nodes
  | .until _ condition => condition.closed_nodes
  | .loop _ body => Stmt.closed_nodesOfAll body
  | .result _ none => Expr.closed_nil
  | .result _ (some value) => value.closed_nodes
  | .assignment _ target value => target.closed_nodes.append value.closed_nodes
  | .expression value => value.closed_nodes

theorem Conditional.closed_nodes : ∀ conditional : Conditional, Expr.Closed conditional.nodes
  | .only _ condition body => condition.closed_nodes.append (Stmt.closed_nodesOfAll body)
  | .otherwise _ condition body alternative =>
    (condition.closed_nodes.append (Stmt.closed_nodesOfAll body)).append
      (Stmt.closed_nodesOfAll alternative)
  | .chained _ condition body next =>
    (condition.closed_nodes.append (Stmt.closed_nodesOfAll body)).append next.closed_nodes

theorem Stmt.closed_nodesOfAll : ∀ stmts : List Stmt, Expr.Closed (Stmt.nodesOfAll stmts)
  | [] => Expr.closed_nil
  | stmt :: stmts => stmt.closed_nodes.append (Stmt.closed_nodesOfAll stmts)

end

theorem Program.closed_nodes (program : Program) : Expr.Closed program.nodes := by
  rw [nodes]
  induction program.functions with
  | nil => exact Expr.closed_nil
  | cons function functions ih =>
    rw [List.flatMap_cons]
    exact (Stmt.closed_nodesOfAll function.body).append ih

/-- The nodes of a program whose functions are legal keep the rules about types. -/
theorem FunctionDecl.AllLegal.typed {program : Program}
    (h : FunctionDecl.AllLegal program.globals program.functions) :
    ∀ node ∈ program.nodes, node.Typed := by
  intro node hnode
  obtain ⟨function, hfunction, hnode⟩ := List.mem_flatMap.mp hnode
  obtain ⟨earlier, later, hsplit⟩ := List.append_of_mem hfunction
  exact ((h earlier function later hsplit).body.nodes node hnode).typed

end Tranquility
