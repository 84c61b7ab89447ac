import Tranquility.Proofs.Checking.Diagnostics
import Mathlib.Data.List.Perm.Subperm

/-!
# Warnings about addresses

A parse warns at the operators of the tree that have an address as an operand, and a reporter keeps
one diagnostic for each number of a token. That no warning is lost to this comes from the tree:
every node is known by a token that it keeps, the tree keeps a token for one place only, and the
tokens of a source have different numbers. So the warnings of a program are the ones that a walk
through it finds, in the order of the walk, each after those of the operands.
-/

namespace Tranquility

open Grammar

/-! ## The tokens that a tree keeps -/

/-- The tokens that a tree keeps of some pieces. -/
def Piece.keptOf (pieces : List Piece) : List Token :=
  pieces.filterMap (·.kept)

namespace Piece

@[simp] theorem keptOf_nil : keptOf [] = [] := rfl

@[simp] theorem keptOf_append (pieces pieces' : List Piece) :
    keptOf (pieces ++ pieces') = keptOf pieces ++ keptOf pieces' :=
  List.filterMap_append

@[simp] theorem keptOf_cons (piece : Piece) (pieces : List Piece) :
    keptOf (piece :: pieces) = piece.kept.toList ++ keptOf pieces := by
  cases hkept : piece.kept with
  | none => exact List.filterMap_cons_none hkept
  | some token => exact List.filterMap_cons_some hkept

/-- Commas are not kept. -/
theorem keptOf_separated (items : List (List Piece)) :
    keptOf (separated items) = items.flatMap keptOf := by
  induction items with
  | nil => rfl
  | cons item items ih =>
    cases items with
    | nil => simp [separated, List.intercalate_singleton]
    | cons next items =>
      have hsplit : separated (item :: next :: items) =
          item ++ [mark .comma] ++ separated (next :: items) := List.intercalate_cons_cons
      rw [hsplit, keptOf_append, keptOf_append, ih]
      exact congrArg (· ++ _) (List.append_nil _)

/-- Tokens that start with pieces have those kept among them, in order. -/
theorem Lead.keptOf_sublist {pieces : List Piece} {tokens : List Token} (h : Lead pieces tokens) :
    (keptOf pieces).Sublist tokens := by
  induction pieces generalizing tokens with
  | nil => exact List.nil_sublist tokens
  | cons piece pieces ih =>
    cases tokens with
    | nil => exact h.elim
    | cons token tokens =>
      obtain ⟨hfits, hrest⟩ := h
      cases hkept : piece.kept with
      | none =>
        rw [keptOf, List.filterMap_cons_none hkept]
        exact (ih hrest).cons token
      | some kept =>
        obtain rfl : token = kept := hfits.kept kept hkept
        rw [keptOf, List.filterMap_cons_some hkept]
        exact (ih hrest).cons_cons token

end Piece

/-- The tokens that some nodes are known by. -/
def Expr.tokensOf (nodes : List Expr) : List Token :=
  nodes.map (·.token)

@[simp] theorem Expr.tokensOf_append (nodes nodes' : List Expr) :
    tokensOf (nodes ++ nodes') = tokensOf nodes ++ tokensOf nodes' :=
  List.map_append

/-- A node comes after its parts in a walk. -/
theorem Expr.tokensOf_concat {nodes : List Expr} {kept : List Token}
    (h : (tokensOf nodes).Perm kept) (node : Expr) :
    (tokensOf (nodes ++ [node])).Perm (node.token :: kept) := by
  rw [tokensOf_append]
  exact (List.perm_append_singleton ..).trans (h.cons node.token)

open Piece

mutual

/-- Every node of an expression is known by a token that is kept for it alone. -/
theorem Expr.tokensOf_nodes : ∀ expr : Expr, (tokensOf expr.nodes).Perm (keptOf expr.pieces)
  | .literal _ _ => .refl _
  | .reference _ => .refl _
  | .unit _ => .refl _
  | .call token arguments => by
    have harguments := Expr.tokensOf_nodesOfAll arguments
    rw [← keptOf_separated] at harguments
    have hcall := tokensOf_concat harguments (.call token arguments)
    simpa [Expr.nodes, Expr.pieces, Expr.token, keep, mark] using hcall
  | .group token content type => by
    have hgroup := tokensOf_concat content.tokensOf_nodes (.group token content type)
    simpa [Expr.nodes, Expr.pieces, Expr.token, keep, mark] using hgroup
  | .dereference token operand => by
    rw [Expr.nodes]
    exact tokensOf_concat operand.tokensOf_nodes (.dereference token operand)
  | .negation token operand => by
    rw [Expr.nodes]
    exact tokensOf_concat operand.tokensOf_nodes (.negation token operand)
  | .complement token operand => by
    rw [Expr.nodes]
    exact tokensOf_concat operand.tokensOf_nodes (.complement token operand)
  | .binary operator left right type => by
    have hright := tokensOf_concat right.tokensOf_nodes (.binary operator left right type)
    rw [Expr.nodes, Expr.pieces, List.append_assoc, tokensOf_append, keptOf_append]
    exact left.tokensOf_nodes.append hright

/-- The nodes of some expressions and the tokens kept of them are one to one. -/
theorem Expr.tokensOf_nodesOfAll : ∀ exprs : List Expr,
    (tokensOf (nodesOfAll exprs)).Perm ((piecesOfEach exprs).flatMap keptOf)
  | [] => .nil
  | expr :: exprs => by
    simp only [Expr.nodesOfAll, Expr.piecesOfEach, tokensOf_append, List.flatMap_cons]
    exact expr.tokensOf_nodes.append (tokensOf_nodesOfAll exprs)

end

mutual

/-- A statement keeps the tokens of its nodes besides its own. -/
theorem Stmt.tokensOf_nodes : ∀ stmt : Stmt,
    (Expr.tokensOf stmt.nodes).Subperm (keptOf stmt.pieces)
  | .conditional conditional => conditional.tokensOf_nodes
  | .until token condition => by
    simpa [Stmt.nodes, Stmt.pieces, keepKeyword, mark] using
      condition.tokensOf_nodes.subperm.cons_right token
  | .loop token body => by
    simpa [Stmt.nodes, Stmt.pieces, block, keepKeyword, mark] using
      (Stmt.tokensOf_nodesOfAll body).cons_right token
  | .result _ none => List.nil_subperm
  | .result token (some value) => by
    simpa [Stmt.nodes, Stmt.pieces, keepKeyword, mark] using
      value.tokensOf_nodes.subperm.cons_right token
  | .assignment colon target value => by
    simpa [Stmt.nodes, Stmt.pieces, keep, mark] using
      target.tokensOf_nodes.subperm.append (value.tokensOf_nodes.subperm.cons_right colon)
  | .expression value => by
    simpa [Stmt.nodes, Stmt.pieces, mark] using value.tokensOf_nodes.subperm

/-- Each node of a conditional has a kept token of its own. -/
theorem Conditional.tokensOf_nodes (conditional : Conditional) :
    (Expr.tokensOf conditional.nodes).Subperm (keptOf conditional.pieces) := by
  cases conditional with
  | only token condition body =>
    have hbody := condition.tokensOf_nodes.subperm.append (Stmt.tokensOf_nodesOfAll body)
    simpa [Conditional.nodes, Conditional.pieces, block, keepKeyword, mark] using
      hbody.cons_right token
  | otherwise token condition body alternative =>
    have hbody := condition.tokensOf_nodes.subperm.append (Stmt.tokensOf_nodesOfAll body)
    have halternative := hbody.append (Stmt.tokensOf_nodesOfAll alternative)
    simpa [Conditional.nodes, Conditional.pieces, block, keepKeyword, keyword, mark] using
      halternative.cons_right token
  | chained token condition body next =>
    have hbody := condition.tokensOf_nodes.subperm.append (Stmt.tokensOf_nodesOfAll body)
    have hnext := hbody.append next.tokensOf_nodes
    simpa [Conditional.nodes, Conditional.pieces, block, keepKeyword, keyword, mark] using
      hnext.cons_right token

/-- Each node of some statements has a kept token of its own. -/
theorem Stmt.tokensOf_nodesOfAll : ∀ stmts : List Stmt,
    (Expr.tokensOf (Stmt.nodesOfAll stmts)).Subperm (keptOf (Stmt.piecesOfAll stmts))
  | [] => List.nil_subperm
  | stmt :: stmts => by
    simp only [Stmt.nodesOfAll, Stmt.piecesOfAll, Expr.tokensOf_append, keptOf_append]
    exact stmt.tokensOf_nodes.append (Stmt.tokensOf_nodesOfAll stmts)

end

/-- A function keeps the tokens of the nodes in its body. -/
theorem FunctionDecl.tokensOf_nodes (function : FunctionDecl) :
    (Expr.tokensOf (Stmt.nodesOfAll function.body)).Subperm (keptOf function.pieces) := by
  have hbody : Stmt.piecesOfAll function.body <:+: function.pieces := ⟨_, _, rfl⟩
  exact (Stmt.tokensOf_nodesOfAll function.body).trans (hbody.sublist.filterMap _).subperm

/-- Each node of some functions has a kept token of its own. -/
theorem FunctionDecl.tokensOf_nodesOfAll (ended : Bool) (functions : List FunctionDecl) :
    (Expr.tokensOf (functions.flatMap fun function => Stmt.nodesOfAll function.body)).Subperm
      (keptOf (traceTo ended functions).pieces) := by
  induction functions with
  | nil => exact List.nil_subperm
  | cons function functions ih =>
    rw [traceTo_cons, List.flatMap_cons, Expr.tokensOf_append]
    simp only [Trace.pieces_append, keptOf_append]
    exact (function.tokensOf_nodes.trans (List.sublist_append_left _ _).subperm).append ih

/-- Each node of a program has a kept token of its own. -/
theorem Program.tokensOf_nodes (program : Program) (front : Nat) (ended : Bool) :
    (Expr.tokensOf program.nodes).Subperm (keptOf (program.trace front ended).pieces) := by
  rw [trace, Trace.pieces_append, Trace.pieces_append, ← List.append_assoc, keptOf_append]
  exact (FunctionDecl.tokensOf_nodesOfAll ended program.functions).trans
    (List.sublist_append_right _ _).subperm

/-! ## The warnings of a parse -/

/-- The operators that a parse warns about are those of the tree. -/
theorem Program.warnings_trace (program : Program) (front : Nat) (ended : Bool) :
    (program.trace front ended).warnings = Expr.unsafeOperators program.nodes := by
  simp [trace, Trace.variableLines, FunctionDecl.traceTo, FunctionDecl.traceAll, nodes,
    Expr.unsafeOperators, List.filter_flatMap, List.map_flatMap]

section

variable {source : String} {tokens : List Token} {program : Program} {s' : State}

/-- The nodes of a program that is read from a source are known by tokens of different numbers. -/
theorem nodup_index_nodes (htokens : tokenize source = .ok tokens) {reporter : Reporter}
    (h : ReadsProgram (.ofTokens tokens reporter) program s') :
    (program.nodes.map (·.token.index)).Nodup := by
  obtain ⟨front, ended, hreads⟩ := h.reads
  obtain ⟨kept, hperm, hsublist⟩ := program.tokensOf_nodes front ended
  have hkept : kept.Sublist tokens := hsublist.trans hreads.lead.keptOf_sublist
  have hnodup : (kept.map (·.index)).Nodup :=
    (nodup_index_tokenize htokens).sublist (hkept.map _)
  have hnodes := (hperm.map (·.index)).nodup_iff.mp hnodup
  rwa [Expr.tokensOf, List.map_map] at hnodes

/-- A parse that ends in a program warns about the binary nodes with an address as an operand, about
each of them once, at its operator, and in the order of a walk through the program that comes to a
node after its operands. Nothing else is reported, be it to a new reporter or in a check. -/
theorem warnings_of_parse (htokens : tokenize source = .ok tokens)
    (h : Grammar.program.run (.ofTokens tokens .empty) = .ok program s') :
    s'.reporter.diagnostics =
        (program.nodes.filter (·.isUnsafe)).map (fun node => .ofOperator node.token) ∧
      ((program.nodes.filter (·.isUnsafe)).map (·.token.index)).Nodup ∧
        check source = .ok ⟨tokens, some program, s'.reporter.diagnostics⟩ := by
  have hprogram := program_reads rfl h
  have hnodup := nodup_index_nodes htokens hprogram
  have hunsafe : ((program.nodes.filter (·.isUnsafe)).map (·.token.index)).Nodup :=
    hnodup.sublist (List.filter_sublist.map _)
  obtain ⟨front, ended, hreads⟩ := hprogram.reads
  refine ⟨?_, hunsafe, ?_⟩
  · have hreporter : s'.reporter = Reporter.empty.warnAll (Expr.unsafeOperators program.nodes) := by
      rw [← program.warnings_trace front ended]
      exact congrArg State.reporter hreads.state_eq
    have hdistinct : ((Expr.unsafeOperators program.nodes).map (·.index)).Nodup := by
      rwa [Expr.unsafeOperators, List.map_map]
    rw [hreporter]
    refine (Reporter.diagnostics_reportAll_empty hdistinct).trans ?_
    rw [Expr.unsafeOperators, List.map_map]
    rfl
  · have hknown := (hprogram.success htokens).known
    have hnone : Reporter.empty.reportUnrecognized tokens = .empty := by
      have hfilter : tokens.filter (·.kind = .unrecognized) = [] := by
        simpa [List.filter_eq_nil_iff] using hknown
      rw [Reporter.reportUnrecognized, hfilter]
      rfl
    rw [check, htokens]
    simp only [Analysis.ofTokens, hnone, h]

/-- Of two operators with an address the one that binds tighter is warned about first. -/
theorem warnings_of_parse_nested : ∃ tokens program s',
    tokenize "fun init() \x7b\nvar a\na: a + 1 * a\n\x7d" = .ok tokens ∧
      Grammar.program.run (.ofTokens tokens .empty) = .ok program s' ∧
        s'.reporter.diagnostics.map (·.start) = [(2, 9), (2, 5)] ∧
          s'.reporter.diagnostics =
            (program.nodes.filter (·.isUnsafe)).map (fun node => .ofOperator node.token) := by
  have htokens := tokenize_eq "fun init() \x7b\nvar a\na: a + 1 * a\n\x7d"
  have hok : Grammar.reaches
      (fun _ s' => s'.reporter.diagnostics.map (·.start) = [((2 : Int), (9 : Int)), (2, 5)])
      (Grammar.program.run (.ofTokens
        (Token.significant (scan "fun init() \x7b\nvar a\na: a + 1 * a\n\x7d").tokens) .empty)) =
          true := by decide +kernel
  obtain ⟨program, s', h, hstarts⟩ := Grammar.exists_ok_of_reaches hok
  exact ⟨_, program, s', htokens, h, of_decide_eq_true hstarts, (warnings_of_parse htokens h).1⟩

end

end Tranquility
