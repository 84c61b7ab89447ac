import Tranquility.Proofs.Grammar.Trace

/-!
# Traces of trees

The trace of every node is that of its parts, joined in the order in which a rule of the grammar
reads them. These equations are what ties the shape of a rule to the shape of the node that it
yields.
-/

namespace Tranquility

open Grammar

/-- The kind is one of those that the language names. -/
def Kind.isKnown : Kind → Bool
  | .other _ => false
  | _ => true

/-- A token of the kind can be read, moves between no scopes and is known to the language. -/
def Kind.isPlain (kind : Kind) : Bool :=
  kind ≠ .leftBrace && kind ≠ .rightBrace && kind ≠ .unrecognized && kind ≠ .endOfInput &&
    kind.isKnown

/-- The kinds that are not plain are braces, what the language does not know, and the end of the
input. -/
theorem Kind.isPlain_iff {kind : Kind} : kind.isPlain = true ↔
    kind ≠ .leftBrace ∧ kind ≠ .rightBrace ∧ kind ≠ .unrecognized ∧ kind ≠ .endOfInput ∧
      kind.isKnown = true := by
  simp [isPlain, and_assoc]

namespace Piece

/-- Another item comes after a comma, if there is one already. -/
theorem separated_concat {items : List (List Piece)} (h : items ≠ []) (item : List Piece) :
    separated (items ++ [item]) = separated items ++ mark .comma :: item := by
  induction items with
  | nil => exact absurd rfl h
  | cons first items ih =>
    cases items with
    | nil => simp [separated, List.intercalate_cons_cons, List.intercalate_singleton]
    | cons second items =>
      have hrest := ih (List.cons_ne_nil _ _)
      simp only [separated, List.cons_append, List.intercalate_cons_cons] at hrest ⊢
      rw [hrest]
      simp

/-- Every item but the first comes after a comma. -/
theorem separated_cons (first : List Piece) (items : List (List Piece)) :
    separated (first :: items) = first ++ items.flatMap fun item => mark .comma :: item := by
  induction items generalizing first with
  | nil => simp [separated, List.intercalate_singleton]
  | cons next items ih =>
    have hrest := ih next
    simp only [separated, List.intercalate_cons_cons, List.flatMap_cons] at hrest ⊢
    rw [hrest]
    simp

end Piece

/-- The trace of an expression. -/
def Expr.trace (expr : Expr) : Trace :=
  ⟨expr.pieces, unsafeOperators expr.nodes, id⟩

/-- The trace of some statements. -/
def Stmt.traceAll (stmts : List Stmt) : Trace :=
  ⟨piecesOfAll stmts, Expr.unsafeOperators (nodesOfAll stmts), settleAll stmts⟩

/-- The trace of a statement. -/
def Stmt.trace (stmt : Stmt) : Trace :=
  ⟨stmt.pieces, Expr.unsafeOperators stmt.nodes, stmt.settle⟩

/-- The trace of a conditional with what is chained to it. -/
def Conditional.trace (conditional : Conditional) : Trace :=
  ⟨conditional.pieces, Expr.unsafeOperators conditional.nodes, conditional.settle⟩

namespace Grammar

/-- The trace of items with commas between them that leave the scopes alone. -/
def Trace.separated (traces : List Trace) : Trace :=
  ⟨Piece.separated (traces.map (·.pieces)), traces.flatMap (·.warnings), id⟩

/-- One more item comes after a comma. -/
theorem Trace.separated_concat {traces : List Trace} {trace : Trace} (hne : traces ≠ [])
    (hsettle : trace.settle = id) :
    Trace.separated (traces ++ [trace]) =
      Trace.separated traces ++ (.ofPiece (.mark .comma) ++ trace) := by
  obtain ⟨pieces, warnings, settle⟩ := trace
  obtain rfl : settle = id := hsettle
  have hpieces : traces.map (·.pieces) ≠ [] := by simpa using hne
  refine Trace.ext ?_ ?_ rfl
  · simp [Piece.separated_concat hpieces, Trace.separated, Trace.ofPiece]
  · simp [Trace.separated, Trace.ofPiece]

/-- The trace of items with a comma in front of each that leave the scopes alone. -/
def Trace.following (traces : List Trace) : Trace :=
  ⟨traces.flatMap fun trace => .mark .comma Kind.isMark_comma :: trace.pieces,
    traces.flatMap (·.warnings), id⟩

/-- Items with a comma in front of each start with a comma. -/
theorem Trace.following_cons {trace : Trace} (hsettle : trace.settle = id) (traces : List Trace) :
    Trace.following (trace :: traces) =
      .ofPiece (.mark .comma) ++ trace ++ Trace.following traces := by
  obtain ⟨pieces, warnings, settle⟩ := trace
  obtain rfl : settle = id := hsettle
  exact Trace.ext rfl rfl rfl

/-- Of items with commas between them the first has no comma in front. -/
theorem Trace.separated_cons {trace : Trace} (hsettle : trace.settle = id) (traces : List Trace) :
    Trace.separated (trace :: traces) = trace ++ Trace.following traces := by
  obtain ⟨pieces, warnings, settle⟩ := trace
  obtain rfl : settle = id := hsettle
  refine Trace.ext ?_ rfl rfl
  rw [separated, List.map_cons, Piece.separated_cons, List.flatMap_map]
  rfl

/-- The trace of statements in braces. -/
def Trace.block (kind : ScopeKind) (body : List Stmt) : Trace :=
  ⟨Piece.block (Stmt.piecesOfAll body), Expr.unsafeOperators (Stmt.nodesOfAll body),
    fun scopes => (Stmt.settleAll body (scopes.opened kind)).closed⟩

/-- Statements in braces are read brace by brace, with a newline behind each. -/
theorem Trace.block_eq (kind : ScopeKind) (body : List Stmt) : Trace.block kind body =
    .opened kind ++ (.ofPiece (.mark .newline) ++
      (Stmt.traceAll body ++ (.closed ++ .ofPiece (.mark .newline)))) := by
  refine Trace.ext rfl ?_ rfl
  simp [Trace.block, Trace.opened, Trace.ofPiece, Trace.closed, Stmt.traceAll]

end Grammar

/-! ## Expressions -/

/-- The traces of expressions have the pieces of each. -/
theorem Expr.map_pieces (exprs : List Expr) :
    (exprs.map trace).map (·.pieces) = piecesOfEach exprs := by
  induction exprs with
  | nil => rfl
  | cons expr exprs ih => exact congrArg _ ih

/-- The traces of expressions warn about the operators of all their nodes. -/
theorem Expr.flatMap_warnings (exprs : List Expr) :
    (exprs.map trace).flatMap (·.warnings) = unsafeOperators (nodesOfAll exprs) := by
  induction exprs with
  | nil => rfl
  | cons expr exprs ih =>
    rw [List.map_cons, List.flatMap_cons, nodesOfAll, unsafeOperators_append, ih]
    rfl

/-- A node that is warned about has its warning after those of its parts. -/
theorem Expr.unsafeOperators_concat (nodes : List Expr) {node : Expr}
    (h : node.isUnsafe = false) : unsafeOperators (nodes ++ [node]) = unsafeOperators nodes := by
  rw [unsafeOperators_append, unsafeOperators_singleton, h]
  exact List.append_nil _

/-- A call is read as its name, and then its arguments in parentheses. -/
theorem Expr.trace_call (name : Token) (arguments : List Expr) :
    (call name arguments).trace =
      .ofPiece (.keep .identifier name) ++ (.ofPiece (.mark .leftParen) ++
        (.separated (arguments.map trace) ++ .ofPiece (.mark .rightParen))) := by
  refine Trace.ext ?_ ?_ rfl
  · simp [trace, pieces, Trace.ofPiece, Trace.separated, ← map_pieces]
  · simp [trace, nodes, unsafeOperators_singleton, isUnsafe, Trace.ofPiece, Trace.separated,
      ← flatMap_warnings]

/-- A group is read as what stands in its parentheses, between them. -/
theorem Expr.trace_group (token : Token) (content : Expr) (type : Ty) :
    (group token content type).trace =
      .ofPiece (.keep .leftParen token) ++ (content.trace ++ .ofPiece (.mark .rightParen)) := by
  refine Trace.ext rfl ?_ rfl
  simp [trace, nodes, unsafeOperators_singleton, isUnsafe, Trace.ofPiece]

/-- The operator of a binary expression is warned about after its operands. -/
theorem Expr.trace_binary (operator : Token) (left right : Expr) (type : Ty) :
    (binary operator left right type).trace =
      (left.trace ++ (.ofPiece (.keep operator.kind operator) ++ right.trace)).warned
        (unsafeOperators [.binary operator left right type]) := by
  refine Trace.ext rfl ?_ rfl
  simp [trace, nodes, Trace.ofPiece, Trace.warned]

namespace Grammar

/-- A kind of node that has an operator in front of an operand. -/
structure PrefixNode (kind : Kind) (node : Token → Expr → Expr) : Prop where
  isPlain : kind.isPlain = true
  pieces : ∀ token expr, (node token expr).pieces = .keep kind token :: expr.pieces
  nodes : ∀ token expr, (node token expr).nodes = expr.nodes ++ [node token expr]
  isUnsafe : ∀ token expr, (node token expr).isUnsafe = false
  rank : ∀ token expr, (node token expr).rank = operandRank
  sound : ∀ visible token expr, (node token expr).Sound visible ↔ expr.rank = operandRank

/-- A dot in front makes a node for what an address leads to. -/
theorem prefixNode_dereference : PrefixNode .dot .dereference :=
  ⟨rfl, fun _ _ => rfl, fun _ _ => rfl, fun _ _ => rfl, fun _ _ => rfl,
    fun _ _ _ => ⟨(·.canonical), fun h => ⟨trivial, h, trivial, trivial⟩⟩⟩

theorem prefixNode_negation : PrefixNode .minus .negation :=
  ⟨rfl, fun _ _ => rfl, fun _ _ => rfl, fun _ _ => rfl, fun _ _ => rfl,
    fun _ _ _ => ⟨(·.canonical), fun h => ⟨trivial, h, trivial, trivial⟩⟩⟩

theorem prefixNode_complement : PrefixNode .bitwiseNot .complement :=
  ⟨rfl, fun _ _ => rfl, fun _ _ => rfl, fun _ _ => rfl, fun _ _ => rfl,
    fun _ _ _ => ⟨(·.canonical), fun h => ⟨trivial, h, trivial, trivial⟩⟩⟩

/-- An operator in front is read before its operand. -/
theorem PrefixNode.trace {kind : Kind} {node : Token → Expr → Expr} (h : PrefixNode kind node)
    (token : Token) (expr : Expr) :
    (node token expr).trace = .ofPiece (.keep kind token) ++ expr.trace := by
  refine Trace.ext (h.pieces token expr) ?_ rfl
  rw [Expr.trace, h.nodes, Expr.unsafeOperators_concat _ (h.isUnsafe token expr)]
  rfl

end Grammar

/-! ## Statements -/

namespace Stmt

theorem piecesOfAll_concat (stmts : List Stmt) (stmt : Stmt) :
    piecesOfAll (stmts ++ [stmt]) = piecesOfAll stmts ++ stmt.pieces := by
  induction stmts with
  | nil => simp [piecesOfAll]
  | cons first stmts ih => simp [piecesOfAll, ih]

theorem nodesOfAll_concat (stmts : List Stmt) (stmt : Stmt) :
    nodesOfAll (stmts ++ [stmt]) = nodesOfAll stmts ++ stmt.nodes := by
  induction stmts with
  | nil => simp [nodesOfAll]
  | cons first stmts ih => simp [nodesOfAll, ih]

/-- Statements are complete if all but the last are and the last one is. -/
theorem allComplete_concat {stmts : List Stmt} {stmt : Stmt} :
    AllComplete (stmts ++ [stmt]) ↔ AllComplete stmts ∧ stmt.Complete := by
  induction stmts with
  | nil => simp [AllComplete]
  | cons first stmts ih => simp [AllComplete, ih, and_assoc]

theorem traceAll_cons (stmt : Stmt) (stmts : List Stmt) :
    traceAll (stmt :: stmts) = stmt.trace ++ traceAll stmts :=
  Grammar.Trace.ext rfl (Expr.unsafeOperators_append _ _) rfl

theorem traceAll_concat (stmts : List Stmt) (stmt : Stmt) :
    traceAll (stmts ++ [stmt]) = traceAll stmts ++ stmt.trace := by
  refine Grammar.Trace.ext (piecesOfAll_concat stmts stmt) ?_ ?_
  · rw [traceAll, nodesOfAll_concat, Expr.unsafeOperators_append]
    rfl
  · funext scopes
    exact settleAll_append stmts [stmt] scopes

end Stmt

/-- A loop is read as its keyword and a block. -/
theorem Stmt.trace_loop (token : Token) (body : List Stmt) :
    (loop token body).trace = .ofPiece (.keepKeyword "loop" token) ++ .block .loop body := rfl

/-- The mark on the loop is set between the keyword and the condition. -/
theorem Stmt.trace_until (token : Token) (condition : Expr) :
    (Stmt.until token condition).trace =
      .ofPiece (.keepKeyword "until" token) ++ (.settled Scopes.markLoop ++
        (condition.trace ++ .ofPiece (.mark .newline))) := by
  refine Trace.ext rfl ?_ rfl
  simp [trace, nodes, Expr.trace, Trace.ofPiece, Trace.settled]

/-- A value that is returned comes after the keyword. -/
theorem Stmt.trace_result_some (token : Token) (value : Expr) :
    (result token (some value)).trace =
      .ofPiece (.keepKeyword "return" token) ++ (value.trace ++ .ofPiece (.mark .newline)) := by
  refine Trace.ext rfl ?_ rfl
  simp [trace, nodes, Expr.trace, Trace.ofPiece]

theorem Stmt.trace_result_none (token : Token) : (result token none).trace =
    .ofPiece (.keepKeyword "return" token) ++ .ofPiece (.mark .newline) := rfl

/-- An assignment is read as its two sides with a colon between them. -/
theorem Stmt.trace_assignment (colon : Token) (target value : Expr) :
    (assignment colon target value).trace = target.trace ++ (.ofPiece (.keep .colon colon) ++
      (value.trace ++ .ofPiece (.mark .newline))) := by
  refine Trace.ext ?_ ?_ rfl
  · simp [trace, pieces, Expr.trace, Trace.ofPiece]
  · simp [trace, nodes, Expr.trace, Trace.ofPiece]

/-- An expression is read with the newline behind it. -/
theorem Stmt.trace_expression (value : Expr) :
    (expression value).trace = value.trace ++ .ofPiece (.mark .newline) := by
  refine Trace.ext rfl ?_ rfl
  simp [trace, nodes, Expr.trace, Trace.ofPiece]

namespace Conditional

/-- The trace of the head of a conditional. -/
def headTrace (token : Token) (condition : Expr) (body : List Stmt) : Trace :=
  .ofPiece (.keepKeyword "if" token) ++ (condition.trace ++ .block .ifBranch body)

/-- A conditional without `else` is its head. -/
theorem trace_only (token : Token) (condition : Expr) (body : List Stmt) :
    (only token condition body).trace = headTrace token condition body := by
  refine Trace.ext rfl ?_ rfl
  simp [trace, headTrace, nodes, Trace.ofPiece, Trace.block, Expr.trace]

theorem trace_otherwise (token : Token) (condition : Expr) (body alternative : List Stmt) :
    (otherwise token condition body alternative).trace = headTrace token condition body ++
      (.ofPiece (.keyword "else") ++ .block .elseBranch alternative) := by
  refine Trace.ext ?_ ?_ rfl
  · simp [trace, headTrace, pieces, Trace.ofPiece, Trace.block, Expr.trace]
  · simp [trace, headTrace, nodes, Trace.ofPiece, Trace.block, Expr.trace]

theorem trace_chained (token : Token) (condition : Expr) (body : List Stmt) (next : Conditional) :
    (chained token condition body next).trace = headTrace token condition body ++
      (.ofPiece (.keyword "else") ++ next.trace) := by
  refine Trace.ext ?_ ?_ rfl
  · simp [trace, headTrace, pieces, Trace.ofPiece, Trace.block, Expr.trace]
  · simp [trace, headTrace, nodes, Trace.ofPiece, Trace.block, Expr.trace]

/-- After the head of a conditional the same is visible as in front of it. -/
theorem passes_head {scopes : Scopes} (hv : scopes.Valid) (token : Token) (condition : Expr)
    (body : List Stmt) :
    Scopes.Passes false scopes ((headTrace token condition body).settle scopes) :=
  (Stmt.passes_all body (hv.opened .ifBranch)).block hv

end Conditional

/-! ## Programs -/

namespace Grammar

/-- The trace of names with commas between them. -/
def Trace.names (tokens : List Token) : Trace :=
  .separated (tokens.map fun token => .ofPiece (.keep .identifier token))

/-- The trace of a line that declares variables. -/
def Trace.variableLine (tokens : List Token) : Trace :=
  ⟨Piece.variableLine tokens, [], Scopes.declared tokens⟩

/-- The trace of lines that declare variables. -/
def Trace.variableLines (lines : List (List Token)) : Trace :=
  ⟨lines.flatMap Piece.variableLine, [], Scopes.declared lines.flatten⟩

/-- Names are written out with commas between them. -/
theorem Trace.pieces_names (tokens : List Token) :
    (Trace.names tokens).pieces = Piece.names tokens := by
  simp [Trace.names, Trace.separated, Piece.names, Trace.ofPiece, Function.comp_def]

theorem Trace.warnings_names (tokens : List Token) : (Trace.names tokens).warnings = [] := by
  induction tokens with
  | nil => rfl
  | cons token tokens ih => exact ih

/-- The names of a line are declared in front of its newline. -/
theorem Trace.variableLine_eq (tokens : List Token) : Trace.variableLine tokens =
    .ofPiece (.keyword "var") ++ (.names tokens ++
      (.settled (Scopes.declared tokens) ++ .ofPiece (.mark .newline))) := by
  refine Trace.ext ?_ ?_ rfl
  · simp [Trace.variableLine, Piece.variableLine, pieces_names, Trace.ofPiece, Trace.settled]
  · simp [Trace.variableLine, warnings_names, Trace.ofPiece, Trace.settled]

theorem Trace.variableLines_cons (line : List Token) (lines : List (List Token)) :
    Trace.variableLines (line :: lines) = .variableLine line ++ .variableLines lines := by
  refine Trace.ext rfl rfl ?_
  funext scopes
  exact Scopes.declared_append line lines.flatten scopes

theorem Trace.variableLines_nil : Trace.variableLines [] = .settled id :=
  Trace.ext rfl rfl (funext Scopes.declared_nil)

theorem Trace.variableLines_concat (lines : List (List Token)) (line : List Token) :
    Trace.variableLines (lines ++ [line]) = Trace.variableLines lines ++ .variableLine line := by
  refine Trace.ext ?_ rfl ?_
  · simp [Trace.variableLines, Trace.variableLine]
  · funext scopes
    simp [Trace.variableLines, Trace.variableLine, Scopes.declared_append]

end Grammar

namespace FunctionDecl

/-- The trace of a function, up to its closing brace. -/
def trace (function : FunctionDecl) : Trace :=
  ⟨function.pieces, Expr.unsafeOperators (Stmt.nodesOfAll function.body), function.settle⟩

/-- The trace of functions with a newline after each. -/
def traceAll (functions : List FunctionDecl) : Trace where
  pieces := piecesOfAll functions
  warnings := functions.flatMap fun function =>
    Expr.unsafeOperators (Stmt.nodesOfAll function.body)
  settle scopes := functions.foldl (fun scopes function => function.settle scopes) scopes

/-- The trace of the head of a function, up to the newline after its left brace. -/
def headTrace (function : FunctionDecl) : Trace :=
  .ofPiece (.keyword "fun") ++ (.ofPiece (.keep .identifier function.token) ++
    (.ofPiece (.mark .leftParen Kind.isMark_leftParen) ++ (.names function.parameters ++
      (.ofPiece (.mark .rightParen Kind.isMark_rightParen) ++ (.opened .function ++
        (.settled (·.declareFunction function.symbol 0) ++
          (.settled (Scopes.declared function.parameters) ++
            .ofPiece (.mark .newline Kind.isMark_newline))))))))

/-- The trace of what stands in a function after its head, up to its right brace. -/
def insideTrace (locals : List (List Token)) (body : List Stmt) : Trace :=
  .variableLines locals ++ (Stmt.traceAll body ++ .closed)

/-- A function is read as its head and what stands inside. -/
theorem trace_eq (function : FunctionDecl) :
    function.trace = function.headTrace ++ insideTrace function.locals function.body := by
  refine Trace.ext ?_ ?_ rfl
  · simp [trace, pieces, headTrace, insideTrace, Trace.pieces_names, Trace.ofPiece, Trace.opened,
      Trace.settled, Trace.variableLines, Stmt.traceAll, Trace.closed]
  · simp [trace, headTrace, insideTrace, Trace.warnings_names, Trace.ofPiece, Trace.opened,
      Trace.settled, Trace.variableLines, Stmt.traceAll, Trace.closed]

theorem traceAll_concat (functions : List FunctionDecl) (function : FunctionDecl) :
    traceAll (functions ++ [function]) =
      traceAll functions ++ (function.trace ++ .ofPiece (.mark .newline)) := by
  refine Grammar.Trace.ext ?_ ?_ ?_
  · simp [traceAll, piecesOfAll, trace, Trace.ofPiece]
  · simp [traceAll, trace, Trace.ofPiece]
  · funext scopes
    simp [traceAll, trace, Trace.ofPiece]

/-- The trace of functions that may go without the newline after the last of them. -/
def traceTo (ended : Bool) (functions : List FunctionDecl) : Trace :=
  { traceAll functions with
    pieces := if ended then piecesOfAll functions else (piecesOfAll functions).dropLast }

/-- With its last newline a list of functions has one after each. -/
theorem traceTo_true (functions : List FunctionDecl) :
    traceTo true functions = traceAll functions := rfl

end FunctionDecl

/-- The trace of a newline that may be missing. -/
def Grammar.Trace.ending (ended : Bool) : Trace :=
  ⟨if ended then [.mark .newline Kind.isMark_newline] else [], [], id⟩

theorem FunctionDecl.traceTo_nil (ended : Bool) : traceTo ended [] = .settled id := by
  cases ended <;> rfl

/-- Only the last function can do without a newline. -/
theorem FunctionDecl.traceTo_cons (ended : Bool) (function : FunctionDecl)
    (functions : List FunctionDecl) : traceTo ended (function :: functions) =
      function.trace ++ .ending (ended || !functions.isEmpty) ++ traceTo ended functions := by
  refine Grammar.Trace.ext ?_ ?_ rfl
  · cases ended with
    | true => simp [traceTo, traceAll, piecesOfAll, trace, Trace.ending]
    | false =>
      cases functions with
      | nil => simp [traceTo, traceAll, piecesOfAll, trace, Trace.ending]
      | cons next functions =>
        have hne : piecesOfAll (next :: functions) ≠ [] := by simp [piecesOfAll, pieces]
        have hsplit : piecesOfAll (function :: next :: functions) =
            function.pieces ++ [.mark .newline] ++ piecesOfAll (next :: functions) := rfl
        simp [traceTo, traceAll, hsplit, List.dropLast_append_of_ne_nil,
          List.dropLast_cons_of_ne_nil hne, trace, Trace.ending]
  · simp [traceTo, traceAll, trace, Trace.ending]

/-- Only the newline after the last function may be missing. -/
theorem FunctionDecl.traceTo_concat (ended : Bool) (functions : List FunctionDecl)
    (function : FunctionDecl) : traceTo ended (functions ++ [function]) =
      traceAll functions ++ (function.trace ++ .ending ended) := by
  cases ended with
  | true => exact traceAll_concat functions function
  | false =>
    refine Grammar.Trace.ext ?_ ?_ ?_
    · simp [traceTo, traceAll, piecesOfAll, trace, Trace.ending, ← List.append_assoc]
    · simp [traceTo, traceAll, trace, Trace.ending]
    · funext scopes
      simp [traceTo, traceAll, trace, Trace.ending]

/-- The trace of a program with some newlines in front, which may go without the one at its end. -/
def Program.trace (program : Program) (front : Nat) (ended : Bool) : Trace :=
  ⟨List.replicate front (.mark .newline Kind.isMark_newline), [], id⟩ ++
    (.variableLines program.globals ++ FunctionDecl.traceTo ended program.functions)

/-- The trace of a program with its newlines in front. -/
theorem Program.pieces_trace (program : Program) (front : Nat) (ended : Bool)
    (hne : program.functions ≠ []) : (program.trace front ended).pieces =
      List.replicate front (.mark .newline) ++
        if ended then program.pieces else program.pieces.dropLast := by
  obtain ⟨functions, last, hfunctions⟩ :=
    List.eq_nil_or_concat program.functions |>.resolve_left hne
  cases ended with
  | true => rfl
  | false =>
    simp [trace, pieces, Trace.variableLines, FunctionDecl.traceTo, FunctionDecl.piecesOfAll,
      hfunctions, ← List.append_assoc]

end Tranquility
