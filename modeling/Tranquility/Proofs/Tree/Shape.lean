import Tranquility.Proofs.Tree.Legal

/-!
# The shape of expressions

A tree has the shape that the grammar gives it if every node needs no parentheses that it does not
have: operators associate to the left, and only operands stand in parentheses or after an operator
in front. Said of the levels one by one, such a tree is a chain on each of them: a first operand
that binds more tightly than the level, and then operators of the level, each with an operand that
binds more tightly as well.
-/

namespace Tranquility

open Grammar Piece

namespace Grammar.Level

/-- No two levels have one rank. -/
theorem rank_injective {level level' : Level} (h : level.rank = level'.rank) :
    level = level' := by
  cases level <;> cases level' <;> simp_all [Level.rank]

/-- Operands bind more tightly than every level. -/
theorem rank_lt (level : Level) : level.rank < operandRank := by
  cases level <;> decide

/-- An operator of a level is no left parenthesis, and no operator of a tighter level. -/
theorem not_tighter_of_ofKind? {kind : Kind} {level : Level} (h : ofKind? kind = some level) :
    kind ≠ .leftParen ∧ ∀ level', ofKind? kind = some level' → level'.rank < level.rank + 1 := by
  constructor
  · rintro rfl
    cases h
  · intro level' hlevel
    rw [h, Option.some.injEq] at hlevel
    rw [hlevel]
    exact Nat.lt_succ_self _

end Grammar.Level

namespace Expr

/-! ## Types aside -/

mutual

/-- An expression without the types that it keeps. -/
def untyped : Expr → Expr
  | .literal token _ => .literal token .any
  | .reference token => .reference token
  | .call token arguments => .call token (untypedAll arguments)
  | .unit token => .unit token
  | .group token content _ => .group token content.untyped .any
  | .dereference token operand => .dereference token operand.untyped
  | .negation token operand => .negation token operand.untyped
  | .complement token operand => .complement token operand.untyped
  | .binary operator left right _ => .binary operator left.untyped right.untyped .any

/-- Expressions without the types that they keep. -/
def untypedAll : List Expr → List Expr
  | [] => []
  | expr :: exprs => expr.untyped :: untypedAll exprs

end

/-- Expressions lose their types one by one. -/
theorem untypedAll_eq_map (exprs : List Expr) : untypedAll exprs = exprs.map untyped := by
  induction exprs with
  | nil => rfl
  | cons expr exprs ih => rw [untypedAll, ih, List.map_cons]

mutual

/-- Types are not written. -/
theorem pieces_untyped : ∀ expr : Expr, expr.untyped.pieces = expr.pieces
  | .literal _ _ => rfl
  | .reference _ => rfl
  | .call _ arguments => by rw [untyped, pieces, pieces, piecesOfEach_untypedAll arguments]
  | .unit _ => rfl
  | .group _ content _ => by rw [untyped, pieces, pieces, content.pieces_untyped]
  | .dereference _ operand => by rw [untyped, pieces, pieces, operand.pieces_untyped]
  | .negation _ operand => by rw [untyped, pieces, pieces, operand.pieces_untyped]
  | .complement _ operand => by rw [untyped, pieces, pieces, operand.pieces_untyped]
  | .binary _ left right _ => by
    rw [untyped, pieces, pieces, left.pieces_untyped, right.pieces_untyped]

/-- Types are not written out. -/
theorem piecesOfEach_untypedAll : ∀ exprs : List Expr,
    piecesOfEach (untypedAll exprs) = piecesOfEach exprs
  | [] => rfl
  | expr :: exprs => by
    rw [untypedAll, piecesOfEach, piecesOfEach, expr.pieces_untyped, piecesOfEach_untypedAll exprs]

end

/-- Expressions that differ in types alone are written in the same way. -/
theorem pieces_eq {expr expr' : Expr} (h : expr.untyped = expr'.untyped) :
    expr.pieces = expr'.pieces := by
  rw [← expr.pieces_untyped, h, expr'.pieces_untyped]

/-! ## Shapes -/

/-- An operator between two operands. -/
def isBinary : Expr → Bool
  | .binary _ _ _ _ => true
  | _ => false

/-- What stands in parentheses or after an operator in front. -/
def enclosed? : Expr → Option Expr
  | .group _ content _ => some content
  | .dereference _ operand | .negation _ operand | .complement _ operand => some operand
  | _ => none

/-- An expression as the grammar would make it of its tokens: a left operand binds at least as
tightly as its operator and a right one more tightly, nothing binary stands in parentheses or after
an operator in front, and literals have tokens of the kinds of literals. -/
structure Shaped (expr : Expr) : Prop where
  binary : ∀ operator left right type, .binary operator left right type ∈ expr.nodes →
    ∃ level, Level.ofKind? operator.kind = some level ∧ level.rank ≤ left.rank ∧
      level.rank < right.rank
  enclosed : ∀ node ∈ expr.nodes, ∀ content ∈ node.enclosed?, content.isBinary = false
  literal : ∀ token type, .literal token type ∈ expr.nodes →
    token.kind ∈ [.integer, .string, .character]

/-- Only operands bind as tightly as operands do. -/
theorem rank_eq_operandRank_iff {expr : Expr} :
    expr.rank = operandRank ↔ expr.isBinary = false := by
  cases expr with
  | binary operator left right type =>
    refine iff_of_false (Nat.ne_of_lt ?_) Bool.noConfusion
    show ((Level.ofKind? operator.kind).map Level.rank).getD 0 < operandRank
    cases Level.ofKind? operator.kind with
    | none => decide
    | some level => exact level.rank_lt
  | _ => exact iff_of_true rfl rfl

/-- An expression is one of its own nodes. -/
theorem self_mem_nodes (expr : Expr) : expr ∈ expr.nodes := by
  cases expr <;> simp [nodes]

/-- A legal expression has the shape that the grammar gives it. -/
theorem Legal.shaped {visible : Visible} {expr : Expr} (h : expr.Legal visible) : expr.Shaped where
  binary _ _ _ _ hnode := (h _ hnode).canonical
  enclosed node hnode content hcontent := by
    have hcanonical := (h node hnode).canonical
    cases node with
    | group | dereference | negation | complement =>
      cases hcontent
      exact rank_eq_operandRank_iff.mp hcanonical
    | _ => cases hcontent
  literal token type hnode := by
    have htyped : literalType? token.kind = some type := (h _ hnode).typed
    cases hkind : token.kind <;> simp_all [literalType?]

namespace Shaped

variable {expr : Expr}

/-- The parts of an expression have their shapes too. -/
theorem part (h : expr.Shaped) {part : Expr} (hpart : part.nodes ⊆ expr.nodes) : part.Shaped where
  binary operator left right type hnode := h.binary operator left right type (hpart hnode)
  enclosed node hnode := h.enclosed node (hpart hnode)
  literal token type hnode := h.literal token type (hpart hnode)

/-- An operator stands on a level, which the left operand binds at least as tightly as, and the
right one more tightly. -/
theorem exists_level {operator : Token} {left right : Expr} {type : Ty}
    (h : (Expr.binary operator left right type).Shaped) :
    ∃ level, Level.ofKind? operator.kind = some level ∧
      (Expr.binary operator left right type).rank = level.rank ∧
        (left.Shaped ∧ level.rank ≤ left.rank) ∧ right.Shaped ∧ level.rank < right.rank := by
  obtain ⟨level, hlevel, hle, hlt⟩ := h.binary operator left right type (self_mem_nodes _)
  refine ⟨level, hlevel, by simp [rank, hlevel], ⟨h.part ?_, hle⟩, h.part ?_, hlt⟩
  · exact fun node hnode => List.mem_append_left _ (List.mem_append_left _ hnode)
  · exact fun node hnode => List.mem_append_left _ (List.mem_append_right _ hnode)

/-- What stands in parentheses or after an operator in front is an operand. -/
theorem operand (h : expr.Shaped) {content : Expr} (hcontent : expr.enclosed? = some content) :
    content.Shaped ∧ content.rank = operandRank := by
  refine ⟨h.part ?_, rank_eq_operandRank_iff.mpr (h.enclosed expr expr.self_mem_nodes _ hcontent)⟩
  intro node hnode
  cases expr with
  | group | dereference | negation | complement =>
    cases hcontent
    exact List.mem_append_left _ hnode
  | _ => cases hcontent

end Shaped

/-! ## How expressions start -/

/-- The kind of token that an expression starts with. -/
def start : Expr → Kind
  | .literal token _ => token.kind
  | .reference _ | .call _ _ => .identifier
  | .unit _ | .group _ _ _ => .leftParen
  | .dereference _ _ => .dot
  | .negation _ _ => .minus
  | .complement _ _ => .bitwiseNot
  | .binary _ left _ _ => left.start

/-- An expression starts with a token of the kind that it is told to start with. -/
theorem exists_piece : ∀ expr : Expr, ∃ piece pieces, expr.pieces = piece :: pieces ∧
    piece.kind = expr.start
  | .literal _ _ => ⟨_, _, rfl, rfl⟩
  | .reference _ => ⟨_, _, rfl, rfl⟩
  | .call _ _ => ⟨_, _, rfl, rfl⟩
  | .unit _ => ⟨_, _, rfl, rfl⟩
  | .group _ _ _ => ⟨_, _, rfl, rfl⟩
  | .dereference _ _ => ⟨_, _, rfl, rfl⟩
  | .negation _ _ => ⟨_, _, rfl, rfl⟩
  | .complement _ _ => ⟨_, _, rfl, rfl⟩
  | .binary operator left right _ => by
    obtain ⟨piece, pieces, hpieces, hkind⟩ := left.exists_piece
    exact ⟨piece, _, by rw [Expr.pieces, hpieces, List.cons_append], hkind⟩

end Expr

/-- An operand may start with a token of the kind. -/
def Kind.startsOperand : Kind → Bool
  | identifier | integer | string | character | leftParen | dot | minus | bitwiseNot => true
  | _ => false

/-- An expression starts with a token that an operand may start with. -/
theorem Expr.Shaped.start : ∀ {expr : Expr}, expr.Shaped → expr.start.startsOperand = true
  | .literal token type, h => by
    have hkind := h.literal token type List.mem_cons_self
    simp only [List.mem_cons, List.not_mem_nil, or_false] at hkind
    show token.kind.startsOperand = true
    rcases hkind with hkind | hkind | hkind <;> rw [hkind] <;> rfl
  | .reference _, _ => rfl
  | .call _ _, _ => rfl
  | .unit _, _ => rfl
  | .group _ _ _, _ => rfl
  | .dereference _ _, _ => rfl
  | .negation _ _, _ => rfl
  | .complement _ _, _ => rfl
  | .binary _ _ _ _, h => by
    obtain ⟨_, _, _, ⟨hleft, _⟩, _⟩ := h.exists_level
    exact hleft.start

namespace Expr

/-- The operands that start with a token of the kind. -/
def OperandFrom (kind : Kind) (expr : Expr) : Prop :=
  match kind with
  | .identifier =>
    (∃ token, expr = .reference token) ∨ ∃ token arguments, expr = .call token arguments
  | .leftParen =>
    (∃ token, expr = .unit token) ∨ ∃ token content type, expr = .group token content type
  | .dot => ∃ token operand, expr = .dereference token operand
  | .minus => ∃ token operand, expr = .negation token operand
  | .bitwiseNot => ∃ token operand, expr = .complement token operand
  | _ => ∃ token type, expr = .literal token type

/-- An operand that starts with a literal is the literal. -/
theorem operandFrom_of_literal {kind : Kind} (h : kind ∈ [Kind.integer, .string, .character])
    (expr : Expr) : OperandFrom kind expr ↔ ∃ token type, expr = .literal token type := by
  simp only [List.mem_cons, List.not_mem_nil, or_false] at h
  rcases h with rfl | rfl | rfl <;> exact Iff.rfl

/-- An operand is one of those that start as it does. -/
theorem Shaped.operandFrom {expr : Expr} (h : expr.Shaped) (hbinary : expr.isBinary = false) :
    OperandFrom expr.start expr := by
  cases expr with
  | literal token type =>
    have hliteral := h.literal token type List.mem_cons_self
    exact (operandFrom_of_literal hliteral _).mpr ⟨token, type, rfl⟩
  | reference token => exact .inl ⟨token, rfl⟩
  | call token arguments => exact .inr ⟨token, arguments, rfl⟩
  | unit token => exact .inl ⟨token, rfl⟩
  | group token content type => exact .inr ⟨token, content, type, rfl⟩
  | dereference token operand => exact ⟨token, operand, rfl⟩
  | negation token operand => exact ⟨token, operand, rfl⟩
  | complement token operand => exact ⟨token, operand, rfl⟩
  | binary operator left right type => cases hbinary

/-! ## Chains -/

/-- Operators with their right operands, one after the other behind a first operand. -/
def chained (first : Expr) (rounds : List (Token × Expr)) : Expr :=
  rounds.foldl (fun left round => .binary round.1 left round.2 .any) first

/-- An expression is a chain on a level: a first operand that binds more tightly, and rounds of an
operator of the level with an operand that binds more tightly. -/
structure Chain (level : Level) (expr first : Expr) (rounds : List (Token × Expr)) : Prop where
  untyped_eq : expr.untyped =
    chained first.untyped (rounds.map fun round => (round.1, round.2.untyped))
  pieces_eq : expr.pieces =
    first.pieces ++ rounds.flatMap fun round => keep round.1.kind round.1 :: round.2.pieces
  shaped : first.Shaped
  rank_lt : level.rank < first.rank
  rounds : ∀ round ∈ rounds, Level.ofKind? round.1.kind = some level ∧ round.2.Shaped ∧
    level.rank < round.2.rank

/-- What binds more tightly than a level is a chain without operators of it. -/
theorem Shaped.chain {level : Level} {expr : Expr} (h : expr.Shaped)
    (hrank : level.rank < expr.rank) : Chain level expr expr [] :=
  ⟨rfl, (List.append_nil _).symm, h, hrank, by simp⟩

/-- What binds at least as tightly as a level is a chain on it: its first operand stands at the left
end of the tree, and each round goes up to the node above. -/
theorem Shaped.exists_chain {level : Level} : ∀ {expr : Expr}, expr.Shaped →
    level.rank ≤ expr.rank → ∃ first rounds, Chain level expr first rounds
  | .binary operator left right type, h, hrank => by
    by_cases htight : level.rank < (Expr.binary operator left right type).rank
    · exact ⟨_, _, h.chain htight⟩
    · obtain ⟨level', hlevel, hself, ⟨hleft, hle⟩, hright, hlt⟩ := h.exists_level
      obtain rfl : level = level' := Level.rank_injective (by omega)
      obtain ⟨first, rounds, hchain⟩ := hleft.exists_chain hle
      refine ⟨first, rounds ++ [(operator, right)], ?_, ?_, hchain.shaped, hchain.rank_lt, ?_⟩
      · rw [untyped, hchain.untyped_eq, List.map_append, chained, chained, List.foldl_append]
        rfl
      · rw [pieces, hchain.pieces_eq, List.flatMap_append, List.append_assoc]
        simp
      · exact List.forall_mem_append.mpr ⟨hchain.rounds,
          List.forall_mem_singleton.mpr ⟨hlevel, hright, hlt⟩⟩
  | .literal _ _, h, _ | .reference _, h, _ | .call _ _, h, _ | .unit _, h, _
  | .group _ _ _, h, _ | .dereference _ _, h, _ | .negation _ _, h, _
  | .complement _ _, h, _ => ⟨_, _, h.chain level.rank_lt⟩

end Expr

end Tranquility
