import Tranquility.Proofs.Bounds.Nesting
import Tranquility.Proofs.Reading.Expression
import Tranquility.Proofs.Tree.Unambiguous

/-!
# The tree of an expression

An expression that the grammar yields is the only one that its tokens can be read as: it writes the
tokens that have been read, it has the shape that the precedence and the associativity of the
operators ask for, and no other tree of this shape writes these tokens. It ends where no binary
operator follows.
-/

namespace Tranquility

open Grammar

namespace Grammar

variable {s s' : State} {expr : Expr}

/-- The tokens that have been read stand in front of those that are left. -/
theorem Reads.exists_written {trace : Trace} (h : Reads s trace s') : ∃ written,
    s.rest = written ++ s'.rest ∧ s'.position = s.position + written.length ∧
      List.Forall₂ Piece.Fits trace.pieces written := by
  have hfits := h.lead.forall₂
  have hlength := hfits.length_eq
  refine ⟨s.rest.take trace.pieces.length, ?_, ?_, hfits⟩
  · rw [h.state_eq]
    exact (List.take_append_drop _ _).symm
  · rw [h.state_eq, ← hlength]
    rfl

/-- What a state sees is no operator if it sees one of no level. -/
theorem ofKind?_eq_none (h : ∀ level, s.seesOperator level = false) :
    Level.ofKind? s.current.kind = none := by
  cases hlevel : Level.ofKind? s.current.kind with
  | none => rfl
  | some level =>
    have hsees : s.seesOperator level = true :=
      List.contains_iff_mem.mpr (Level.mem_operators_iff.mpr hlevel)
    rw [h level] at hsees
    cases hsees

end Grammar

/-- From whatever state an expression is read, it writes the tokens that have been read one by one.
At every operator in it the left operand binds at least as tightly and the right one more tightly,
nothing binary stands in parentheses or after an operator in front, and of the trees of this shape
it is the only one that writes these tokens, types aside. What follows is not a binary operator of
any level. -/
theorem expression_canonical {s s' : State} {expr : Expr}
    (h : expression.run s = .ok expr s') : ∃ written,
    s.rest = written ++ s'.rest ∧ s'.position = s.position + written.length ∧
      List.Forall₂ Piece.Fits expr.pieces written ∧ expr.Shaped ∧
        (∀ other : Expr, other.Shaped → List.Forall₂ Piece.Fits other.pieces written →
          other.untyped = expr.untyped) ∧
            Level.ofKind? s'.current.kind = none := by
  have hread := expression_yields s expr s' h
  obtain ⟨written, hrest, hposition, hfits⟩ := hread.reads.exists_written
  have hshaped := hread.legal.shaped
  exact ⟨written, hrest, hposition, hfits, hshaped,
    fun other hother hwritten => Expr.untyped_eq_of_forall₂ hother hshaped hwritten hfits,
    ofKind?_eq_none (expression_ends h)⟩

/-- Subtractions one after the other are read from the left, and the loosest operator is the
outermost one, up to a comma. -/
theorem expression_canonical_subtractions : ∃ expr s' written,
    expression.run (.ofTokens (Token.significant (scan "1 - 2 - -3 * (4) ^ 5, 6").tokens) .empty) =
      .ok expr s' ∧ expr.rank = Level.xor.rank ∧ s'.position = 12 ∧
        s'.position = 0 + written.length ∧ List.Forall₂ Piece.Fits expr.pieces written ∧
          expr.Shaped ∧ ∀ other : Expr, other.Shaped →
            List.Forall₂ Piece.Fits other.pieces written → other.untyped = expr.untyped := by
  have hok : Grammar.reaches (fun expr s' => expr.rank = Level.xor.rank ∧ s'.position = 12)
      (expression.run (.ofTokens
        (Token.significant (scan "1 - 2 - -3 * (4) ^ 5, 6").tokens) .empty)) = true := by
    decide +kernel
  obtain ⟨expr, s', h, htest⟩ := Grammar.exists_ok_of_reaches hok
  obtain ⟨hrank, hend⟩ := of_decide_eq_true htest
  obtain ⟨written, _, hposition, hfits, hshaped, hunique, _⟩ := expression_canonical h
  exact ⟨expr, s', written, h, hrank, hend, hposition, hfits, hshaped, hunique⟩

end Tranquility
