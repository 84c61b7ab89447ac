import Tranquility.Proofs.Tree.Types
import Tranquility.Proofs.Typing.Origin

/-!
# Types of what has been read

In a program that the grammar reads, the type that every node keeps is the one that its tokens and
its parts give it. Where operands are refused, the two trees that the parse has made for the
operator give types that do not go together, and wherever a parse makes two such trees, it refuses
them.
-/

namespace Tranquility

namespace Grammar

variable {level : Level} {operator : Token} {left right : Expr} {s s' : State}

/-- Both operands of an operator give the types that they keep. -/
theorem Combines.derivedType? (h : Combines level s operator left right s') :
    operator.kind ∈ level.operators ∧ left.derivedType? = some left.type ∧
      right.derivedType? = some right.type := by
  obtain ⟨front, more, operator_read, right_read⟩ := h
  exact ⟨(reads_operator more operator_read).1, front.reads.legal.derivedType?,
    (level.operandRule_yields _ _ _ right_read).legal.derivedType?⟩

end Grammar

open Grammar

/-- In a program that the grammar reads, every node has the type that its tokens and its parts give
it, and the operands of every binary node give types that go together. Whatever part of the grammar
is run, and from whatever state: if it ends in a violation whose message says that something cannot
be done, then it has come to a level where the token at fault has got its two operands, and these
give types that do not go together. And if it comes to a level where an operator gets its two
operands, they give types, and if these do not go together it ends in that violation, at the
operator and with nothing read after the right operand. -/
theorem types_of_parse :
    (∀ (tokens : List Token) (reporter : Reporter) (program : Program) (s' : State),
      Grammar.program.run (.ofTokens tokens reporter) = .ok program s' →
        ∀ node ∈ program.nodes, node.derivedType? = some node.type ∧
          ∀ operator left right type, node = .binary operator left right type →
            left.derivedType? = some left.type ∧ right.derivedType? = some right.type ∧
              Ty.operandsMatch left.type right.type = true) ∧
    (∀ (part : Part) (s s' : State) (error : TokenError), part.Fails s (.violation error) s' →
      "Cannot ".toList <+: error.message.toList →
        ∃ level t left right l r, Descends part s (.expression level) t ∧
          Combines level t error.token left right s' ∧
            error.token.kind ∈ level.operators ∧ left.derivedType? = some l ∧
              right.derivedType? = some r ∧ Ty.operandsMatch l r = false ∧
                error = ⟨error.token, .operandTypes l r, .error⟩) ∧
    ∀ (part : Part) (s t s' : State) (level : Level) (operator : Token) (left right : Expr),
      Descends part s (.expression level) t → Combines level t operator left right s' →
        operator.kind ∈ level.operators ∧ ∃ l r, left.derivedType? = some l ∧
          right.derivedType? = some r ∧ (Ty.operandsMatch l r = false →
            part.Fails s (.violation ⟨operator, .operandTypes l r, .error⟩) s' ∧
              "Cannot ".toList <+: ((Violation.operandTypes l r).message operator).toList) := by
  refine ⟨?_, ?_, ?_⟩
  · intro tokens reporter program s' h node hnode
    have htyped := (program_reads rfl h).functions.typed
    refine ⟨program.closed_nodes.derivedType? htyped hnode, ?_⟩
    rintro operator left right type rfl
    exact program.closed_nodes.operandsMatch htyped hnode
  · intro part s s' error h hcannot
    obtain ⟨level, t, operator, left, right, hdescends, hcombines, hmatch, herror⟩ :=
      h.exists_combines ⟨error, rfl, hcannot⟩
    obtain ⟨hoperator, hleft, hright⟩ := hcombines.derivedType?
    cases herror
    exact ⟨level, t, left, right, _, _, hdescends, hcombines, hoperator, hleft, hright, hmatch, rfl⟩
  · intro part s t s' level operator left right hdescends hcombines
    obtain ⟨hoperator, hleft, hright⟩ := hcombines.derivedType?
    refine ⟨hoperator, _, _, hleft, hright, fun hmatch => ⟨?_, ?_⟩⟩
    · exact hdescends.fails (hcombines.fails hmatch)
    · exact Violation.cannot_operandTypes operator _ _

/-- A comparison of a sum is read, with its type; a string and an integer are refused at the
operator between them, after a group has passed on the type of the string. -/
theorem types_of_parse_group :
    (∃ tokens program s' node,
      tokenize "fun f() \x7b\n(1) + 'a' < 2\n\x7d" = .ok tokens ∧
        Grammar.program.run (.ofTokens tokens .empty) = .ok program s' ∧
          node ∈ program.nodes ∧ node.type = .boolean ∧ node.derivedType? = some .boolean) ∧
    ∃ tokens operator s' level t left right,
      tokenize "fun f() \x7b\n1 ^ (\"a\") + 2 * 3\n\x7d" = .ok tokens ∧
        Descends .program (.ofTokens tokens .empty) (.expression level) t ∧
          Combines level t operator left right s' ∧ operator.kind ∈ level.operators ∧
            left.derivedType? = some .string ∧ right.derivedType? = some .integer ∧
              Part.program.Fails (.ofTokens tokens .empty)
                (.violation ⟨operator, .operandTypes .string .integer, .error⟩) s' ∧
                (Violation.operandTypes .string .integer).message operator =
                  "Cannot add a string to an integer" := by
  constructor
  · have htokens := tokenize_eq "fun f() \x7b\n(1) + 'a' < 2\n\x7d"
    have hok : reaches (fun program _ => program.nodes.any (·.type = .boolean))
        (Grammar.program.run (.ofTokens (Token.significant (scan
          "fun f() \x7b\n(1) + 'a' < 2\n\x7d").tokens) .empty)) = true := by decide +kernel
    obtain ⟨program, s', h, hnodes⟩ := exists_ok_of_reaches hok
    obtain ⟨node, hnode, htype⟩ := List.any_eq_true.mp hnodes
    have htype := of_decide_eq_true htype
    have hderived := (types_of_parse.1 _ _ program s' h node hnode).1
    rw [htype] at hderived
    exact ⟨_, program, s', node, htokens, h, hnode, htype, hderived⟩
  · have htokens := tokenize_eq "fun f() \x7b\n1 ^ (\"a\") + 2 * 3\n\x7d"
    have hfails : refuses (fun error _ => decide (error.violation = .operandTypes .string .integer ∧
          error.message = "Cannot add a string to an integer"))
        (Grammar.program.run (.ofTokens (Token.significant (scan
          "fun f() \x7b\n1 ^ (\"a\") + 2 * 3\n\x7d").tokens) .empty)) = true := by decide +kernel
    obtain ⟨error, s', h, htest⟩ := exists_violation_of_refuses hfails
    obtain ⟨hviolation, hmessage⟩ := of_decide_eq_true htest
    have hcannot : "Cannot ".toList <+: error.message.toList := by
      rw [hmessage]
      decide
    obtain ⟨level, t, left, right, l, r, hdescends, hcombines, _, hleft, hright, hmatch, herror⟩ :=
      types_of_parse.2.1 .program _ s' error h hcannot
    obtain ⟨hoperator, l', r', hleft', hright', hrefused⟩ :=
      types_of_parse.2.2 .program _ t s' level error.token left right hdescends hcombines
    -- The types told from the trees are those of the violation.
    obtain rfl : l' = l := Option.some.inj (hleft'.symm.trans hleft)
    obtain rfl : r' = r := Option.some.inj (hright'.symm.trans hright)
    obtain ⟨rfl, rfl⟩ : l' = .string ∧ r' = .integer := by
      rw [herror] at hviolation
      exact Violation.operandTypes.inj hviolation
    rw [TokenError.message, hviolation] at hmessage
    exact ⟨_, error.token, s', level, t, left, right, htokens, hdescends, hcombines, hoperator,
      hleft, hright, (hrefused hmatch).1, hmessage⟩

end Tranquility
