import Tranquility.Proofs.Parallel.Step

/-!
# Expressions side by side

The two runs of an expression read trees that are the same without places, and warn at operators
that go together. Nothing in an expression changes the scopes, so any property of them is kept.
-/

namespace Tranquility

/-- The expressions are the same without the places of their tokens. -/
def Expr.Like (expr expr' : Expr) : Prop :=
  expr.bare = expr'.bare

namespace Grammar

variable {pairing : Pairing} {keeps : Scopes → Prop} {a b : Token} {operand : Rule Expr}

/-! ## Operands -/

/-- Strings that go together have one text, and so the same escapes. -/
theorem checkText_parallel (h : pairing.token a b) :
    Parallel pairing keeps (fun _ _ => True) (checkText a) (checkText b) := by
  rw [checkText, checkText, ← pairing.kind_eq h]
  by_cases hstring : a.kind = .string
  · have hinner : inner a = inner b := by
      rw [inner, inner, pairing.text_eq h (by rw [hstring]; decide)]
    rw [if_pos hstring, if_pos hstring, checkEscapes, checkEscapes, hinner]
    split
    case h_1 => exact .pure trivial
    case h_2 => exact .reject h _
    case h_3 => exact fun _ _ hstate => .error (.truncated h) hstate
  · rw [if_neg hstring, if_neg hstring]
    exact .pure trivial

/-- Newlines are no literals. -/
theorem ne_newline_of_literalType? {kind : Kind} {type : Ty} (h : literalType? kind = some type) :
    kind ≠ .newline := by
  rintro rfl
  cases h

/-- Side by side two literals of one kind and text are read. -/
theorem literal_parallel : Parallel pairing keeps Expr.Like literal literal := by
  intro s t h
  rw [literal, run_observe_bind, run_observe_bind, ← h.kind_eq]
  cases htype : literalType? s.current.kind with
  | none => exact .error (.violation h.current .expectedLiteral .error) h
  | some type =>
    refine (take_ends h (isPlain_of_literalType? htype)).bind fun a b ⟨htoken, hcurrent⟩ => ?_
    have hbare : a.bare = b.bare :=
      pairing.bare_eq htoken (ne_newline_of_literalType? (hcurrent ▸ htype))
    exact (checkText_parallel htoken).bind fun _ _ _ => .pure (congrArg (Expr.literal · type) hbare)

/-- A name is visible on both sides or on neither. -/
theorem reference_parallel : Parallel pairing keeps Expr.Like reference reference := by
  refine (expect_parallel rfl).bind fun a b ⟨htoken, hkind⟩ => ?_
  have hnewline : a.kind ≠ .newline := by rw [hkind]; decide
  rw [pairing.text_eq htoken hnewline]
  refine .observe (fun s t h => h.hasVariable_eq b.text) fun visible => ?_
  exact (Parallel.require htoken visible _).bind fun _ _ _ =>
    .pure (congrArg Expr.reference (pairing.bare_eq htoken hnewline))

/-- An operator in front is read on both sides, and the operands side by side. -/
theorem prefixed_parallel {kind : Kind} {node : Token → Expr → Expr}
    (hplain : kind.isPlain = true) (hnewline : kind ≠ .newline)
    (hnode : ∀ token expr, (node token expr).bare = node token.bare expr.bare)
    (hop : Parallel pairing keeps Expr.Like operand operand) :
    Parallel pairing keeps Expr.Like (prefixed kind node operand)
      (prefixed kind node operand) := by
  refine (expect_parallel hplain).bind fun a b ⟨htoken, hkind⟩ => ?_
  refine hop.bind fun content content' hcontent => .pure ?_
  rw [Expr.Like, hnode, hnode, pairing.bare_eq htoken (hkind ▸ hnewline), hcontent]

/-- Both sides have something in their parentheses or neither has. -/
theorem parenthesised_parallel (hop : Parallel pairing keeps Expr.Like operand operand) :
    Parallel pairing keeps Expr.Like (parenthesised operand) (parenthesised operand) := by
  refine (expect_parallel rfl).bind fun a b ⟨htoken, hkind⟩ => ?_
  have hbare : a.bare = b.bare := pairing.bare_eq htoken (by rw [hkind]; decide)
  refine .observe (fun _ _ h => h.sees_eq .rightParen) fun _ => .ite ?_ ?_
  · exact (skip_parallel rfl).bind fun _ _ _ => .pure (congrArg Expr.unit hbare)
  · refine hop.bind fun content content' hcontent => ?_
    refine (skip_parallel rfl).bind fun _ _ _ => .pure ?_
    rw [Expr.Like, Expr.bare, Expr.bare, hbare, hcontent, Expr.type_eq hcontent]

/-- A name means a function of the same number of arguments on both sides. -/
theorem call_parallel {argument : Rule Expr}
    (hargument : Parallel pairing keeps Expr.Like argument argument) :
    Parallel pairing keeps Expr.Like (call argument) (call argument) := by
  refine (expect_parallel rfl).bind fun a b ⟨htoken, hkind⟩ s t h => ?_
  have hnewline : a.kind ≠ .newline := by rw [hkind]; decide
  rw [run_observe_bind, run_observe_bind, pairing.text_eq htoken hnewline]
  rcases h.findFunction?_cases b.text with ⟨hs, ht⟩ | ⟨function, function', hs, ht, harity⟩
  · rw [hs, ht]
    exact .error (.violation htoken .undefinedFunction .error) h
  · rw [hs, ht]
    refine Parallel.bind (skip_parallel rfl) (fun _ _ _ => ?_) s t h
    refine (unlessAt_parallel .rightParen (commaSeparated_parallel hargument)).bind
      fun arguments arguments' harguments => ?_
    rw [harity, harguments.length_eq]
    refine (Parallel.require htoken _ _).bind fun _ _ _ => ?_
    refine (skip_parallel rfl).bind fun _ _ _ => .pure ?_
    rw [Expr.Like, Expr.bare, Expr.bare, pairing.bare_eq htoken hnewline,
      Expr.bareAll_eq harguments]

/-! ## Binary operators -/

/-- A warning that is new on one side is new on the other. -/
theorem warn_parallel (h : pairing.token a b) (hnewline : a.kind ≠ .newline)
    (hend : a.kind ≠ .endOfInput) (message : String) :
    Parallel pairing keeps (fun _ _ => True) (warn a message) (warn b message) :=
  fun _ _ hstate => .ok trivial
    { hstate with reporter := hstate.reporter.report h hnewline hend message .warning }

/-- Operands of the same types are combined or refused alike. -/
theorem combine_parallel (level : Level) (h : pairing.token a b) (hnewline : a.kind ≠ .newline)
    (hend : a.kind ≠ .endOfInput) {left left' right right' : Expr} (hleft : left.Like left')
    (hright : right.Like right') :
    Parallel pairing keeps Expr.Like (combine level a left right)
      (combine level b left' right') := by
  rw [combine, combine, Expr.type_eq hleft, Expr.type_eq hright]
  refine (Parallel.require h _ _).bind fun _ _ _ => ?_
  refine Parallel.bind (.ite (warn_parallel h hnewline hend _) (.pure trivial)) fun _ _ _ => ?_
  refine .pure ?_
  rw [Expr.Like, Expr.bare, Expr.bare, pairing.bare_eq h hnewline, hleft, hright]

/-- Neither a newline nor the end of the input is an operator. -/
theorem Level.ne_of_mem {level : Level} {kind : Kind} (h : kind ∈ level.operators) :
    kind ≠ .newline ∧ kind ≠ .endOfInput := by
  constructor
  · rintro rfl
    cases level <;> simp [operators] at h
  · rintro rfl
    cases level <;> simp [operators] at h

/-- Operands of a level are read side by side, as long as the operators are. -/
theorem chain_parallel (level : Level) (hop : Parallel pairing keeps Expr.Like operand operand) :
    Parallel pairing keeps Expr.Like (chain level operand) (chain level operand) := by
  refine hop.bind fun first first' hfirst =>
    whilst_parallel (fun _ _ h => h.seesOperator_eq level) ?_ hfirst
  intro left left' hleft s t h hround
  have hkind : s.current.kind ∈ level.operators := List.contains_iff_mem.mp hround
  refine (take_ends h (Level.isPlain_of_mem hkind)).bind fun a b ⟨htoken, hcurrent⟩ => ?_
  obtain ⟨hnewline, hend⟩ := Level.ne_of_mem (hcurrent ▸ hkind)
  exact hop.bind fun right right' hright =>
    combine_parallel level htoken hnewline hend hleft hright

theorem climb_parallel (hop : Parallel pairing keeps Expr.Like operand operand)
    (levels : List Level) :
    Parallel pairing keeps Expr.Like (climb operand levels) (climb operand levels) := by
  induction levels with
  | nil => exact hop
  | cons level tighter ih => exact chain_parallel level ih

/-! ## Expressions -/

/-- The kind of the current token chooses the same operand on both sides. -/
theorem operandOver_parallel (hop : Parallel pairing keeps Expr.Like operand operand) :
    Parallel pairing keeps Expr.Like (operandOver operand) (operandOver operand) := by
  refine .observeCurrent fun a b htoken => ?_
  rw [pairing.kind_eq htoken]
  split
  case h_1 =>
    exact .observe (fun _ _ h => h.seesNext_eq .leftParen) fun _ =>
      .ite (call_parallel (climb_parallel hop Level.all)) reference_parallel
  case h_2 => exact literal_parallel
  case h_3 => exact literal_parallel
  case h_4 => exact literal_parallel
  case h_5 => exact parenthesised_parallel hop
  case h_6 => exact prefixed_parallel rfl (by decide) (fun _ _ => rfl) hop
  case h_7 => exact prefixed_parallel rfl (by decide) (fun _ _ => rfl) hop
  case h_8 => exact prefixed_parallel rfl (by decide) (fun _ _ => rfl) hop
  case h_9 => exact .reject htoken .expectedExpression

/-- Operands are read side by side within any depth. -/
theorem operandWithin_parallel (depth : Nat) :
    Parallel pairing keeps Expr.Like (operandWithin depth) (operandWithin depth) := by
  induction depth with
  | zero => exact .observeCurrent fun _ _ htoken => .reject htoken .expectedExpression
  | succ depth ih => exact operandOver_parallel ih

/-- As many tokens are left on both sides, so that operands are nested within the same depth. -/
theorem operand_parallel : Parallel pairing keeps Expr.Like Grammar.operand Grammar.operand :=
  .observe (fun _ _ h => congrArg (· + 1) h.length_eq) operandWithin_parallel

theorem expression_parallel : Parallel pairing keeps Expr.Like expression expression :=
  climb_parallel operand_parallel Level.xor.andTighter

end Grammar

end Tranquility
