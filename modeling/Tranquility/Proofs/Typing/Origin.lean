import Tranquility.Proofs.Typing.Message

/-!
# Where operands are refused

An error that says that something cannot be done with two operands comes from an operator whose
operands have been read, and from nowhere else. Each part fails with such an error only in a part
that it enters, or where it combines two operands of a level. The descent from the part that fails
to the level that refuses the operands comes to an end, as every descent does.
-/

namespace Tranquility.Grammar

/-- Where operands of a level start at a state, an operator gets its operands: what has been
combined in front of it, and what is read after it up to another state. -/
inductive Combines (level : Level) (s : State) (operator : Token) (left right : Expr)
    (s' : State) : Prop where
  | intro {t t' : State} (front : Builds level s left t) (more : t.seesOperator level = true)
    (operator_read : take.run t = .ok operator t')
    (right_read : level.operandRule.run t' = .ok right s')

section

variable {level : Level} {operator : Token} {left right : Expr} {s s' : State}

/-- The round that reads an operator and its right operand ends as their combination does. -/
theorem Combines.exists_round (h : Combines level s operator left right s') :
    ∃ t, Builds level s left t ∧ t.seesOperator level = true ∧
      (chainRound level level.operandRule left).run t =
        (combine level operator left right).run s' := by
  obtain ⟨front, more, operator_read, right_read⟩ := h
  refine ⟨_, front, more, ?_⟩
  rw [chainRound, EStateM.run_bind, operator_read]
  show (level.operandRule >>= _).run _ = _
  rw [EStateM.run_bind, right_read]

/-- Operands whose types do not go together are refused, with nothing read after the right one. -/
theorem Combines.fails (h : Combines level s operator left right s')
    (hmatch : Ty.operandsMatch left.type right.type = false) : (Part.expression level).Fails s
      (.violation ⟨operator, .operandTypes left.type right.type, .error⟩) s' := by
  obtain ⟨t, front, more, hround⟩ := h.exists_round
  refine front.run_error more ?_
  rw [hround]
  exact run_combine_error.mpr ⟨hmatch, rfl, rfl⟩

end

/-- An error of a part comes from a part that it enters, or from operands that it combines. -/
inductive Stems : Part → State → Error → State → Prop where
  | entered {p q : Part} {s t s' : State} {e : Error} (enters : Enters p s q t)
    (fails : q.Fails t e s') : Stems p s e s'
  | combined {level : Level} {operator : Token} {left right : Expr} {s s' : State}
    (operands : Combines level s operator left right s')
    (mismatch : Ty.operandsMatch left.type right.type = false) :
    Stems (.expression level) s
      (.violation ⟨operator, .operandTypes left.type right.type, .error⟩) s'

variable {s s' : State} {e : Error}

/-- Outside its functions a program says nothing of the kind. -/
theorem program_stems (h : Part.program.Fails s e s') (hcannot : e.SaysCannot) :
    Stems .program s e s' := by
  rw [Part.Fails, program_eq] at h
  rcases run_bind_error.mp h with h | ⟨globals, s₁, front, h⟩
  · exact mute_preamble.elim h hcannot
  rcases run_bind_error.mp h with h | ⟨functions, s₂, _, h⟩
  · obtain ⟨t, item, h⟩ := run_functions_error h
    exact .entered (.function front item) h
  rw [run_observe_bind, run_observe_bind] at h
  have hmute : Mute (require s₂.atEnd s₂.current .expectedFunction) := .require rfl _ _
  exact (hmute.bind fun _ => .pure (Program.mk globals functions)).elim h hcannot

/-- A body that ends with a right brace fails in one of its statements. -/
theorem unlessAt_body_error (h : (unlessAt .rightBrace body).run s = .error e s') :
    s.sees .rightBrace = false ∧ ∃ t, StatementAt s t ∧ statement.run t = .error e s' := by
  rw [unlessAt, run_observe_bind] at h
  split at h
  case isTrue => exact absurd h run_pure_error
  case isFalse hmore =>
    exact ⟨Bool.eq_false_iff.mpr hmore, run_body_error h⟩

/-- Outside its statements a function says nothing of the kind. -/
theorem function_stems (h : Part.function.Fails s e s') (hcannot : e.SaysCannot) :
    Stems .function s e s' := by
  rw [Part.Fails, function_eq] at h
  rcases run_bind_error.mp h with h | ⟨head, s₁, front, h⟩
  · exact mute_functionHead.elim h hcannot
  rcases run_bind_error.mp h with h | ⟨_, s₂, _, h⟩
  · rcases run_bind_error.mp h with h | ⟨locals, s₃, lines, h⟩
    · exact mute_variableLines.elim h hcannot
    rcases run_bind_error.mp h with h | ⟨_, s₄, _, h⟩
    · obtain ⟨more, t, item, h⟩ := unlessAt_body_error h
      exact .entered (.body front lines more item) h
    · exact ((mute_skip .rightBrace).bind fun _ => .pure _).elim h hcannot
  · exact (mute_functionEnd.bind fun _ => .pure _).elim h hcannot

/-! ## Statements -/

/-- Outside its condition an `until` statement says nothing of the kind. -/
theorem untilStatement_stems (h : untilStatement.run s = .error e s') (hcannot : e.SaysCannot) :
    Stems .statement s e s' := by
  rcases run_bind_error.mp h with h | ⟨token, s₁, keyword, h⟩
  · exact (mute_expectKeyword _).elim h hcannot
  rcases run_bind_error.mp h with h | ⟨_, s₂, mark, h⟩
  · exact mute_markLoop.elim h hcannot
  rcases run_bind_error.mp h with h | ⟨condition, s₃, _, h⟩
  · exact .entered (.untilCondition keyword mark) h
  · exact ((mute_skip .newline).bind fun _ => .pure _).elim h hcannot

/-- Outside its statements a loop says nothing of the kind. -/
theorem loop_stems (h : loop.run s = .error e s') (hcannot : e.SaysCannot) :
    Stems .statement s e s' := by
  rw [loop_eq] at h
  rcases run_bind_error.mp h with h | ⟨head, s₁, front, h⟩
  · exact mute_loopHead.elim h hcannot
  rcases run_bind_error.mp h with h | ⟨body, s₂, _, h⟩
  · obtain ⟨more, t, item, h⟩ := unlessAt_body_error h
    exact .entered (.loopBody front more item) h
  · exact (mute_loopEnd _ _ _).elim h hcannot

/-- Outside its value a `return` statement says nothing of the kind. -/
theorem resultStatement_stems (h : resultStatement.run s = .error e s')
    (hcannot : e.SaysCannot) : Stems .statement s e s' := by
  rcases run_bind_error.mp h with h | ⟨token, s₁, keyword, h⟩
  · exact (mute_expectKeyword _).elim h hcannot
  rw [run_observe_bind] at h
  split at h
  case isTrue => exact ((mute_skip .newline).bind fun _ => .pure _).elim h hcannot
  case isFalse more =>
    rcases run_bind_error.mp h with h | ⟨value, s₂, _, h⟩
    · exact .entered (.result keyword (Bool.eq_false_iff.mpr more)) h
    · exact ((mute_skip .newline).bind fun _ => .pure _).elim h hcannot

/-- Outside its sides an assignment says nothing of the kind. -/
theorem simpleStatement_stems (plain : s.current.kind ≠ .keyword)
    (h : simpleStatement.run s = .error e s') (hcannot : e.SaysCannot) :
    Stems .statement s e s' := by
  rcases run_bind_error.mp h with h | ⟨value, s₁, front, h⟩
  · exact .entered (.target plain) h
  rw [run_observe_bind] at h
  split at h
  case isTrue =>
    rcases run_bind_error.mp h with h | ⟨token, s₂, colon, h⟩
    · exact (mute_expect _).elim h hcannot
    rcases run_bind_error.mp h with h | ⟨stored, s₃, _, h⟩
    · exact .entered (.stored plain front colon) h
    · exact ((mute_skip .newline).bind fun _ => .pure _).elim h hcannot
  case isFalse =>
    have hmute : Mute (do
        if ← observe (·.sees .newline) then
          skip .newline
          return Stmt.expression value
        else
          reject (← observe State.current) .expectedStatement) :=
      .observe fun _ => .ite ((mute_skip .newline).bind fun _ => .pure _)
        (.observe fun token => .reject rfl token)
    exact hmute.elim h hcannot

/-- A statement says what the part that its first token chooses says. -/
theorem statement_stems (h : Part.statement.Fails s e s') (hcannot : e.SaysCannot) :
    Stems .statement s e s' := by
  rw [Part.Fails, statement_eq, statementOver, run_observe_bind] at h
  split at h
  case isTrue hkind =>
    split at h
    case h_1 htext =>
      have keyword : s.seesKeyword "if" = true := by
        simp [State.seesKeyword, Token.isKeyword, hkind, htext]
      exact .entered (.conditional keyword) (run_map_error.mp h)
    case h_2 => exact untilStatement_stems h hcannot
    case h_3 => exact loop_stems h hcannot
    case h_4 => exact resultStatement_stems h hcannot
    case h_5 => exact (Mute.reject rfl s.current).elim h hcannot
  case isFalse plain => exact simpleStatement_stems plain h hcannot

/-! ## Conditionals -/

/-- A braced body fails in one of its statements. -/
theorem braced_error {kind : ScopeKind} (h : (braced kind statement).run s = .error e s')
    (hcannot : e.SaysCannot) : ∃ t, BlockAt kind s t ∧ statement.run t = .error e s' := by
  rcases run_bind_error.mp h with h | ⟨_, s₁, brace, h⟩
  · exact (mute_openScope _).elim h hcannot
  rcases run_bind_error.mp h with h | ⟨_, s₂, newline, h⟩
  · exact (mute_skip _).elim h hcannot
  rcases run_bind_error.mp h with h | ⟨stmts, s₃, _, h⟩
  · obtain ⟨t, item, h⟩ := run_body_error h
    exact ⟨t, ⟨brace, newline, item⟩, h⟩
  · have hmute := (mute_skip .rightBrace).bind fun _ => (mute_skip .newline).bind fun _ =>
      Mute.pure stmts
    exact hmute.elim h hcannot

/-- A conditional says what its condition, its statements or what is chained to it say. -/
theorem conditional_stems (h : Part.conditional.Fails s e s') (hcannot : e.SaysCannot) :
    Stems .conditional s e s' := by
  rw [Part.Fails, conditional_eq, conditionalStep_eq] at h
  rcases run_bind_error.mp h with h | ⟨head, s₁, front, h⟩
  · rcases run_bind_error.mp h with h | ⟨token, s₂, keyword, h⟩
    · exact (mute_expectKeyword _).elim h hcannot
    rcases run_bind_error.mp h with h | ⟨condition, s₃, front, h⟩
    · exact .entered (.condition keyword) h
    rcases run_bind_error.mp h with h | ⟨body, s₄, _, h⟩
    · obtain ⟨t, item, h⟩ := braced_error h hcannot
      exact .entered (.branch keyword front item) h
    · exact absurd h run_pure_error
  rw [run_observe_bind] at h
  split at h
  case isFalse => exact absurd h run_pure_error
  case isTrue =>
    rcases run_bind_error.mp h with h | ⟨_, s₂, keyword, h⟩
    · exact (mute_skipKeyword _).elim h hcannot
    rw [run_observe_bind] at h
    split at h
    case isTrue more =>
      rcases run_bind_error.mp h with h | ⟨next, s₃, _, h⟩
      · exact .entered (.chained front keyword more) h
      · exact absurd h run_pure_error
    case isFalse last =>
      rcases run_bind_error.mp h with h | ⟨alternative, s₃, _, h⟩
      · obtain ⟨t, item, h⟩ := braced_error h hcannot
        exact .entered (.alternative front keyword (Bool.eq_false_iff.mpr last) item) h
      · exact absurd h run_pure_error

/-! ## Expressions -/

/-- A level says what its operands say, and its own word where it combines them. -/
theorem expression_stems {level : Level} (h : (Part.expression level).Fails s e s')
    (hcannot : e.SaysCannot) : Stems (.expression level) s e s' := by
  rcases run_expressionFrom_error h with h | ⟨left, t, front, more, h⟩
  · exact .entered (.first level) ((level.fails_inside s e s').mpr h)
  rcases run_bind_error.mp h with h | ⟨operator, t', operator_read, h⟩
  · exact (mute_advance _ _ _).elim h hcannot
  rcases run_bind_error.mp h with h | ⟨right, s₁, right_read, h⟩
  · exact .entered (.right front more operator_read) ((level.fails_inside t' e s').mpr h)
  obtain ⟨mismatch, rfl, rfl⟩ := run_combine_error.mp h
  exact .combined ⟨front, more, operator_read, right_read⟩ mismatch

/-- An operator in front says what its operand says, whatever the types. -/
theorem prefixed_stems {kind : Kind} {node : Token → Expr → Expr}
    (unary : kind ∈ [.dot, .minus, .bitwiseNot])
    (h : (prefixed kind node operand).run s = .error e s') (hcannot : e.SaysCannot) :
    Stems .operand s e s' := by
  rcases run_bind_error.mp h with h | ⟨token, s₁, operator, h⟩
  · exact (mute_expect _).elim h hcannot
  rcases run_bind_error.mp h with h | ⟨content, s₂, _, h⟩
  · exact .entered (.prefixed unary operator) h
  · exact absurd h run_pure_error

/-- A group says what its content says. -/
theorem parenthesised_stems (h : (parenthesised operand).run s = .error e s')
    (hcannot : e.SaysCannot) : Stems .operand s e s' := by
  rcases run_bind_error.mp h with h | ⟨token, s₁, paren, h⟩
  · exact (mute_expect _).elim h hcannot
  rw [run_observe_bind] at h
  split at h
  case isTrue => exact ((mute_skip .rightParen).bind fun _ => .pure _).elim h hcannot
  case isFalse more =>
    rcases run_bind_error.mp h with h | ⟨content, s₂, _, h⟩
    · exact .entered (.content paren (Bool.eq_false_iff.mpr more)) h
    · exact ((mute_skip .rightParen).bind fun _ => .pure _).elim h hcannot

/-- A call says what its arguments say, whatever their types. -/
theorem call_stems (called : s.seesNext .leftParen = true)
    (h : (call expression).run s = .error e s') (hcannot : e.SaysCannot) :
    Stems .operand s e s' := by
  rcases run_bind_error.mp h with h | ⟨name, s₁, front, h⟩
  · exact (mute_expect _).elim h hcannot
  rw [run_observe_bind] at h
  split at h
  case h_1 => exact (Mute.reject rfl name).elim h hcannot
  case h_2 function visible =>
    rcases run_bind_error.mp h with h | ⟨_, s₂, paren, h⟩
    · exact (mute_skip _).elim h hcannot
    rcases run_bind_error.mp h with h | ⟨arguments, s₃, _, h⟩
    · rw [unlessAt, run_observe_bind] at h
      split at h
      case isTrue => exact absurd h run_pure_error
      case isFalse more =>
        obtain ⟨t, item, h⟩ | ⟨t, h⟩ := run_listOf_error h
        · exact .entered
            (.argument called front visible paren (Bool.eq_false_iff.mpr more) item) h
        · exact (mute_skip _).elim h hcannot
    · have hmute : Mute (require (function.arity == arguments.length) name
          (.argumentCount function.arity arguments.length)) := .require rfl _ name
      have hrest := (mute_skip .rightParen).bind fun _ => Mute.pure (Expr.call name arguments)
      exact (hmute.bind fun _ => hrest).elim h hcannot

/-- An operand says what is said inside it. -/
theorem operand_stems (h : Part.operand.Fails s e s') (hcannot : e.SaysCannot) :
    Stems .operand s e s' := by
  rw [Part.Fails, operand_eq, operandOver, run_observe_bind] at h
  split at h
  case h_1 =>
    rw [run_observe_bind] at h
    split at h
    case isTrue called => exact call_stems called h hcannot
    case isFalse => exact mute_reference.elim h hcannot
  case h_2 => exact mute_literal.elim h hcannot
  case h_3 => exact mute_literal.elim h hcannot
  case h_4 => exact mute_literal.elim h hcannot
  case h_5 => exact parenthesised_stems h hcannot
  case h_6 => exact prefixed_stems (by decide) h hcannot
  case h_7 => exact prefixed_stems (by decide) h hcannot
  case h_8 => exact prefixed_stems (by decide) h hcannot
  case h_9 => exact (Mute.reject rfl s.current).elim h hcannot

/-! ## Descents -/

/-- Whatever a part says cannot be done, it says it where it combines operands or enters a part. -/
theorem Part.Fails.stems {p : Part} (h : p.Fails s e s') (hcannot : e.SaysCannot) :
    Stems p s e s' := by
  cases p with
  | program => exact program_stems h hcannot
  | function => exact function_stems h hcannot
  | statement => exact statement_stems h hcannot
  | conditional => exact conditional_stems h hcannot
  | expression level => exact expression_stems h hcannot
  | operand => exact operand_stems h hcannot

/-- A part says that something cannot be done only of operands that a level combines, with types
that do not go together, where the part descends to the level. -/
theorem Part.Fails.exists_combines {p : Part} (h : p.Fails s e s') (hcannot : e.SaysCannot) :
    ∃ level t operator left right, Descends p s (.expression level) t ∧
      Combines level t operator left right s' ∧
        Ty.operandsMatch left.type right.type = false ∧
          e = .violation ⟨operator, .operandTypes left.type right.type, .error⟩ := by
  -- A part that is entered fails with the same error in the same state, and it is further down.
  induction hplace : (p, s) using wellFounded_enters.induction generalizing p s with
  | h place ih =>
    subst hplace
    cases h.stems hcannot with
    | entered enters fails =>
      obtain ⟨level, u, operator, left, right, descends, hcombines⟩ := ih _ enters fails rfl
      exact ⟨level, u, operator, left, right, .enter enters descends, hcombines⟩
    | combined operands mismatch =>
      exact ⟨_, s, _, _, _, .here _ s, operands, mismatch, rfl⟩

end Tranquility.Grammar
