import Tranquility.Proofs.Bounds.Loop
import Tranquility.Proofs.Grammar.Step

/-!
# Bounds of nesting

Operands, statements and conditionals are nested at most as deep as there are tokens left. Every
level of nesting starts at a later token, so that the bound is never what ends one of these rules:
each reads what it is made of by itself. All loops of the grammar read a token in every round.
-/

namespace Tranquility.Grammar

variable {n : Nat}

/-! ## Expressions -/

section

variable {operand operand' : Rule Expr}

/-- The check of a string reads nothing. -/
theorem agree_checkText (token : Token) : Agree n (checkText token) (checkText token) := by
  refine .ite ?_ (.pure ())
  unfold checkEscapes
  split
  case h_1 => exact .pure ()
  case h_2 => exact .reject token _
  case h_3 => exact ⟨fun _ _ => rfl, fun _ _ _ _ h => by cases h⟩

/-- A literal is one token, so no bound matters to it. -/
theorem agree_literal : AgreeAfter n literal literal := by
  refine .observe _ fun token => ?_
  cases literalType? token.kind with
  | none => exact .reject token _
  | some type =>
    exact .bind (eats_advance _ _ _) fun token => (agree_checkText token).bind fun _ => .pure _

/-- The name of a variable is one token, so no bound matters to it. -/
theorem agree_reference : AgreeAfter n reference reference :=
  .bind (eats_expect .identifier) fun _ => .observe _ fun _ =>
    (Agree.require _ _ _).bind fun _ => .pure _

/-- An operator in front is read before its operand, which so has fewer tokens left. -/
theorem agree_prefixed (kind : Kind) (node : Token → Expr → Expr) (h : Agree n operand operand') :
    AgreeAfter n (prefixed kind node operand) (prefixed kind node operand') :=
  .bind (eats_expect kind) fun _ => h.bind fun _ => .pure _

/-- A left parenthesis is read before what stands inside. -/
theorem agree_parenthesised (h : Agree n operand operand') :
    AgreeAfter n (parenthesised operand) (parenthesised operand') := by
  refine .bind (eats_expect .leftParen) fun _ => .observe _ fun _ => .ite ?_ ?_
  · exact (Agree.of_eats (eats_skip .rightParen)).bind fun _ => .pure _
  · exact h.bind fun _ => (Agree.of_eats (eats_skip .rightParen)).bind fun _ => .pure _

/-- A name is read before the arguments of its call. -/
theorem agree_call {argument argument' : Rule Expr} (h : Agree n argument argument') :
    AgreeAfter n (call argument) (call argument') := by
  refine .bind (eats_expect .identifier) fun name => .observe _ fun function => ?_
  cases function with
  | none => exact .reject name _
  | some function =>
    refine (Agree.of_eats (eats_skip .leftParen)).bind fun _ =>
      (h.commaSeparated.unlessAt .rightParen).bind fun arguments => ?_
    exact (Agree.require _ _ _).bind fun _ =>
      (Agree.of_eats (eats_skip .rightParen)).bind fun _ => .pure _

/-- The node of two operands is made without a token read. -/
theorem agree_combine (level : Level) (operator : Token) (left right : Expr) :
    Agree n (combine level operator left right) (combine level operator left right) := by
  refine (Agree.require _ _ _).bind fun _ => .bind ?_ fun _ => .pure _
  exact .ite (.modified fun _ => rfl) (.pure ())

/-- Operands of a level agree if each of them does, and every round starts with its operator. -/
theorem agree_chain (level : Level) (h : Agree n operand operand') :
    Agree n (chain level operand) (chain level operand') := by
  refine h.bind fun first => .whilst (fun left => ?_) first
  exact (Agree.of_eats (eats_advance _ _ _)).bind fun operator =>
    h.bind fun right => agree_combine level operator left right

/-- Levels agree from the tightest on, up to the one that is asked for. -/
theorem agree_climb (levels : List Level) (h : Agree n operand operand') :
    Agree n (climb operand levels) (climb operand' levels) := by
  induction levels with
  | nil => exact h
  | cons level tighter ih => exact agree_chain level ih

/-- Operands agree where one token more is left than for the operands inside them. -/
theorem agree_operandOver (h : Agree n operand operand') :
    AgreeAfter n (operandOver operand) (operandOver operand') := by
  refine .observe _ fun token => ?_
  generalize token.kind = kind
  cases kind with
  | identifier => exact .observe _ fun _ => .ite (agree_call (agree_climb _ h)) agree_reference
  | integer => exact agree_literal
  | string => exact agree_literal
  | character => exact agree_literal
  | leftParen => exact agree_parenthesised h
  | dot => exact agree_prefixed .dot _ h
  | minus => exact agree_prefixed .minus _ h
  | bitwiseNot => exact agree_prefixed .bitwiseNot _ h
  | _ => exact .reject token _

end

/-- Whatever the levels, an operand is read first. -/
theorem eats_climb (levels : List Level) {operand : Rule Expr} (heats : Eats operand) :
    Eats (climb operand levels) := by
  have hop : ∀ n, Agree n operand operand := fun _ => .of_eats heats
  induction levels with
  | nil => exact heats
  | cons level tighter ih =>
    refine ih.bind fun first n => .whilst (fun left => ?_) first
    exact (Agree.of_eats (eats_advance _ _ _)).bind fun operator =>
      (agree_climb tighter (hop n)).bind fun right => agree_combine level operator left right

/-- Depths that are not less than the number of tokens left come to the same. -/
theorem agree_operandWithin (n : Nat) {depth depth' : Nat} (h : n ≤ depth) (h' : n ≤ depth') :
    Agree n (operandWithin depth) (operandWithin depth') := by
  induction n generalizing depth depth' with
  | zero => exact .zero
  | succ n ih =>
    obtain ⟨depth, rfl⟩ := Nat.exists_eq_add_of_le' h
    obtain ⟨depth', rfl⟩ := Nat.exists_eq_add_of_le' h'
    exact (agree_operandOver (ih (Nat.le_add_left _ _) (Nat.le_add_left _ _))).agree

/-- An operand is nested no deeper than there are tokens left. -/
theorem run_operand (s : State) : operand.run s = (operandWithin (s.rest.length + 1)).run s :=
  run_observe_bind _ _

/-- A depth that is at least the number of tokens left does not matter to an operand. -/
theorem agree_operand {depth : Nat} (h : n ≤ depth) : Agree n (operandWithin depth) operand where
  run_eq s hs := by
    rw [run_operand]
    exact (agree_operandWithin _ (Nat.le_trans hs h) (Nat.le_refl _)).run_eq s (Nat.lt_succ_self _)
  length_le s a s' _ hrun := by
    rw [run_operand] at hrun
    exact (agree_operandWithin _ (Nat.le_refl _) (Nat.le_refl _)).length_le s a s'
      (Nat.lt_succ_self _) hrun

/-- Operands are nested as deep as the tokens ask for. -/
theorem operand_eq : operand = operandOver operand := by
  refine rule_ext fun s => ?_
  rw [run_operand, operandWithin]
  exact (agree_operandOver (agree_operand (Nat.le_refl _))).run_eq s (Nat.le_refl _)

/-- Every operand takes a token. -/
theorem eats_operand : Eats operand := by
  have h : ∀ n, AgreeAfter n (operandOver operand) (operandOver operand) :=
    fun n => agree_operandOver (agree_operand (Nat.le_refl n)).right
  rw [operand_eq]
  exact AgreeAfter.eats h

theorem eats_expression : Eats expression :=
  eats_climb _ eats_operand

/-- After operands on some levels no operator of these levels follows. -/
theorem climb_ends (levels : List Level) {expr : Expr} {s s' : State}
    (h : (climb operand levels).run s = .ok expr s') :
    ∀ level ∈ levels, s'.seesOperator level = false := by
  induction levels generalizing s expr s' with
  | nil => simp
  | cons level tighter ih =>
    obtain ⟨first, s₁, hfirst, h⟩ := run_bind_ok.mp h
    refine List.forall_mem_cons.mpr ⟨continues_eq_false (fun left => ?_) h, ?_⟩
    · exact (eats_advance _ _ _).bind fun operator _ =>
        (Agree.of_eats (eats_climb tighter eats_operand)).bind fun right =>
          agree_combine level operator left right
    · -- Every round ends with an operand, and to combine it with the others reads nothing.
      refine run_whilst_ok (fun _ s => ∀ level ∈ tighter, s.seesOperator level = false) ?_
        (ih hfirst) h
      intro left s₂ expr s₃ _ _ hround
      obtain ⟨operator, s₄, _, hround⟩ := run_bind_ok.mp hround
      obtain ⟨right, s₅, hright, hround⟩ := run_bind_ok.mp hround
      obtain ⟨_, _, rfl⟩ := run_combine_ok.mp hround
      have hends : ∀ level ∈ tighter, s₅.seesOperator level = false := ih hright
      exact hends

/-- After an expression no binary operator follows. -/
theorem expression_ends {expr : Expr} {s s' : State} (h : expression.run s = .ok expr s')
    (level : Level) : s'.seesOperator level = false := by
  refine climb_ends (Level.andTighter .xor) h level ?_
  cases level <;> decide

/-! ## Statements -/

section

variable {statement statement' : Rule Stmt}

/-- Bodies agree if their statements do. -/
theorem agree_bodyOver (h : Agree n statement statement') :
    Agree n (bodyOver statement) (bodyOver statement') :=
  h.bind fun first => .collect h [first]

theorem agree_braced (kind : ScopeKind) (h : Agree n statement statement') :
    Agree n (braced kind statement) (braced kind statement') :=
  (Agree.of_eats (eats_openScope kind)).bind fun _ =>
    (Agree.of_eats (eats_skip .newline)).bind fun _ => (agree_bodyOver h).bind fun _ =>
      (Agree.of_eats (eats_skip .rightBrace)).bind fun _ =>
        (Agree.of_eats (eats_skip .newline)).bind fun _ => .pure _

/-- A conditional reads its keyword before its statements and before what is chained to it. -/
theorem agree_conditionalStep {next next' : Rule Conditional} (h : Agree n statement statement')
    (hnext : Agree n next next') :
    AgreeAfter n (conditionalStep statement next) (conditionalStep statement' next') := by
  refine .bind (eats_expectKeyword "if") fun token => (Agree.of_eats eats_expression).bind
    fun condition => (agree_braced .ifBranch h).bind fun body => .observe _ fun _ =>
      .ite ?_ (.pure _)
  refine (Agree.of_eats (eats_skipKeyword "else")).bind fun _ => .observe _ fun _ => .ite ?_ ?_
  · exact hnext.bind fun _ => .pure _
  · exact (agree_braced .elseBranch h).bind fun _ => .pure _

/-- Depths beyond the number of tokens left do not matter to a conditional. -/
theorem agree_conditionalWithin (n : Nat) (h : Agree n statement statement') {depth depth' : Nat}
    (hd : n < depth) (hd' : n < depth') :
    AgreeAfter n (conditionalWithin statement depth) (conditionalWithin statement' depth') := by
  induction n generalizing depth depth' with
  | zero =>
    obtain ⟨depth, rfl⟩ := Nat.exists_eq_add_of_lt hd
    obtain ⟨depth', rfl⟩ := Nat.exists_eq_add_of_lt hd'
    exact agree_conditionalStep h .zero
  | succ n ih =>
    obtain ⟨depth, rfl⟩ := Nat.exists_eq_add_of_lt hd
    obtain ⟨depth', rfl⟩ := Nat.exists_eq_add_of_lt hd'
    have hnext := ih (h.mono (Nat.le_succ n)) (Nat.lt_add_right depth (Nat.lt_succ_self n))
      (Nat.lt_add_right depth' (Nat.lt_succ_self n))
    exact agree_conditionalStep h hnext.agree

/-- No more conditionals are chained to one than there are tokens left. -/
theorem run_conditionalOver (statement : Rule Stmt) (s : State) :
    (conditionalOver statement).run s = (conditionalWithin statement (s.rest.length + 1)).run s :=
  run_observe_bind _ _

/-- Conditionals agree if their statements do. -/
theorem agree_conditionalOver (h : Agree n statement statement') :
    AgreeAfter n (conditionalOver statement) (conditionalOver statement') where
  run_eq s hs := by
    rw [run_conditionalOver, run_conditionalOver]
    exact (agree_conditionalWithin _ (h.mono hs) (Nat.lt_succ_self _) (Nat.lt_succ_self _)).run_eq s
      (Nat.le_refl _)
  length_lt s conditional s' hs hrun := by
    rw [run_conditionalOver] at hrun
    exact (agree_conditionalWithin _ (h.mono hs) (Nat.lt_succ_self _)
      (Nat.lt_succ_self _)).length_lt s conditional s' (Nat.le_refl _) hrun

/-- Conditionals are chained as long as the tokens ask for, if statements leave no more tokens. -/
theorem conditionalOver_eq (h : ∀ n, Agree n statement statement) :
    conditionalOver statement = conditionalStep statement (conditionalOver statement) := by
  refine rule_ext fun s => ?_
  have hnext : Agree s.rest.length (conditionalWithin statement s.rest.length)
      (conditionalOver statement) := by
    refine ⟨fun s₁ hs₁ => ?_, ((agree_conditionalOver (h _)).agree.mono (Nat.le_succ _)).length_le⟩
    rw [run_conditionalOver]
    exact (agree_conditionalWithin _ (h _) hs₁ (Nat.lt_succ_self _)).run_eq s₁ (Nat.le_refl _)
  rw [run_conditionalOver]
  exact (agree_conditionalStep (h _) hnext).run_eq s (Nat.le_refl _)

/-- A loop reads its keyword before its statements. -/
theorem agree_loopOver (h : Agree n statement statement') :
    AgreeAfter n (loopOver statement) (loopOver statement') :=
  .bind (eats_expectKeyword "loop") fun _ => (Agree.of_eats (eats_openScope .loop)).bind fun _ =>
    .observe _ fun _ => (Agree.of_eats (eats_skip .newline)).bind fun _ =>
      ((agree_bodyOver h).unlessAt .rightBrace).bind fun _ => .observe _ fun _ =>
        (Agree.require _ _ _).bind fun _ => (Agree.of_eats (eats_skip .rightBrace)).bind fun _ =>
          (Agree.of_eats (eats_skip .newline)).bind fun _ => .pure _

/-- The mark on a loop reads nothing. -/
theorem agree_markLoop : Agree n markLoop markLoop :=
  .modified fun _ => rfl

/-- An `until` statement holds no other statement, so no bound matters to it. -/
theorem agree_untilStatement : AgreeAfter n untilStatement untilStatement :=
  .bind (eats_expectKeyword "until") fun _ => agree_markLoop.bind fun _ =>
    (Agree.of_eats eats_expression).bind fun _ =>
      (Agree.of_eats (eats_skip .newline)).bind fun _ => .pure _

/-- A `return` statement holds no other statement, so no bound matters to it. -/
theorem agree_resultStatement : AgreeAfter n resultStatement resultStatement := by
  refine .bind (eats_expectKeyword "return") fun _ => .observe _ fun _ => .ite ?_ ?_
  · exact (Agree.of_eats (eats_skip .newline)).bind fun _ => .pure _
  · exact (Agree.of_eats eats_expression).bind fun _ =>
      (Agree.of_eats (eats_skip .newline)).bind fun _ => .pure _

/-- An assignment or expression holds no other statement, so no bound matters to it. -/
theorem agree_simpleStatement : AgreeAfter n simpleStatement simpleStatement := by
  refine .bind eats_expression fun value => .observe _ fun _ => .ite ?_ (.observe _ fun _ =>
    .ite ?_ (.observe _ fun _ => .reject _ _))
  · exact (Agree.of_eats (eats_expect .colon)).bind fun _ =>
      (Agree.of_eats eats_expression).bind fun _ =>
        (Agree.of_eats (eats_skip .newline)).bind fun _ => .pure _
  · exact (Agree.of_eats (eats_skip .newline)).bind fun _ => .pure _

/-- Statements agree where one token more is left than for the statements inside them. -/
theorem agree_statementOver (h : Agree n statement statement') :
    AgreeAfter n (statementOver statement) (statementOver statement') := by
  refine .observe _ fun token => .ite ?_ agree_simpleStatement
  generalize token.text = text
  split
  case h_1 => exact (agree_conditionalOver h).map Stmt.conditional
  case h_2 => exact agree_untilStatement
  case h_3 => exact agree_loopOver h
  case h_4 => exact agree_resultStatement
  case h_5 => exact .reject token _

end

/-- Depths that are not less than the number of tokens left come to the same. -/
theorem agree_statementWithin (n : Nat) {depth depth' : Nat} (h : n ≤ depth) (h' : n ≤ depth') :
    Agree n (statementWithin depth) (statementWithin depth') := by
  induction n generalizing depth depth' with
  | zero => exact .zero
  | succ n ih =>
    obtain ⟨depth, rfl⟩ := Nat.exists_eq_add_of_le' h
    obtain ⟨depth', rfl⟩ := Nat.exists_eq_add_of_le' h'
    exact (agree_statementOver (ih (Nat.le_add_left _ _) (Nat.le_add_left _ _))).agree

/-- A statement is nested no deeper than there are tokens left. -/
theorem run_statement (s : State) :
    statement.run s = (statementWithin (s.rest.length + 1)).run s :=
  run_observe_bind _ _

/-- A depth that is at least the number of tokens left does not matter to a statement. -/
theorem agree_statement {depth : Nat} (h : n ≤ depth) :
    Agree n (statementWithin depth) statement where
  run_eq s hs := by
    rw [run_statement]
    exact (agree_statementWithin _ (Nat.le_trans hs h) (Nat.le_refl _)).run_eq s
      (Nat.lt_succ_self _)
  length_le s a s' _ hrun := by
    rw [run_statement] at hrun
    exact (agree_statementWithin _ (Nat.le_refl _) (Nat.le_refl _)).length_le s a s'
      (Nat.lt_succ_self _) hrun

/-- Statements are nested as deep as the tokens ask for. -/
theorem statement_eq : statement = statementOver statement := by
  refine rule_ext fun s => ?_
  rw [run_statement, statementWithin]
  exact (agree_statementOver (agree_statement (Nat.le_refl _))).run_eq s (Nat.le_refl _)

/-- Every statement takes a token. -/
theorem eats_statement : Eats statement := by
  have h : ∀ n, AgreeAfter n (statementOver statement) (statementOver statement) :=
    fun n => agree_statementOver (agree_statement (Nat.le_refl n)).right
  rw [statement_eq]
  exact AgreeAfter.eats h

/-- Conditionals are chained as long as the tokens ask for. -/
theorem conditional_eq : conditional = conditionalStep statement conditional :=
  conditionalOver_eq fun _ => .of_eats eats_statement

/-! ## Programs -/

/-- A list of names takes the first name. -/
theorem eats_identifiers : Eats identifiers :=
  (eats_expect .identifier).bind fun first _ =>
    .collect ((Agree.of_eats (eats_skip .comma)).bind fun _ => .of_eats (eats_expect .identifier))
      [first]

/-- A declaration reads nothing. -/
theorem agree_declareVariable (token : Token) (type : Ty) :
    Agree n (declareVariable token type) (declareVariable token type) where
  run_eq _ _ := rfl
  length_le s u s' _ hrun := by
    simp only [declareVariable, EStateM.run_bind, EStateM.run_get] at hrun
    cases hscopes : s.scopes.declareVariable token type with
    | ok scopes =>
      rw [hscopes] at hrun
      cases hrun
      exact Nat.le_refl _
    | error error =>
      rw [hscopes] at hrun
      cases hrun

theorem agree_declareVariables (tokens : List Token) :
    Agree n (declareVariables tokens) (declareVariables tokens) := by
  induction tokens with
  | nil => exact .pure ()
  | cons token tokens ih => exact (agree_declareVariable token .any).bind fun _ => ih

/-- A line of variables takes its keyword. -/
theorem eats_variableLine : Eats variableLine :=
  (eats_skipKeyword "var").bind fun _ _ => (Agree.of_eats eats_identifiers).bind fun names =>
    (agree_declareVariables names).bind fun _ =>
      (Agree.of_eats (eats_skip .newline)).bind fun _ => .pure names

/-- At the end of a function a newline is read, or nothing. -/
theorem agree_functionEnd : Agree n functionEnd functionEnd :=
  .observe _ fun _ => .ite (.pure ()) (.of_eats (eats_skip .newline))

/-- The declaration of a function reads nothing. -/
theorem agree_declareFunction (function : FunctionSymbol) (id : Nat) :
    Agree n (declareFunction function id) (declareFunction function id) :=
  .modified fun _ => rfl

/-- The head of a function takes its keyword. -/
theorem eats_functionHead : Eats functionHead := by
  refine (eats_skipKeyword "fun").bind fun _ n => (Agree.of_eats (eats_expect .identifier)).bind
    fun name => .observe _ fun _ => (Agree.require _ _ _).bind fun _ => ?_
  refine (Agree.of_eats (eats_skip .leftParen)).bind fun _ =>
    ((Agree.of_eats eats_identifiers).unlessAt .rightParen).bind fun parameters => ?_
  refine (Agree.of_eats (eats_skip .rightParen)).bind fun _ => .observe _ fun _ => ?_
  refine (Agree.of_eats (eats_openScope .function)).bind fun _ =>
    (agree_declareFunction _ _).bind fun _ => (agree_declareVariables parameters).bind fun _ => ?_
  exact (Agree.of_eats (eats_skip .newline)).bind fun _ => .pure _

/-- Lines of variables hold no statements, so no bound matters to them. -/
theorem agree_variableLines : Agree n variableLines variableLines :=
  .collect (.of_eats eats_variableLine) []

/-- What stands in a function is read within the bounds of its statements. -/
theorem agree_functionInside : Agree n functionInside functionInside :=
  agree_variableLines.bind fun _ =>
    ((agree_bodyOver (.of_eats eats_statement)).unlessAt .rightBrace).bind fun _ =>
      (Agree.of_eats (eats_skip .rightBrace)).bind fun _ => .pure _

/-- Every function takes a token. -/
theorem eats_function : Eats function := by
  rw [function_eq]
  exact eats_functionHead.bind fun _ _ => agree_functionInside.bind fun _ =>
    agree_functionEnd.bind fun _ => .pure _

theorem eats_functions : Eats functions :=
  eats_function.bind fun first _ => .collect (.of_eats eats_function) [first]

/-- After the statements of a body a right brace follows. -/
theorem body_ends {stmts : List Stmt} {s s' : State} (h : body.run s = .ok stmts s') :
    s'.sees .rightBrace = true := by
  obtain ⟨first, s₁, _, h⟩ := run_bind_ok.mp h
  simpa using continues_eq_false (fun _ => eats_statement.bind fun _ _ => .pure _) h

end Tranquility.Grammar
