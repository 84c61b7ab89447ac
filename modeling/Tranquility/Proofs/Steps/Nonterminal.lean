import Tranquility.Proofs.Descent.Enters
import Tranquility.Proofs.Steps.Made

/-!
# Nonterminals

Every rule of the grammar that has a name of its own is made of steps: a program and its parts down
to literals. The rules that are nested in each other are so to every depth, and to each depth by the
depth below.
-/

namespace Tranquility.Grammar

/-- The rules of the grammar by their names. -/
inductive Nonterminal where
  | program
  | functions
  | function
  | variableLines
  | identifiers
  | body
  | statement
  | conditional
  | untilStatement
  | loop
  | resultStatement
  | expressions
  | expression (level : Level)
  | operand
  | literal
  deriving DecidableEq, Repr

namespace Nonterminal

/-- What a rule yields. -/
def Value : Nonterminal → Type
  | program => Program
  | functions => List FunctionDecl
  | function => FunctionDecl
  | variableLines => List (List Token)
  | identifiers => List Token
  | body => List Stmt
  | statement | untilStatement | loop | resultStatement => Stmt
  | conditional => Conditional
  | expressions => List Expr
  | expression _ | operand | literal => Expr

/-- The rule of a name. -/
def rule : (part : Nonterminal) → Rule part.Value
  | program => Grammar.program
  | functions => Grammar.functions
  | function => Grammar.function
  | variableLines => Grammar.variableLines
  | identifiers => Grammar.identifiers
  | body => Grammar.body
  | statement => Grammar.statement
  | conditional => Grammar.conditional
  | untilStatement => Grammar.untilStatement
  | loop => Grammar.loop
  | resultStatement => Grammar.resultStatement
  | expressions => Grammar.expressions
  | expression level => expressionFrom level
  | operand => Grammar.operand
  | literal => Grammar.literal

/-- The rules that declare names. -/
def declares : Nonterminal → Prop
  | program | functions | function | variableLines => True
  | identifiers | body | statement | conditional | untilStatement | loop | resultStatement
  | expressions | expression _ | operand | literal => False

end Nonterminal

variable {declares : Prop} {known : Token → Prop}

/-! ## Expressions -/

section

variable {operand : Rule Expr}

/-- The check of a string fails or does nothing. -/
theorem made_checkText (token : Token) : Made declares known (checkText token) := by
  refine .ite ?_ (.pure ())
  unfold checkEscapes
  split
  case h_1 => exact .pure ()
  case h_2 => exact .reject token _
  case h_3 => exact .throw fun _ h => nomatch h

/-- A literal is one token, which a look at its kind has shown to be a literal. -/
theorem made_literal : Made declares known literal := by
  refine .current id fun token => ?_
  cases htype : literalType? token.kind with
  | none => exact .reject token _
  | some type =>
    -- A literal is read as any token is, and it is none of the braces since it has a type.
    refine .bind (.advance fun token' htoken _ => ?_) fun token =>
      (made_checkText token).bind fun _ => .pure _
    obtain ⟨_, rfl⟩ := htoken
    exact isPlain_of_literalType? htype

/-- A variable is one token and a look at the scopes. -/
theorem made_reference : Made declares known reference :=
  (Made.expect rfl).bind fun token =>
    .scopes (fun scopes => scopes.hasVariable token.text scopes.current) fun _ =>
      (Made.require _ _ _).bind fun _ => .pure _

/-- An operator in front is a step, and its operand goes on from there. -/
theorem made_prefixed {kind : Kind} (hplain : kind.isPlain = true) (node : Token → Expr → Expr)
    (h : Made declares Anything operand) : Made declares known (prefixed kind node operand) :=
  (Made.expect hplain).bind fun _ => h.bind fun _ => .pure _

/-- A group starts with its parenthesis, and a look at the next token tells whether it is empty. -/
theorem made_parenthesised (h : Made declares Anything operand) :
    Made declares known (parenthesised operand) := by
  refine (Made.expect rfl).bind fun _ => .sees .rightParen fun _ => .ite ?_ ?_
  · exact (Made.skip rfl).bind fun _ => .pure _
  · exact h.bind fun _ => (Made.skip rfl).bind fun _ => .pure _

/-- A call starts with its name, and a look at the scopes finds the function. -/
theorem made_call {argument : Rule Expr} (h : Made declares Anything argument)
    (heats : Eats argument) : Made declares known (call argument) := by
  refine (Made.expect rfl).bind fun name =>
    .scopes (fun scopes => scopes.findFunction? name.text scopes.current) fun function => ?_
  cases function with
  | none => exact .reject name _
  | some function =>
    refine (Made.skip rfl).bind fun _ =>
      ((Made.commaSeparated h heats).unlessAt .rightParen).bind fun arguments => ?_
    exact (Made.require _ _ _).bind fun _ => (Made.skip rfl).bind fun _ => .pure _

/-- To combine operands is to fail, to warn, or to do nothing. -/
theorem made_combine (level : Level) (operator : Token) (left right : Expr) :
    Made declares known (combine level operator left right) :=
  (Made.require _ _ _).bind fun _ =>
    (Made.ite (.warn operator _) (.pure ())).bind fun _ => .pure _

/-- Operands of a level are read in a loop, each round of which takes its operator. -/
theorem made_chain (level : Level) (h : Made declares Anything operand) (heats : Eats operand) :
    Made declares known (chain level operand) := by
  refine h.anywhere.bind fun first =>
    .whilst (fun token => level.operators.contains token.kind) (fun left => ?_)
      (fun left => ?_) first
  · -- An operator is read as any token is, where the loop has seen that it is one.
    refine .bind (.advance fun token htoken _ => ?_) fun operator => h.bind fun right =>
      made_combine level operator left right
    exact Level.isPlain_of_mem (List.contains_iff_mem.mp htoken)
  · exact (eats_advance _ _ _).bind fun operator _ =>
      (Agree.of_eats heats).bind fun right => agree_combine level operator left right

/-- A tower of levels is made of steps from the tightest one on. -/
theorem made_climb (levels : List Level) (h : Made declares Anything operand)
    (heats : Eats operand) : Made declares known (climb operand levels) := by
  induction levels generalizing known with
  | nil => exact h.anywhere
  | cons level tighter ih => exact made_chain level ih (eats_climb tighter heats)

/-- Before an operand is chosen, a look is taken at the current token, and for calls at the one
behind it. -/
theorem made_operandOver (h : Made declares Anything operand) (heats : Eats operand) :
    Made declares known (operandOver operand) := by
  refine .current id fun token => ?_
  cases hkind : token.kind with
  | identifier =>
    refine .following .leftParen (fun token' htoken => ?_) fun _ => .ite ?_ made_reference
    · obtain ⟨_, rfl⟩ := htoken
      exact hkind
    · exact made_call (made_climb Level.all h heats) (eats_climb Level.all heats)
  | integer => exact made_literal
  | string => exact made_literal
  | character => exact made_literal
  | leftParen => exact made_parenthesised h
  | dot => exact made_prefixed rfl _ h
  | minus => exact made_prefixed rfl _ h
  | bitwiseNot => exact made_prefixed rfl _ h
  | _ => exact .reject token _

end

theorem eats_operandWithin (depth : Nat) : Eats (operandWithin depth) := by
  induction depth with
  | zero => exact fun _ _ _ h => absurd h run_reject_ok
  | succ depth ih =>
    have h : ∀ n, AgreeAfter n (operandWithin (depth + 1)) (operandWithin (depth + 1)) :=
      fun _ => agree_operandOver (.of_eats ih)
    exact AgreeAfter.eats h

/-- Operands within any depth are made of steps, since each depth adds steps to a smaller one. -/
theorem made_operandWithin (depth : Nat) : Made declares known (operandWithin depth) := by
  induction depth generalizing known with
  | zero => exact .current id fun _ => .reject _ _
  | succ depth ih => exact made_operandOver ih (eats_operandWithin depth)

/-- An operand is made of steps, with as much depth as tokens are left. -/
theorem made_operand : Made declares known operand :=
  .bounded made_operandWithin fun _ _ _ h h' =>
    (agree_operandWithin _ h h').run_eq _ (Nat.lt_succ_self _)

/-- Expressions of every level are made of steps. -/
theorem made_expressionFrom (level : Level) : Made declares known (expressionFrom level) :=
  made_climb _ made_operand eats_operand

theorem made_expression : Made declares known expression :=
  made_expressionFrom .xor

theorem made_expressions : Made declares known expressions :=
  .commaSeparated made_expression eats_expression

/-! ## Statements -/

section

variable {statement : Rule Stmt}

/-- A body is made of its statements, each of which takes a token. -/
theorem made_bodyOver (h : Made declares Anything statement) (heats : Eats statement) :
    Made declares known (bodyOver statement) :=
  h.anywhere.bind fun first =>
    .collect (fun token => !decide (token.kind = .rightBrace)) h heats [first]

/-- A body in braces is a block, in which its statements stand. -/
theorem made_braced {kind : ScopeKind} (hopens : kind.opens = true)
    (h : Made declares Anything statement) (heats : Eats statement) :
    Made declares known (braced kind statement) := by
  have hblock : braced kind statement = (do
      openScope kind
      let body ← (do skip .newline; bodyOver statement)
      skip .rightBrace
      skip .newline
      return body) := by
    simp only [braced, bind_assoc]
  rw [hblock]
  exact .block hopens ((Made.skip rfl).bind fun _ => made_bodyOver h heats) fun _ =>
    (Made.skip rfl).bind fun _ => .pure _

/-- A conditional is made of its head, its blocks and what is chained to it. -/
theorem made_conditionalStep {next : Rule Conditional} (h : Made declares Anything statement)
    (heats : Eats statement) (hnext : Made declares Anything next) :
    Made declares known (conditionalStep statement next) := by
  refine (Made.expectKeyword "if").bind fun token => made_expression.bind fun condition =>
    (made_braced rfl h heats).bind fun body => .seesKeyword "else" fun _ => .ite ?_ (.pure _)
  refine (Made.skipKeyword "else").bind fun _ => .seesKeyword "if" fun _ => .ite ?_ ?_
  · exact hnext.bind fun _ => .pure _
  · exact (made_braced rfl h heats).bind fun _ => .pure _

/-- Conditionals within any depth are made of steps. -/
theorem made_conditionalWithin (h : Made declares Anything statement) (heats : Eats statement)
    (depth : Nat) : Made declares known (conditionalWithin statement depth) := by
  induction depth generalizing known with
  | zero => exact .current id fun _ => .reject _ _
  | succ depth ih => exact made_conditionalStep h heats ih

/-- A conditional is made of steps if its statements are. -/
theorem made_conditionalOver (h : Made declares Anything statement) (heats : Eats statement) :
    Made declares known (conditionalOver statement) :=
  .bounded (made_conditionalWithin h heats) fun _ _ _ hd hd' =>
    (agree_conditionalWithin _ (.of_eats heats) hd hd').run_eq _ (Nat.le_refl _)

/-- A loop is a block, with a look at its mark before the right brace. -/
theorem made_loopOver (h : Made declares Anything statement) (heats : Eats statement) :
    Made declares known (loopOver statement) := by
  have hblock : loopOver statement = (do
      let token ← expectKeyword "loop"
      openScope .loop
      let body ← (do
        let scope ← observe (·.scopes.current)
        skip .newline
        let body ← unlessAt .rightBrace (bodyOver statement)
        require (← observe (·.scopes.hasUntil scope)) token .endlessLoop
        return body)
      skip .rightBrace
      skip .newline
      return .loop token body) := by
    simp only [loopOver, bind_assoc, pure_bind]
  rw [hblock]
  refine (Made.expectKeyword "loop").bind fun token => .block rfl ?_ fun _ =>
    (Made.skip rfl).bind fun _ => .pure _
  refine .scopes (·.current) fun scope => (Made.skip rfl).bind fun _ =>
    ((made_bodyOver h heats).unlessAt .rightBrace).bind fun body => ?_
  exact .scopes (·.hasUntil scope) fun _ => (Made.require _ _ _).bind fun _ => .pure body

/-- An `until` statement is its keyword, the mark on the loop, and its condition. -/
theorem made_untilStatement : Made declares known untilStatement :=
  (Made.expectKeyword "until").bind fun _ => Made.markLoop.bind fun _ =>
    made_expression.bind fun _ => (Made.skip rfl).bind fun _ => .pure _

/-- A `return` statement is its keyword and, unless the line ends there, a value. -/
theorem made_resultStatement : Made declares known resultStatement := by
  refine (Made.expectKeyword "return").bind fun _ => .sees .newline fun _ => .ite ?_ ?_
  · exact (Made.skip rfl).bind fun _ => .pure _
  · exact made_expression.bind fun _ => (Made.skip rfl).bind fun _ => .pure _

/-- A look behind the first expression tells an assignment from an expression. -/
theorem made_simpleStatement : Made declares known simpleStatement := by
  refine made_expression.bind fun value => .sees .colon fun _ => .ite ?_ (.sees .newline fun _ =>
    .ite ?_ (.current id fun _ => .reject _ _))
  · exact (Made.expect rfl).bind fun _ => made_expression.bind fun _ =>
      (Made.skip rfl).bind fun _ => .pure _
  · exact (Made.skip rfl).bind fun _ => .pure _

/-- The current token chooses the statement, by its kind and then by its text. -/
theorem made_statementOver (h : Made declares Anything statement) (heats : Eats statement) :
    Made declares known (statementOver statement) := by
  refine .current id fun token => .ite ?_ made_simpleStatement
  generalize token.text = text
  split
  case h_1 => exact (made_conditionalOver h heats).map Stmt.conditional
  case h_2 => exact made_untilStatement
  case h_3 => exact made_loopOver h heats
  case h_4 => exact made_resultStatement
  case h_5 => exact .reject token _

end

theorem eats_statementWithin (depth : Nat) : Eats (statementWithin depth) := by
  induction depth with
  | zero => exact fun _ _ _ h => absurd h run_reject_ok
  | succ depth ih =>
    have h : ∀ n, AgreeAfter n (statementWithin (depth + 1)) (statementWithin (depth + 1)) :=
      fun _ => agree_statementOver (.of_eats ih)
    exact AgreeAfter.eats h

/-- Statements within any depth are made of steps, since each depth adds steps to a smaller one. -/
theorem made_statementWithin (depth : Nat) : Made declares known (statementWithin depth) := by
  induction depth generalizing known with
  | zero => exact .current id fun _ => .reject _ _
  | succ depth ih => exact made_statementOver ih (eats_statementWithin depth)

/-- A statement is made of steps, with as much depth as tokens are left. -/
theorem made_statement : Made declares known statement :=
  .bounded made_statementWithin fun _ _ _ h h' =>
    (agree_statementWithin _ h h').run_eq _ (Nat.lt_succ_self _)

theorem made_body : Made declares known body :=
  made_bodyOver made_statement eats_statement

/-! ## Programs -/

/-- A list of names is made of its names and commas. -/
theorem made_identifiers : Made declares known identifiers :=
  .commaSeparated (.expect rfl) (eats_expect .identifier)

/-- A line of variables is made of its names and their declarations. -/
theorem made_variableLine : Made True known variableLine :=
  (Made.skipKeyword "var").bind fun _ => made_identifiers.bind fun names =>
    (Made.declareVariables trivial names).bind fun _ => (Made.skip rfl).bind fun _ => .pure _

theorem made_variableLines : Made True known variableLines :=
  .collect (·.isKeyword "var") made_variableLine eats_variableLine []

/-- A function in front of its left brace: its name, its parameters, and the scope around it. -/
def functionFront : Rule (Token × List Token × Nat) := do
  skipKeyword "fun"
  let name ← expect .identifier
  require (← observe (·.allowsFunction name.text)) name .duplicateFunction
  skip .leftParen
  let parameters ← unlessAt .rightParen identifiers
  skip .rightParen
  let enclosing ← observe (·.scopes.current)
  return (name, parameters, enclosing)

/-- What stands in the braces of a function, after its declaration in the scope around it. -/
def functionBody (name : Token) (parameters : List Token) (enclosing : Nat) :
    Rule FunctionDecl := do
  declareFunction ⟨name.text, parameters.length, some name⟩ enclosing
  declareVariables parameters
  skip .newline
  let locals ← variableLines
  let body ← unlessAt .rightBrace body
  return ⟨name, parameters, locals, body⟩

/-- The declaration of a function up to its right brace. -/
def functionBlock : Rule FunctionDecl := do
  let (name, parameters, enclosing) ← functionFront
  openScope .function
  let decl ← functionBody name parameters enclosing
  skip .rightBrace
  return decl

/-- A function is a block and what ends it, so that its braces are a pair. -/
theorem function_eq_block : function = (do
    let decl ← functionBlock
    functionEnd
    return decl) := by
  simp only [function, functionBlock, functionFront, functionBody, bind_assoc, pure_bind]

/-- A function in front of its left brace is its names and looks at the scopes. -/
theorem made_functionFront : Made True known functionFront := by
  refine (Made.skipKeyword "fun").bind fun _ => (Made.expect rfl).bind fun name =>
    .scopes (fun scopes => name.text = Builtin.entryPoint ||
      !scopes.hasFunction name.text scopes.current) fun _ => (Made.require _ _ _).bind fun _ => ?_
  exact (Made.skip rfl).bind fun _ => (made_identifiers.unlessAt .rightParen).bind fun _ =>
    (Made.skip rfl).bind fun _ => .scopes (·.current) fun _ => .pure _

/-- In its braces a function declares its own name first, in the scope around it. -/
theorem made_functionBody (name : Token) (parameters : List Token) (enclosing : Nat) :
    Made True known (functionBody name parameters enclosing) :=
  (Made.declareFunction trivial _ _).bind fun _ =>
    (Made.declareVariables trivial parameters).bind fun _ => (Made.skip rfl).bind fun _ =>
      made_variableLines.bind fun _ => (made_body.unlessAt .rightBrace).bind fun _ => .pure _

/-- The braces of a function are a pair, with its body between them. -/
theorem made_functionBlock : Made True known functionBlock :=
  made_functionFront.bind fun ⟨name, parameters, enclosing⟩ =>
    .block rfl (made_functionBody name parameters enclosing) fun _ => .pure _

/-- A function ends with a step over the newline, or with a look at the end of the input. -/
theorem made_functionEnd : Made declares known functionEnd :=
  .sees .endOfInput fun _ => .ite (.pure ()) (.skip rfl)

/-- A function is made of steps, declarations among them. -/
theorem made_function : Made True known function := by
  rw [function_eq_block]
  exact made_functionBlock.bind fun _ => made_functionEnd.bind fun _ => .pure _

theorem made_functions : Made True known functions :=
  made_function.bind fun first =>
    .collect (·.isKeyword "fun") made_function eats_function [first]

/-- What stands in front of the functions of a program: newlines and global variables. -/
theorem made_preamble : Made True known preamble := by
  refine (Made.whilst (fun token => decide (token.kind = .newline))
    (fun _ => .skip rfl) (fun _ => eats_skip .newline) ()).bind fun _ =>
      made_variableLines.bind fun _ => ?_
  have hfault : State.startFault = fun s => if decide (s.current.kind = .endOfInput) then
      Violation.missingFunction else Violation.expectedDeclarations := rfl
  rw [hfault]
  exact .current id fun first => .current (fun token => if decide (token.kind = .endOfInput) then
    Violation.missingFunction else Violation.expectedDeclarations) fun _ =>
      (Made.require _ _ _).bind fun _ => .pure _

/-- A program is made of steps from its first newline to the end of the input. -/
theorem made_program : Made True known program := by
  rw [program_eq]
  exact made_preamble.bind fun _ => made_functions.bind fun _ => .sees .endOfInput fun _ =>
    .current id fun _ => (Made.require _ _ _).bind fun _ => .pure _

/-- Every rule of the grammar is made of steps, with declarations among them if it declares names.
-/
theorem Nonterminal.made (part : Nonterminal) : Made part.declares Anything part.rule := by
  cases part with
  | program => exact made_program
  | functions => exact made_functions
  | function => exact made_function
  | variableLines => exact made_variableLines
  | identifiers => exact made_identifiers
  | body => exact made_body
  | statement => exact made_statement
  | conditional => exact made_conditionalOver made_statement eats_statement
  | untilStatement => exact made_untilStatement
  | loop => exact made_loopOver made_statement eats_statement
  | resultStatement => exact made_resultStatement
  | expressions => exact made_expressions
  | expression level => exact made_expressionFrom level
  | operand => exact made_operand
  | literal => exact made_literal

end Tranquility.Grammar
