import Tranquility.Proofs.Resolving.Loops

/-!
# The descent of a parse

The rules that the grammar is recursive through enter each other. A rule enters another one where it
has read what stands in front, so each way of entering is told by the readings in front of it. Two
things hold of every way: what fails in a rule that is entered fails in the one that enters it,
since no rule catches an error; and the rule that is entered has fewer tokens left, or as many and a
smaller weight, so that no descent goes on for ever.
-/

namespace Tranquility.Grammar

/-- The rules that enter each other. -/
inductive Part where
  | program
  | function
  | statement
  | conditional
  | expression (level : Level)
  | operand
  deriving DecidableEq, Repr

/-- The part that reads the operands of a level: the next tighter level, or operands without a
binary operator outside parentheses. -/
def Level.inside : Level → Part
  | .xor => .expression .bitwiseComparison
  | .bitwiseComparison => .expression .comparison
  | .comparison => .expression .shift
  | .shift => .expression .additive
  | .additive => .expression .multiplicative
  | .multiplicative => .operand

/-- The rule that reads the operands of a level. -/
def Level.operandRule (level : Level) : Rule Expr :=
  climb operand (Level.all.drop (level.rank + 1))

/-- A part, run from a state, ends in an error in another state. -/
def Part.Fails : Part → State → Error → State → Prop
  | .program, s, e, s' => Grammar.program.run s = .error e s'
  | .function, s, e, s' => Grammar.function.run s = .error e s'
  | .statement, s, e, s' => Grammar.statement.run s = .error e s'
  | .conditional, s, e, s' => Grammar.conditional.run s = .error e s'
  | .expression level, s, e, s' => (expressionFrom level).run s = .error e s'
  | .operand, s, e, s' => Grammar.operand.run s = .error e s'

/-- Expressions on a level are chains of operands of the level. -/
theorem expressionFrom_eq (level : Level) :
    expressionFrom level = chain level level.operandRule := by
  cases level <;> rfl

/-- The part inside a level and the rule for its operands fail alike. -/
theorem Level.fails_inside (level : Level) (s : State) (e : Error) (s' : State) :
    level.inside.Fails s e s' ↔ level.operandRule.run s = .error e s' := by
  cases level <;> exact Iff.rfl

/-- Every operand of a level takes a token. -/
theorem Level.eats_operandRule (level : Level) : Eats level.operandRule :=
  eats_climb _ eats_operand

/-- Operands of a level bind more tightly than the level. -/
theorem Level.operandRule_yields (level : Level) : Yields (level.rank + 1) level.operandRule := by
  cases level with
  | xor => exact climb_yields operand_yields .bitwiseComparison
  | bitwiseComparison => exact climb_yields operand_yields .comparison
  | comparison => exact climb_yields operand_yields .shift
  | shift => exact climb_yields operand_yields .additive
  | additive => exact climb_yields operand_yields .multiplicative
  | multiplicative => exact operand_yields

/-! ## Items of a list -/

section

variable {α : Type} {continues : State → Bool} {separator : Rule Unit} {item : Rule α}
variable {s s' t : State} {e : Error}

/-- One or more items with separators between them, as long as the state asks for another. -/
def listOf (continues : State → Bool) (separator : Rule Unit) (item : Rule α) : Rule (List α) := do
  let first ← item
  collect continues (do separator; item) [first]

/-- In a list of items that starts at a state, an item starts at another one. -/
inductive ItemAt (continues : State → Bool) (separator : Rule Unit) (item : Rule α) (s : State) :
    State → Prop where
  | first : ItemAt continues separator item s s
  | next {t t₁ t₂ : State} {a : α} (before : ItemAt continues separator item s t)
    (read : item.run t = .ok a t₁) (more : continues t₁ = true)
    (gap : separator.run t₁ = .ok () t₂) : ItemAt continues separator item s t₂

/-- The list goes on from each of its items. -/
theorem ItemAt.run_eq (heats : Eats (do separator; item))
    (h : ItemAt continues separator item s t) :
    ∃ items, (listOf continues separator item).run s =
      (item >>= fun a => collect continues (do separator; item) (items ++ [a])).run t := by
  induction h with
  | first => exact ⟨[], rfl⟩
  | @next t t₁ t₂ a _ read more gap ih =>
    obtain ⟨items, hrun⟩ := ih
    refine ⟨items ++ [a], hrun.trans ?_⟩
    rw [EStateM.run_bind, read]
    show (collect continues _ (items ++ [a])).run t₁ = _
    rw [collect_eq heats, run_observe_bind, if_pos more, bind_assoc, EStateM.run_bind, gap]

/-- What fails in an item fails in the list. -/
theorem ItemAt.run_error (heats : Eats (do separator; item))
    (h : ItemAt continues separator item s t) (hitem : item.run t = .error e s') :
    (listOf continues separator item).run s = .error e s' := by
  obtain ⟨items, hrun⟩ := h.run_eq heats
  rw [hrun]
  exact run_bind_error_first hitem _

/-- A list fails at one of its items or at a separator. -/
theorem run_listOf_error (h : (listOf continues separator item).run s = .error e s') :
    (∃ t, ItemAt continues separator item s t ∧ item.run t = .error e s') ∨
      ∃ t, separator.run t = .error e s' := by
  rcases run_bind_error.mp h with h | ⟨first, s₁, hfirst, h⟩
  · exact .inl ⟨s, .first, h⟩
  obtain ⟨_, s₂, ⟨t, a, hat, hread⟩, hmore, h⟩ := run_collect_error
    (fun _ s₂ => ∃ t a, ItemAt continues separator item s t ∧ item.run t = .ok a s₂)
    (fun _ s₂ a s₃ ⟨t, b, hat, hread⟩ hmore hround => by
      obtain ⟨_, s₄, hgap, hitem⟩ := run_bind_ok.mp hround
      exact ⟨s₄, a, hat.next hread hmore hgap, hitem⟩)
    ⟨s, first, .first, hfirst⟩ h
  rcases run_bind_error.mp h with h | ⟨_, s₃, hgap, h⟩
  · exact .inr ⟨s₂, h⟩
  · exact .inl ⟨s₃, hat.next hread hmore hgap, h⟩

/-- No item has more tokens left than the list that it is in. -/
theorem ItemAt.length_le (heats : Eats item) (hgap : ∀ n, Agree n separator separator)
    (h : ItemAt continues separator item s t) : t.rest.length ≤ s.rest.length := by
  induction h with
  | first => exact Nat.le_refl _
  | @next t t₁ t₂ a _ read _ gap ih =>
    have hlt := heats _ _ _ read
    have hle := (hgap _).length_le _ _ _ (Nat.lt_succ_self _) gap
    omega

end

/-- A statement of a body. -/
abbrev StatementAt : State → State → Prop :=
  ItemAt (!·.sees .rightBrace) (pure ()) statement

/-- An argument of a call. -/
abbrev ArgumentAt : State → State → Prop :=
  ItemAt (·.sees .comma) (skip .comma) expression

/-- A function of a program. -/
abbrev FunctionAt : State → State → Prop :=
  ItemAt (·.seesKeyword "fun") (pure ()) function

/-- A body is a list of statements with nothing between them. -/
theorem body_eq : body = listOf (!·.sees .rightBrace) (pure ()) statement := rfl

theorem functions_eq : functions = listOf (·.seesKeyword "fun") (pure ()) function := rfl

theorem expressions_eq : expressions = listOf (·.sees .comma) (skip .comma) expression := rfl

/-! ## Operands of a level -/

/-- Where operands of a level start, those up to another state have been combined. -/
inductive Builds (level : Level) (s : State) : Expr → State → Prop where
  | first {left : Expr} {t : State} (read : level.operandRule.run s = .ok left t) :
    Builds level s left t
  | next {left expr : Expr} {t t' : State} (before : Builds level s left t)
    (more : t.seesOperator level = true)
    (round : (chainRound level level.operandRule left).run t = .ok expr t') :
    Builds level s expr t'

/-- A round takes its operator. -/
theorem eats_chainRound (level : Level) (left : Expr) :
    Eats (chainRound level level.operandRule left) :=
  (eats_advance _ _ _).bind fun operator _ =>
    (Agree.of_eats level.eats_operandRule).bind fun right => agree_combine level operator left right

section

variable {level : Level} {left : Expr} {s s' t : State} {e : Error}

/-- An expression on a level goes on from what has been combined so far. -/
theorem Builds.run_eq (h : Builds level s left t) : (expressionFrom level).run s =
    (whilst (·.seesOperator level) (chainRound level level.operandRule) left).run t := by
  induction h with
  | @first left t read =>
    rw [expressionFrom_eq, chain, EStateM.run_bind, read]
    rfl
  | next _ more round ih =>
    rw [ih, whilst_eq (eats_chainRound level), run_observe_bind, if_pos more, EStateM.run_bind,
      round]

/-- A round that fails after operands have been combined fails in the whole of them. -/
theorem Builds.run_error (h : Builds level s left t) (more : t.seesOperator level = true)
    (hround : (chainRound level level.operandRule left).run t = .error e s') :
    (expressionFrom level).run s = .error e s' := by
  rw [h.run_eq, whilst_eq (eats_chainRound level), run_observe_bind, if_pos more]
  exact run_bind_error_first hround _

/-- Operands of a level fail at the first one or in a round after some have been combined. -/
theorem run_expressionFrom_error (h : (expressionFrom level).run s = .error e s') :
    level.operandRule.run s = .error e s' ∨ ∃ left t, Builds level s left t ∧
      t.seesOperator level = true ∧
        (chainRound level level.operandRule left).run t = .error e s' := by
  rw [expressionFrom_eq] at h
  rcases run_bind_error.mp h with h | ⟨first, s₁, hfirst, h⟩
  · exact .inl h
  · exact .inr (run_whilst_error (Builds level s)
      (fun _ _ _ _ hbuilds hmore hround => hbuilds.next hmore hround) (.first hfirst) h)

/-- What has been combined so far has been read and keeps the rules. -/
theorem Builds.reads (h : Builds level s left t) : ReadsExpr level.rank s left t := by
  induction h with
  | first read =>
    have hread := level.operandRule_yields _ _ _ read
    exact ⟨hread.reads, hread.legal, Nat.le_of_succ_le hread.rank_le⟩
  | next _ more round ih => exact chainRound_reads level.operandRule_yields ih more round

/-- The first operand takes a token, and so does every round. -/
theorem Builds.length_lt (h : Builds level s left t) : t.rest.length < s.rest.length := by
  induction h with
  | first read => exact level.eats_operandRule _ _ _ read
  | next _ _ round ih => exact Nat.lt_trans (eats_chainRound level _ _ _ _ round) ih

end

/-! ## Entering a part -/

/-- What stands in front of the functions of a program: newlines and global variables. -/
def preamble : Rule (List (List Token)) := do
  whilst (·.sees .newline) (fun _ => skip .newline) ()
  let globals ← variableLines
  let first ← observe State.current
  require (first.isKeyword "fun") first (← observe State.startFault)
  return globals

/-- A program is what stands in front of its functions, then the functions, then the end of the
input. -/
theorem program_eq : program = (do
    let globals ← preamble
    let functions ← functions
    require (← observe State.atEnd) (← observe State.current) .expectedFunction
    return ⟨globals, functions⟩) := by
  simp only [program, preamble, bind_assoc, pure_bind]

/-- A statement of a braced body starts at the second state. -/
inductive BlockAt (kind : ScopeKind) (s t : State) : Prop where
  | intro {s₁ s₂ : State} (brace : (openScope kind).run s = .ok () s₁)
    (newline : (skip .newline).run s₁ = .ok () s₂) (item : StatementAt s₂ t)

/-- A part that starts at a state enters another part at another state: it has read what stands in
front of it, and there the other part goes on. -/
inductive Enters : Part → State → Part → State → Prop where
  /-- A program enters each of its functions. -/
  | function {s s₁ t : State} {globals : List (List Token)}
    (front : preamble.run s = .ok globals s₁) (item : FunctionAt s₁ t) :
    Enters .program s .function t
  /-- A function enters each statement of its body. -/
  | body {s s₁ s₂ t : State} {head : Token × List Token} {locals : List (List Token)}
    (front : functionHead.run s = .ok head s₁) (lines : variableLines.run s₁ = .ok locals s₂)
    (more : s₂.sees .rightBrace = false) (item : StatementAt s₂ t) :
    Enters .function s .statement t
  /-- A statement that starts with `if` is a conditional. -/
  | conditional {s : State} (keyword : s.seesKeyword "if" = true) :
    Enters .statement s .conditional s
  /-- The condition of an `until` statement, after the mark on the loop. -/
  | untilCondition {s s₁ t : State} {token : Token}
    (keyword : (expectKeyword "until").run s = .ok token s₁) (mark : markLoop.run s₁ = .ok () t) :
    Enters .statement s (.expression .xor) t
  /-- A loop enters each statement of its body. -/
  | loopBody {s s₁ t : State} {head : Token × Nat} (front : loopHead.run s = .ok head s₁)
    (more : s₁.sees .rightBrace = false) (item : StatementAt s₁ t) :
    Enters .statement s .statement t
  /-- The value that a function returns. -/
  | result {s t : State} {token : Token} (keyword : (expectKeyword "return").run s = .ok token t)
    (more : t.sees .newline = false) : Enters .statement s (.expression .xor) t
  /-- A statement without a keyword starts with an expression. -/
  | target {s : State} (plain : s.current.kind ≠ .keyword) :
    Enters .statement s (.expression .xor) s
  /-- The value that is stored, after a colon. -/
  | stored {s s₁ t : State} {value : Expr} {token : Token} (plain : s.current.kind ≠ .keyword)
    (front : expression.run s = .ok value s₁) (colon : (expect .colon).run s₁ = .ok token t) :
    Enters .statement s (.expression .xor) t
  /-- The condition after `if`. -/
  | condition {s t : State} {token : Token}
    (keyword : (expectKeyword "if").run s = .ok token t) :
    Enters .conditional s (.expression .xor) t
  /-- A conditional enters each statement of its first body. -/
  | branch {s s₁ s₂ t : State} {token : Token} {condition : Expr}
    (keyword : (expectKeyword "if").run s = .ok token s₁)
    (front : expression.run s₁ = .ok condition s₂) (item : BlockAt .ifBranch s₂ t) :
    Enters .conditional s .statement t
  /-- A conditional enters each statement of the body after `else`. -/
  | alternative {s s₁ s₂ t : State} {head : Token × Expr × List Stmt}
    (front : (conditionalHead statement).run s = .ok head s₁)
    (keyword : (skipKeyword "else").run s₁ = .ok () s₂) (last : s₂.seesKeyword "if" = false)
    (item : BlockAt .elseBranch s₂ t) : Enters .conditional s .statement t
  /-- A conditional enters another one after `else`. -/
  | chained {s s₁ t : State} {head : Token × Expr × List Stmt}
    (front : (conditionalHead statement).run s = .ok head s₁)
    (keyword : (skipKeyword "else").run s₁ = .ok () t) (more : t.seesKeyword "if" = true) :
    Enters .conditional s .conditional t
  /-- A level starts with one of its operands. -/
  | first {s : State} (level : Level) : Enters (.expression level) s level.inside s
  /-- A level reads another operand after each of its operators. -/
  | right {s t t' : State} {level : Level} {left : Expr} {token : Token}
    (front : Builds level s left t) (more : t.seesOperator level = true)
    (operator : take.run t = .ok token t') : Enters (.expression level) s level.inside t'
  /-- The operand after an operator in front. -/
  | prefixed {s t : State} {kind : Kind} {token : Token}
    (unary : kind ∈ [.dot, .minus, .bitwiseNot]) (operator : (expect kind).run s = .ok token t) :
    Enters .operand s .operand t
  /-- What stands in parentheses. -/
  | content {s t : State} {token : Token} (paren : (expect .leftParen).run s = .ok token t)
    (more : t.sees .rightParen = false) : Enters .operand s .operand t
  /-- A call enters each of its arguments. -/
  | argument {s s₁ s₂ t : State} {name : Token} {function : FunctionSymbol}
    (called : s.seesNext .leftParen = true) (front : (expect .identifier).run s = .ok name s₁)
    (visible : s₁.findFunction? name.text = some function)
    (paren : (skip .leftParen).run s₁ = .ok () s₂) (more : s₂.sees .rightParen = false)
    (item : ArgumentAt s₂ t) : Enters .operand s (.expression .xor) t

/-- A part is entered from another one directly or through others, or is the same. -/
inductive Descends : Part → State → Part → State → Prop where
  | here (p : Part) (s : State) : Descends p s p s
  | enter {p q r : Part} {s t u : State} (first : Enters p s q t) (rest : Descends q t r u) :
    Descends p s r u

/-! ## The choice of a rule -/

section

variable {s s₁ s₂ : State} {token : Token} {text : String} {kind : Kind}

/-- A token that is read was the current one. -/
theorem current_of_expect (h : (expect kind).run s = .ok token s₁) : s.current.kind = kind := by
  obtain ⟨rfl, _⟩ := run_advance_ok.mp h
  exact kind_of_expect h

/-- A keyword is seen before it is read. -/
theorem seesKeyword_of_expectKeyword (h : (expectKeyword text).run s = .ok token s₁) :
    s.seesKeyword text = true := by
  obtain ⟨rfl, _⟩ := run_advance_ok.mp h
  obtain ⟨hkind, htext⟩ := keyword_of_expectKeyword h
  simp [State.seesKeyword, Token.isKeyword, hkind, htext]

/-- A keyword is seen before it is skipped. -/
theorem seesKeyword_of_skipKeyword (h : (skipKeyword text).run s = .ok () s₁) :
    s.seesKeyword text = true := by
  obtain ⟨token, h⟩ := run_discard_ok.mp h
  exact seesKeyword_of_expectKeyword h

/-- The rule of the statements that start with a keyword, which a token has as its text. -/
def keywordStatement (token : Token) : (text : String) → Rule Stmt
  | "if" => .conditional <$> conditional
  | "until" => untilStatement
  | "loop" => loop
  | "return" => resultStatement
  | _ => reject token .misplacedKeyword

/-- At a keyword a statement is read by the rule of the keyword. -/
theorem run_statement_of_keyword (h : s.seesKeyword text = true) :
    statement.run s = (keywordStatement s.current text).run s := by
  obtain ⟨hkind, htext⟩ : s.current.kind = .keyword ∧ s.current.text = text := by
    simpa [State.seesKeyword, Token.isKeyword] using h
  rw [statement_eq, statementOver, run_observe_bind, if_pos hkind, htext]
  rfl

/-- Without a keyword in front a statement starts with an expression. -/
theorem run_statement_of_plain (h : s.current.kind ≠ .keyword) :
    statement.run s = simpleStatement.run s := by
  rw [statement_eq, statementOver, run_observe_bind, if_neg h]

/-- What a conditional reads after `else`. -/
def afterElse (head : Token × Expr × List Stmt) : Rule Conditional := do
  if ← observe (·.seesKeyword "if") then
    return .chained head.1 head.2.1 head.2.2 (← conditional)
  else
    return .otherwise head.1 head.2.1 head.2.2 (← braced .elseBranch statement)

/-- With `else` behind its head a conditional goes on from there. -/
theorem run_conditional_of_else {head : Token × Expr × List Stmt}
    (front : (conditionalHead statement).run s = .ok head s₁)
    (keyword : (skipKeyword "else").run s₁ = .ok () s₂) :
    conditional.run s = (afterElse head).run s₂ := by
  rw [conditional_eq, conditionalStep_eq, EStateM.run_bind, front]
  show (observe _ >>= _).run s₁ = _
  rw [run_observe_bind, if_pos (seesKeyword_of_skipKeyword keyword), EStateM.run_bind, keyword]
  rfl

/-- An operand is read as the kind of its first token says. -/
theorem run_operand_over : operand.run s = (operandOver operand).run s :=
  congrArg (fun rule : Rule Expr => rule.run s) operand_eq

/-- An operator in front chooses the node that the operand behind it is put into. -/
theorem exists_run_operand_prefixed (unary : kind ∈ [.dot, .minus, .bitwiseNot])
    (operator : (expect kind).run s = .ok token s₁) :
    ∃ node, operand.run s = (prefixed kind node operand).run s := by
  rw [run_operand_over, operandOver, run_observe_bind, current_of_expect operator]
  simp only [List.mem_cons, List.not_mem_nil, or_false] at unary
  rcases unary with rfl | rfl | rfl
  · exact ⟨.dereference, rfl⟩
  · exact ⟨.negation, rfl⟩
  · exact ⟨.complement, rfl⟩

/-- A left parenthesis starts a group. -/
theorem run_operand_parenthesised (paren : (expect .leftParen).run s = .ok token s₁) :
    operand.run s = (parenthesised operand).run s := by
  rw [run_operand_over, operandOver, run_observe_bind, current_of_expect paren]

/-- A name with a left parenthesis behind it starts a call. -/
theorem run_operand_call (called : s.seesNext .leftParen = true)
    (front : (expect .identifier).run s = .ok token s₁) :
    operand.run s = (call expression).run s := by
  rw [run_operand_over, operandOver, run_observe_bind, current_of_expect front]
  show (observe _ >>= _).run s = _
  rw [run_observe_bind, if_pos called]
  rfl

end

/-! ## Errors -/

section

variable {s s₁ s' t : State} {e : Error}

/-- Where a list is not missing, what fails in it fails in the whole. -/
theorem unlessAt_error {α : Type} {stop : Kind} {items : Rule (List α)}
    (hmore : s.sees stop = false) (h : items.run s = .error e s') :
    (unlessAt stop items).run s = .error e s' := by
  rw [unlessAt, run_observe_bind, hmore]
  exact h

/-- What fails in a statement fails in its body. -/
theorem StatementAt.run_error (h : StatementAt s t) (hitem : statement.run t = .error e s') :
    body.run s = .error e s' := by
  rw [body_eq]
  exact ItemAt.run_error eats_statement h hitem

theorem FunctionAt.run_error (h : FunctionAt s t) (hitem : function.run t = .error e s') :
    functions.run s = .error e s' := by
  rw [functions_eq]
  exact ItemAt.run_error eats_function h hitem

theorem ArgumentAt.run_error (h : ArgumentAt s t) (hitem : expression.run t = .error e s') :
    expressions.run s = .error e s' := by
  rw [expressions_eq]
  exact ItemAt.run_error ((eats_skip .comma).bind fun _ _ => .of_eats eats_expression) h hitem

/-- What fails in a statement fails in the braces around it. -/
theorem BlockAt.run_error {kind : ScopeKind} (h : BlockAt kind s t)
    (hitem : statement.run t = .error e s') : (braced kind statement).run s = .error e s' := by
  obtain ⟨brace, newline, item⟩ := h
  exact run_bind_error_next brace (run_bind_error_next newline
    (run_bind_error_first (StatementAt.run_error item hitem) _))

/-- A body fails in one of its statements. -/
theorem run_body_error (h : body.run s = .error e s') :
    ∃ t, StatementAt s t ∧ statement.run t = .error e s' := by
  rw [body_eq] at h
  rcases run_listOf_error h with hitem | ⟨t, hgap⟩
  · exact hitem
  · exact absurd hgap run_pure_error

/-- The functions of a program fail in one of them. -/
theorem run_functions_error (h : functions.run s = .error e s') :
    ∃ t, FunctionAt s t ∧ function.run t = .error e s' := by
  rw [functions_eq] at h
  rcases run_listOf_error h with hitem | ⟨t, hgap⟩
  · exact hitem
  · exact absurd hgap run_pure_error

/-- What fails in a function that is entered fails in the program. -/
theorem Enters.program_fails {q : Part} (h : Enters .program s q t) (hq : q.Fails t e s') :
    program.run s = .error e s' := by
  cases h with
  | function front item =>
    rw [program_eq]
    exact run_bind_error_next front (run_bind_error_first (FunctionAt.run_error item hq) _)

/-- What fails in a statement that is entered fails in the function. -/
theorem Enters.function_fails {q : Part} (h : Enters .function s q t) (hq : q.Fails t e s') :
    Grammar.function.run s = .error e s' := by
  cases h with
  | body front lines more item =>
    rw [function_eq]
    refine run_bind_error_next front (run_bind_error_first ?_ _)
    refine run_bind_error_next lines (run_bind_error_first ?_ _)
    exact unlessAt_error more (StatementAt.run_error item hq)

/-- What fails in a part that is entered fails in the statement. -/
theorem Enters.statement_fails {q : Part} (h : Enters .statement s q t) (hq : q.Fails t e s') :
    statement.run s = .error e s' := by
  cases h with
  | conditional keyword =>
    rw [run_statement_of_keyword keyword]
    exact run_map_error.mpr hq
  | untilCondition keyword mark =>
    rw [run_statement_of_keyword (seesKeyword_of_expectKeyword keyword)]
    exact run_bind_error_next keyword (run_bind_error_next mark (run_bind_error_first hq _))
  | loopBody front more item =>
    obtain ⟨_, _, keyword, _⟩ := run_bind_ok.mp front
    rw [run_statement_of_keyword (seesKeyword_of_expectKeyword keyword)]
    show loop.run s = _
    rw [loop_eq]
    refine run_bind_error_next front (run_bind_error_first ?_ _)
    exact unlessAt_error more (StatementAt.run_error item hq)
  | result keyword more =>
    rw [run_statement_of_keyword (seesKeyword_of_expectKeyword keyword)]
    refine run_bind_error_next keyword ?_
    rw [run_observe_bind, more]
    exact run_bind_error_first hq _
  | target plain =>
    rw [run_statement_of_plain plain]
    exact run_bind_error_first hq _
  | @stored _ s₁ _ _ _ plain front colon =>
    have hcolon : s₁.sees .colon = true := decide_eq_true (current_of_expect colon)
    rw [run_statement_of_plain plain]
    refine run_bind_error_next front ?_
    rw [run_observe_bind, hcolon]
    exact run_bind_error_next colon (run_bind_error_first hq _)

/-- What fails in a part that is entered fails in the conditional. -/
theorem Enters.conditional_fails {q : Part} (h : Enters .conditional s q t)
    (hq : q.Fails t e s') : Grammar.conditional.run s = .error e s' := by
  cases h with
  | condition keyword =>
    rw [conditional_eq]
    exact run_bind_error_next keyword (run_bind_error_first hq _)
  | branch keyword front item =>
    rw [conditional_eq]
    exact run_bind_error_next keyword (run_bind_error_next front
      (run_bind_error_first (item.run_error hq) _))
  | alternative front keyword last item =>
    rw [run_conditional_of_else front keyword, afterElse, run_observe_bind, last]
    exact run_bind_error_first (item.run_error hq) _
  | chained front keyword more =>
    rw [run_conditional_of_else front keyword, afterElse, run_observe_bind, if_pos more]
    exact run_bind_error_first hq _

/-- What fails in an operand that is entered fails in its level. -/
theorem Enters.expression_fails {level : Level} {q : Part} (h : Enters (.expression level) s q t)
    (hq : q.Fails t e s') : (expressionFrom level).run s = .error e s' := by
  cases h with
  | first =>
    rw [expressionFrom_eq]
    exact run_bind_error_first ((level.fails_inside _ e s').mp hq) _
  | right front more operator =>
    have hright := (level.fails_inside _ e s').mp hq
    exact front.run_error more (run_bind_error_next operator (run_bind_error_first hright _))

/-- What fails in a part that is entered fails in the operand. -/
theorem Enters.operand_fails {q : Part} (h : Enters .operand s q t) (hq : q.Fails t e s') :
    operand.run s = .error e s' := by
  cases h with
  | prefixed unary operator =>
    obtain ⟨node, hrun⟩ := exists_run_operand_prefixed unary operator
    rw [hrun]
    exact run_bind_error_next operator (run_bind_error_first hq _)
  | content paren more =>
    rw [run_operand_parenthesised paren]
    refine run_bind_error_next paren ?_
    rw [run_observe_bind, more]
    exact run_bind_error_first hq _
  | argument called front visible paren more item =>
    rw [run_operand_call called front]
    refine run_bind_error_next front ?_
    rw [run_observe_bind, visible]
    refine run_bind_error_next paren (run_bind_error_first ?_ _)
    exact unlessAt_error more (ArgumentAt.run_error item hq)

/-- What fails in a part that is entered fails in the part that enters it. -/
theorem Enters.fails {p q : Part} (h : Enters p s q t) (hq : q.Fails t e s') : p.Fails s e s' := by
  cases p with
  | program => exact h.program_fails hq
  | function => exact h.function_fails hq
  | statement => exact h.statement_fails hq
  | conditional => exact h.conditional_fails hq
  | expression => exact h.expression_fails hq
  | operand => exact h.operand_fails hq

/-- What fails where a part descends to fails in the part. -/
theorem Descends.fails {p q : Part} (h : Descends p s q t) (hq : q.Fails t e s') :
    p.Fails s e s' := by
  induction h with
  | here => exact hq
  | enter first _ ih => exact first.fails (ih hq)

end

/-! ## Tokens left -/

/-- The weight of a part: one that is entered with no token read weighs less. -/
def Part.weight : Part → Nat
  | .operand => 0
  | .expression level => operandRank - level.rank
  | .conditional => operandRank + 1
  | .statement => operandRank + 2
  | .function => operandRank + 3
  | .program => operandRank + 4

section

variable {s t : State}

/-- Lines in front of functions hold no statements, so no bound matters to them. -/
theorem agree_preamble {n : Nat} : Agree n preamble preamble :=
  (Agree.whilst (fun _ => .of_eats (eats_skip .newline)) ()).bind fun _ =>
    agree_variableLines.bind fun _ => .observe _ fun _ => .observe _ fun _ =>
      (Agree.require _ _ _).bind fun _ => .pure _

/-- The head of a loop takes its keyword. -/
theorem eats_loopHead : Eats loopHead :=
  (eats_expectKeyword "loop").bind fun _ _ => (Agree.of_eats (eats_openScope .loop)).bind fun _ =>
    .observe _ fun _ => (Agree.of_eats (eats_skip .newline)).bind fun _ => .pure _

theorem eats_conditionalHead : Eats (conditionalHead statement) :=
  (eats_expectKeyword "if").bind fun _ _ => (Agree.of_eats eats_expression).bind fun _ =>
    (agree_braced .ifBranch (.of_eats eats_statement)).bind fun _ => .pure _

/-- A statement starts where its body does, or later. -/
theorem StatementAt.length_le (h : StatementAt s t) : t.rest.length ≤ s.rest.length :=
  ItemAt.length_le eats_statement (fun _ => .pure ()) h

theorem FunctionAt.length_le (h : FunctionAt s t) : t.rest.length ≤ s.rest.length :=
  ItemAt.length_le eats_function (fun _ => .pure ()) h

theorem ArgumentAt.length_le (h : ArgumentAt s t) : t.rest.length ≤ s.rest.length :=
  ItemAt.length_le eats_expression (fun _ => .of_eats (eats_skip .comma)) h

/-- A statement in braces starts behind the left brace. -/
theorem BlockAt.length_lt {kind : ScopeKind} (h : BlockAt kind s t) :
    t.rest.length < s.rest.length := by
  obtain ⟨brace, newline, item⟩ := h
  have hbrace := eats_openScope kind _ _ _ brace
  have hnewline := eats_skip .newline _ _ _ newline
  have hitem := StatementAt.length_le item
  omega

/-- What is inside a level weighs less than the level. -/
theorem Level.weight_inside (level : Level) :
    level.inside.weight < (Part.expression level).weight := by
  cases level <;> decide

/-- A part that is entered has fewer tokens left, or no more and a smaller weight. -/
theorem Enters.length_lt {p q : Part} (h : Enters p s q t) : t.rest.length < s.rest.length ∨
    t.rest.length ≤ s.rest.length ∧ q.weight < p.weight := by
  -- Only where nothing need be read in front does the weight decide.
  cases h with
  | function front item =>
    have hfront := agree_preamble.length_le _ _ _ (Nat.lt_succ_self _) front
    exact .inr ⟨Nat.le_trans (FunctionAt.length_le item) hfront, by decide⟩
  | body front lines more item =>
    have hfront := eats_functionHead _ _ _ front
    have hlines := agree_variableLines.length_le _ _ _ (Nat.lt_succ_self _) lines
    have hitem := StatementAt.length_le item
    exact .inl (by omega)
  | conditional => exact .inr ⟨Nat.le_refl _, by decide⟩
  | untilCondition keyword mark =>
    have hkeyword := eats_expectKeyword _ _ _ _ keyword
    have hmark := agree_markLoop.length_le _ _ _ (Nat.lt_succ_self _) mark
    exact .inl (by omega)
  | loopBody front more item =>
    exact .inl (Nat.lt_of_le_of_lt (StatementAt.length_le item) (eats_loopHead _ _ _ front))
  | result keyword more => exact .inl (eats_expectKeyword _ _ _ _ keyword)
  | target => exact .inr ⟨Nat.le_refl _, by decide⟩
  | stored plain front colon =>
    exact .inl (Nat.lt_trans (eats_expect .colon _ _ _ colon) (eats_expression _ _ _ front))
  | condition keyword => exact .inl (eats_expectKeyword _ _ _ _ keyword)
  | branch keyword front item =>
    have hkeyword := eats_expectKeyword _ _ _ _ keyword
    have hfront := eats_expression _ _ _ front
    have hitem := item.length_lt
    exact .inl (by omega)
  | alternative front keyword last item =>
    have hfront := eats_conditionalHead _ _ _ front
    have hkeyword := eats_skipKeyword _ _ _ _ keyword
    have hitem := item.length_lt
    exact .inl (by omega)
  | chained front keyword more =>
    exact .inl (Nat.lt_trans (eats_skipKeyword _ _ _ _ keyword) (eats_conditionalHead _ _ _ front))
  | first level => exact .inr ⟨Nat.le_refl _, level.weight_inside⟩
  | right front more operator =>
    exact .inl (Nat.lt_trans (eats_advance _ _ _ _ _ _ operator) front.length_lt)
  | prefixed unary operator => exact .inl (eats_expect _ _ _ _ operator)
  | content paren more => exact .inl (eats_expect _ _ _ _ paren)
  | argument called front visible paren more item =>
    have hfront := eats_expect _ _ _ _ front
    have hparen := eats_skip _ _ _ _ paren
    have hitem := ArgumentAt.length_le item
    exact .inl (by omega)

end

/-- No descent goes on for ever. -/
theorem wellFounded_enters : WellFounded fun next place : Part × State =>
    Enters place.1 place.2 next.1 next.2 := by
  have hlex : WellFounded (Prod.Lex (· < ·) (· < ·) : Nat × Nat → Nat × Nat → Prop) :=
    WellFoundedRelation.wf
  refine Subrelation.wf (fun {next place} h => ?_)
    (InvImage.wf (fun place : Part × State => (place.2.rest.length, place.1.weight)) hlex)
  rcases h.length_lt with hlt | ⟨hle, hweight⟩
  · exact .left _ _ hlt
  · exact Prod.Lex.right' _ hle hweight

end Tranquility.Grammar
