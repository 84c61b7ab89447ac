import Mathlib.Logic.Function.Iterate
import Tranquility.Proofs.Steps.Lookahead

/-!
# Progress of a parse

A rule that ends well has read a token, unless it is the one for lines that declare variables, which
may be missing. So wherever a rule is entered again, in a loop or in a nested part, fewer tokens are
left. To be sure that it is not the bounds in the rules which make them end, the recursions of the
grammar are unfolded without any bound: as often as there are tokens left they may be unfolded, and
what stands where they are not unfolded any more is never reached.
-/

namespace Tranquility.Grammar

/-! ## Recursions -/

section

variable {ι α : Type} {unfold : (ι → Rule α) → ι → Rule α} {rule : ι → Rule α}

/-- A recursion, told by what it is made of where it stands for itself, ends in a rule. -/
structure Terminates (unfold : (ι → Rule α) → ι → Rule α) (rule : ι → Rule α) : Prop where
  /-- It is entered again with fewer tokens left only: what stands for it elsewhere does not
  matter. -/
  guarded : ∀ (other : ι → Rule α) (i : ι) (s : State),
    (∀ j t, t.rest.length < s.rest.length → (other j).run t = (rule j).run t) →
      (unfold other i).run s = (rule i).run s
  /-- Unfolded more often than there are tokens left, it comes to the rule, whatever stands where it
  is not unfolded any more. -/
  finite : ∀ (other : ι → Rule α) (n : Nat) (i : ι) (s : State), s.rest.length < n →
    (unfold^[n] other i).run s = (rule i).run s

/-- Each time that a guarded recursion is entered again a token less is left. -/
theorem Terminates.of_guarded
    (guarded : ∀ (other : ι → Rule α) (i : ι) (s : State),
      (∀ j t, t.rest.length < s.rest.length → (other j).run t = (rule j).run t) →
        (unfold other i).run s = (rule i).run s) : Terminates unfold rule where
  guarded := guarded
  finite other n := by
    induction n with
    | zero => exact fun _ _ hn => absurd hn (Nat.not_lt_zero _)
    | succ n ih =>
      intro i s hn
      rw [Function.iterate_succ_apply']
      exact guarded _ i s fun j t ht => ih j t (Nat.lt_of_lt_of_le ht (Nat.le_of_lt_succ hn))

/-- What agrees with a rule that reads a token agrees with it after a token. -/
theorem agree_of_guarded {x y : Rule α} {s : State} (heats : Eats y)
    (h : ∀ t, t.rest.length < s.rest.length → x.run t = y.run t) : Agree s.rest.length x y :=
  ⟨h, fun t a t' _ hrun => Nat.le_of_lt (heats t a t' hrun)⟩

end

/-- A loop whose rounds read a token ends. -/
theorem terminates_whilst {α : Type} {continues : State → Bool} {step : α → Rule α}
    (hstep : ∀ a, Eats (step a)) : Terminates (fun self a => do
      if ← observe continues then
        let b ← step a
        self b
      else
        return a) (whilst continues step) := by
  refine .of_guarded fun other a s h => ?_
  rw [whilst_eq hstep, run_observe_bind, run_observe_bind]
  split
  case isTrue =>
    rw [EStateM.run_bind, EStateM.run_bind]
    cases hrun : (step a).run s with
    | ok b s₁ => exact h b s₁ (hstep a s b s₁ hrun)
    | error e s₁ => rfl
  case isFalse => rfl

/-! ## The loops of the grammar -/

/-- The loops of the grammar, each by what it goes through. -/
inductive Loop where
  /-- The newlines in front of a program. -/
  | newlines
  | variableLines
  /-- The names of a list, after the first of them. -/
  | names
  /-- The functions of a program, after the first of them. -/
  | functions
  /-- The statements of a body, after the first of them. -/
  | statements
  /-- The arguments of a call, after the first of them. -/
  | arguments
  /-- The operators of a level, each with the operand after it. -/
  | operators (level : Level)
  deriving DecidableEq, Repr

namespace Loop

/-- What a loop has gathered so far. -/
def Value : Loop → Type
  | newlines => Unit
  | variableLines => List (List Token)
  | names => List Token
  | functions => List FunctionDecl
  | statements => List Stmt
  | arguments => List Expr
  | operators _ => Expr

/-- The loop goes on for another round. -/
def continues : Loop → State → Bool
  | newlines, s => s.sees .newline
  | variableLines, s => s.seesKeyword "var"
  | names, s => s.sees .comma
  | functions, s => s.seesKeyword "fun"
  | statements, s => !s.sees .rightBrace
  | arguments, s => s.sees .comma
  | operators level, s => s.seesOperator level

/-- Read one more item of a list. -/
def gather {α : Type} (item : Rule α) (items : List α) : Rule (List α) := do
  return items ++ [← item]

/-- A round of a loop. -/
def round : (loop : Loop) → loop.Value → Rule loop.Value
  | newlines => fun _ => skip .newline
  | variableLines => gather variableLine
  | names => gather (do skip .comma; expect .identifier)
  | functions => gather function
  | statements => gather statement
  | arguments => gather (do skip .comma; expression)
  | operators level => chainRound level level.operandRule

/-- The rounds of a loop, one after the other. -/
def rule (loop : Loop) : loop.Value → Rule loop.Value :=
  whilst loop.continues loop.round

/-- A round that gathers an item takes the tokens of the item. -/
theorem eats_gather {α : Type} {item : Rule α} (h : Eats item) (items : List α) :
    Eats (gather item items) :=
  h.bind fun _ _ => .pure _

/-- Every round of a loop reads a token. -/
theorem eats_round (loop : Loop) (value : loop.Value) : Eats (loop.round value) := by
  cases loop with
  | newlines => exact eats_skip .newline
  | variableLines => exact eats_gather eats_variableLine value
  | names =>
    exact eats_gather ((eats_skip .comma).bind fun _ _ => .of_eats (eats_expect .identifier)) value
  | functions => exact eats_gather eats_function value
  | statements => exact eats_gather eats_statement value
  | arguments =>
    exact eats_gather ((eats_skip .comma).bind fun _ _ => .of_eats eats_expression) value
  | operators level => exact eats_chainRound level value

end Loop

/-- These are the loops in the rules of the grammar. -/
theorem rules_of_loops :
    preamble = (do
      Loop.newlines.rule ()
      let globals ← variableLines
      let first ← observe State.current
      require (first.isKeyword "fun") first (← observe State.startFault)
      return globals) ∧
    variableLines = Loop.variableLines.rule [] ∧
    identifiers = (do let first ← expect .identifier; Loop.names.rule [first]) ∧
    functions = (do let first ← function; Loop.functions.rule [first]) ∧
    body = (do let first ← statement; Loop.statements.rule [first]) ∧
    expressions = (do let first ← expression; Loop.arguments.rule [first]) ∧
    ∀ level, expressionFrom level = (do
      let first ← level.operandRule
      (Loop.operators level).rule first) :=
  ⟨rfl, rfl, rfl, rfl, rfl, rfl, expressionFrom_eq⟩

/-! ## The recursions of the grammar -/

/-- The rules of the grammar that stand for themselves in what they are made of. -/
inductive Recursion where
  | operand
  | statement
  | conditional
  | loop (which : Loop)
  deriving DecidableEq, Repr

namespace Recursion

/-- What a recursion starts with. -/
def Index : Recursion → Type
  | .loop which => which.Value
  | .operand | .statement | .conditional => Unit

/-- What a recursion yields. -/
def Value : Recursion → Type
  | .operand => Expr
  | .statement => Stmt
  | .conditional => Conditional
  | .loop which => which.Value

/-- What a recursion is made of, where `self` stands for itself. -/
def unfold : (recursion : Recursion) → (recursion.Index → Rule recursion.Value) →
    recursion.Index → Rule recursion.Value
  | .operand => fun self _ => operandOver (self ())
  | .statement => fun self _ => statementOver (self ())
  | .conditional => fun self _ => conditionalStep Grammar.statement (self ())
  | .loop which => fun self value => do
    if ← observe which.continues then
      let value ← which.round value
      self value
    else
      return value

/-- The rule that a recursion ends in. -/
def rule : (recursion : Recursion) → recursion.Index → Rule recursion.Value
  | .operand => fun _ => Grammar.operand
  | .statement => fun _ => Grammar.statement
  | .conditional => fun _ => Grammar.conditional
  | .loop which => which.rule

end Recursion

/-- Every conditional takes a token. -/
theorem eats_conditional : Eats conditional :=
  AgreeAfter.eats fun _ => agree_conditionalOver (.of_eats eats_statement)

/-- Every recursion of the grammar ends. -/
theorem Recursion.terminates (recursion : Recursion) :
    Terminates recursion.unfold recursion.rule := by
  cases recursion with
  | operand =>
    refine .of_guarded fun other _ s h => ?_
    show (operandOver (other ())).run s = Grammar.operand.run s
    rw [operand_eq]
    exact (agree_operandOver (agree_of_guarded eats_operand (h ()))).run_eq s (Nat.le_refl _)
  | statement =>
    refine .of_guarded fun other _ s h => ?_
    show (statementOver (other ())).run s = Grammar.statement.run s
    rw [statement_eq]
    exact (agree_statementOver (agree_of_guarded eats_statement (h ()))).run_eq s (Nat.le_refl _)
  | conditional =>
    refine .of_guarded fun other _ s h => ?_
    show (conditionalStep Grammar.statement (other ())).run s = Grammar.conditional.run s
    rw [conditional_eq]
    exact (agree_conditionalStep (.of_eats eats_statement)
      (agree_of_guarded eats_conditional (h ()))).run_eq s (Nat.le_refl _)
  | loop which => exact terminates_whilst which.eats_round

/-! ## Tokens read -/

/-- Every program takes at least the tokens of its functions. -/
theorem eats_program : Eats program := by
  rw [program_eq]
  exact .of_next (fun _ => agree_preamble) fun _ => eats_functions.bind fun _ _ =>
    .observe _ fun _ => .observe _ fun _ => (Agree.require _ _ _).bind fun _ => .pure _

/-- Every rule of the grammar reads a token, except that no variables need be declared. -/
theorem Nonterminal.eats (part : Nonterminal) (h : part ≠ .variableLines) : Eats part.rule := by
  cases part with
  | program => exact eats_program
  | functions => exact eats_functions
  | function => exact eats_function
  | variableLines => exact absurd rfl h
  | identifiers => exact eats_identifiers
  | body => exact eats_statement.bind fun first _ => .collect (.of_eats eats_statement) [first]
  | statement => exact eats_statement
  | conditional => exact eats_conditional
  | untilStatement => exact AgreeAfter.eats fun _ => agree_untilStatement
  | loop => exact AgreeAfter.eats fun _ => agree_loopOver (.of_eats eats_statement)
  | resultStatement => exact AgreeAfter.eats fun _ => agree_resultStatement
  | expressions =>
    exact eats_expression.bind fun first _ => .collect ((Agree.of_eats (eats_skip .comma)).bind
      fun _ => .of_eats eats_expression) [first]
  | expression level => exact eats_climb _ eats_operand
  | operand => exact eats_operand
  | literal => exact AgreeAfter.eats fun _ => agree_literal

/-- What is entered from a part has fewer tokens left, or no more and no greater weight. -/
theorem Descends.length_le {p q : Part} {s t : State} (h : Descends p s q t) :
    t.rest.length < s.rest.length ∨ t.rest.length ≤ s.rest.length ∧ q.weight ≤ p.weight := by
  induction h with
  | here => exact .inr ⟨Nat.le_refl _, Nat.le_refl _⟩
  | enter first _ ih =>
    have hfirst := first.length_lt
    omega

/-- Every rule of the grammar ends on all tokens and wherever it starts. One that ends well has read
a token, apart from the lines that declare variables; every round of a loop reads a token; no
recursion is unfolded more often than there are tokens left; a part that is entered again inside
itself has fewer tokens left than where it was entered first; and no descent into parts goes on for
ever. -/
theorem rules_terminate :
    (∀ part : Nonterminal, part ≠ .variableLines → ∀ s a s', part.rule.run s = .ok a s' →
      s'.rest.length < s.rest.length ∧ s.position < s'.position) ∧
    (∀ (loop : Loop) (value value' : loop.Value) (s s' : State),
      (loop.round value).run s = .ok value' s' → s'.rest.length < s.rest.length) ∧
    (∀ recursion : Recursion, Terminates recursion.unfold recursion.rule) ∧
    (∀ (p q : Part) (s t u : State), Enters p s q t → Descends q t p u →
      u.rest.length < s.rest.length) ∧
    WellFounded fun next place : Part × State => Enters place.1 place.2 next.1 next.2 := by
  refine ⟨fun part hpart s a s' hrun => ?_, fun loop value value' s s' => loop.eats_round _ _ _ _,
    Recursion.terminates, fun p q s t u henters hdescends => ?_, wellFounded_enters⟩
  · have hlt := part.eats hpart s a s' hrun
    obtain ⟨read, hread⟩ := part.made.isLocal.onward s trivial
    rw [hrun] at hread
    exact ⟨hlt, hread.position_lt hlt⟩
  · have henters := henters.length_lt
    have hdescends := hdescends.length_le
    omega

/-- An operand in two pairs of parentheses is read with fewer levels of nesting than it has tokens.
-/
theorem rules_terminate_nested : ∃ tokens expr s', tokenize "((1))" = .ok tokens ∧
    operand.run (.ofTokens tokens .empty) = .ok expr s' ∧ s'.rest.length < tokens.length ∧
      0 < s'.position ∧ ∀ other, ((Recursion.operand.unfold)^[6] other ()).run
        (.ofTokens tokens .empty) = .ok expr s' := by
  have htokens := tokenize_eq "((1))"
  have hok : reaches (fun _ _ => true) (operand.run (.ofTokens (Token.significant (scan
      "((1))").tokens) .empty)) = true := by decide +kernel
  have hlength : (Token.significant (scan "((1))").tokens).length < 6 := by decide +kernel
  obtain ⟨expr, s', hrun, _⟩ := exists_ok_of_reaches hok
  obtain ⟨hadvances, _, hterminates, _⟩ := rules_terminate
  obtain ⟨hrest, hposition⟩ := hadvances .operand (by decide) _ expr s' hrun
  refine ⟨_, expr, s', htokens, hrun, hrest, hposition, fun other => ?_⟩
  exact ((hterminates .operand).finite other 6 () _ hlength).trans hrun

end Tranquility.Grammar
