import Tranquility.Proofs.Parallel.Expression

/-!
# Statements side by side

The two runs of a statement read trees that are the same without places. Its braces open and close
scopes, and `until` marks one: what is carried along must be kept by these three steps.
-/

namespace Tranquility

/-- The statements are the same without the places of their tokens. -/
def Stmt.Like (stmt stmt' : Stmt) : Prop :=
  stmt.bare = stmt'.bare

/-- The conditionals are the same without the places of their tokens. -/
def Conditional.Like (conditional conditional' : Conditional) : Prop :=
  conditional.bare = conditional'.bare

/-- The property of scopes is kept where blocks open and close and where a loop is marked. -/
structure Scopes.Lasting (keeps : Scopes → Prop) : Prop where
  opened : ∀ {scopes : Scopes}, keeps scopes → ∀ kind, keeps (scopes.opened kind)
  closed : ∀ {scopes : Scopes}, keeps scopes → keeps scopes.closed
  markLoop : ∀ {scopes : Scopes}, keeps scopes → keeps scopes.markLoop

namespace Grammar

variable {pairing : Pairing} {keeps : Scopes → Prop} {statement : Rule Stmt}

/-! ## Blocks -/

/-- Side by side two scopes of one kind are opened. -/
theorem openScope_parallel (hlasting : Scopes.Lasting keeps) (kind : ScopeKind) :
    Parallel pairing keeps (fun _ _ => True) (openScope kind) (openScope kind) := by
  have hbrace : Parallel pairing keeps (fun _ _ => True)
      (advance (some .leftBrace) none (some kind))
      (advance (some .leftBrace) none (some kind)) := by
    intro s t h
    refine (advance_ends h (by simp) fun scopes hrefusal hpass => ?_).mono fun _ _ _ => trivial
    have hkind := (Token.refusal?_eq_none_iff.mp hrefusal).1 .leftBrace rfl
    rw [Scopes.pass, hkind] at hpass
    obtain ⟨_, rfl⟩ := Scopes.enter_eq_ok_iff.mp hpass
    exact hlasting.opened h.kept kind
  exact hbrace.discard

/-- Side by side the current scopes are closed. -/
theorem closeScope_parallel (hlasting : Scopes.Lasting keeps) :
    Parallel pairing keeps (fun _ _ => True) (skip .rightBrace) (skip .rightBrace) := by
  have hbrace : Parallel pairing keeps (fun _ _ => True) (expect .rightBrace)
      (expect .rightBrace) := by
    intro s t h
    refine (advance_ends h (by simp) fun scopes hrefusal hpass => ?_).mono fun _ _ _ => trivial
    have hkind := (Token.refusal?_eq_none_iff.mp hrefusal).1 .rightBrace rfl
    rw [Scopes.pass, hkind] at hpass
    obtain ⟨_, rfl⟩ := Scopes.leave_eq_ok_iff.mp hpass
    exact hlasting.closed h.kept
  exact hbrace.discard

/-- Bodies have as many statements on both sides. -/
theorem bodyOver_parallel (hstatement : Parallel pairing keeps Stmt.Like statement statement) :
    Parallel pairing keeps (List.Forall₂ Stmt.Like) (bodyOver statement) (bodyOver statement) :=
  hstatement.bind fun _ _ hfirst =>
    collect_parallel (fun _ _ h => congrArg (!·) (h.sees_eq .rightBrace)) hstatement
      (.cons hfirst .nil)

/-- Bodies in braces are read side by side, in scopes of one kind. -/
theorem braced_parallel (hlasting : Scopes.Lasting keeps) (kind : ScopeKind)
    (hstatement : Parallel pairing keeps Stmt.Like statement statement) :
    Parallel pairing keeps (List.Forall₂ Stmt.Like) (braced kind statement)
      (braced kind statement) := by
  refine (openScope_parallel hlasting kind).bind fun _ _ _ => ?_
  refine (skip_parallel rfl).bind fun _ _ _ => ?_
  refine (bodyOver_parallel hstatement).bind fun body body' hbody => ?_
  refine (closeScope_parallel hlasting).bind fun _ _ _ => ?_
  exact (skip_parallel rfl).bind fun _ _ _ => .pure hbody

/-! ## Conditionals -/

/-- A keyword goes together with one that is the same without its place. -/
theorem bare_eq_of_keyword {a b : Token} (h : pairing.token a b ∧ a.kind = .keyword) :
    a.bare = b.bare :=
  pairing.bare_eq h.1 (by rw [h.2]; decide)

/-- As many conditionals are chained on both sides. -/
theorem conditionalWithin_parallel (hlasting : Scopes.Lasting keeps)
    (hstatement : Parallel pairing keeps Stmt.Like statement statement) (depth : Nat) :
    Parallel pairing keeps Conditional.Like (conditionalWithin statement depth)
      (conditionalWithin statement depth) := by
  induction depth with
  | zero => exact .observeCurrent fun _ _ htoken => .reject htoken (.expectedKind .keyword)
  | succ depth ih =>
    refine (expectKeyword_parallel "if").bind fun token token' htoken => ?_
    have hbare := bare_eq_of_keyword htoken
    refine expression_parallel.bind fun condition condition' hcondition => ?_
    refine (braced_parallel hlasting .ifBranch hstatement).bind fun body body' hbody => ?_
    refine .observe (fun _ _ h => h.seesKeyword_eq "else") fun _ => .ite ?_ ?_
    · refine (skipKeyword_parallel "else").bind fun _ _ _ => ?_
      refine .observe (fun _ _ h => h.seesKeyword_eq "if") fun _ => .ite ?_ ?_
      · refine ih.bind fun next next' hnext => .pure ?_
        rw [Conditional.Like, Conditional.bare, Conditional.bare, hbare, hcondition,
          Stmt.bareAll_eq hbody, hnext]
      · refine (braced_parallel hlasting .elseBranch hstatement).bind
          fun alternative alternative' halternative => .pure ?_
        rw [Conditional.Like, Conditional.bare, Conditional.bare, hbare, hcondition,
          Stmt.bareAll_eq hbody, Stmt.bareAll_eq halternative]
    · refine .pure ?_
      rw [Conditional.Like, Conditional.bare, Conditional.bare, hbare, hcondition,
        Stmt.bareAll_eq hbody]

/-- Conditionals are read side by side if their statements are. -/
theorem conditionalOver_parallel (hlasting : Scopes.Lasting keeps)
    (hstatement : Parallel pairing keeps Stmt.Like statement statement) :
    Parallel pairing keeps Conditional.Like (conditionalOver statement)
      (conditionalOver statement) :=
  .observe (fun _ _ h => congrArg (· + 1) h.length_eq)
    (conditionalWithin_parallel hlasting hstatement)

/-! ## Other statements -/

/-- A loop is current on both sides or on neither. -/
theorem markLoop_parallel (hlasting : Scopes.Lasting keeps) :
    Parallel pairing keeps (fun _ _ => True) markLoop markLoop := by
  intro s t h
  refine .ok trivial (h.settled ?_ (hlasting.markLoop h.kept))
  rw [Scopes.markLoop_bare, Scopes.markLoop_bare, h.scopes]

/-- Side by side two loops get their marks. -/
theorem untilStatement_parallel (hlasting : Scopes.Lasting keeps) :
    Parallel pairing keeps Stmt.Like untilStatement untilStatement := by
  refine (expectKeyword_parallel "until").bind fun token token' htoken => ?_
  refine (markLoop_parallel hlasting).bind fun _ _ _ => ?_
  refine expression_parallel.bind fun condition condition' hcondition => ?_
  refine (skip_parallel rfl).bind fun _ _ _ => .pure ?_
  rw [Stmt.Like, Stmt.bare, Stmt.bare, bare_eq_of_keyword htoken, hcondition]

/-- Loops have `until` statements on both sides or on neither. -/
theorem loopOver_parallel (hlasting : Scopes.Lasting keeps)
    (hstatement : Parallel pairing keeps Stmt.Like statement statement) :
    Parallel pairing keeps Stmt.Like (loopOver statement) (loopOver statement) := by
  refine (expectKeyword_parallel "loop").bind fun token token' htoken => ?_
  refine (openScope_parallel hlasting .loop).bind fun _ _ _ => ?_
  refine .observe (fun _ _ h => h.scope_eq) fun scope => ?_
  refine (skip_parallel rfl).bind fun _ _ _ => ?_
  refine (unlessAt_parallel .rightBrace (bodyOver_parallel hstatement)).bind
    fun body body' hbody => ?_
  refine .observe (fun _ _ h => h.hasUntil_eq scope) fun marked => ?_
  refine (Parallel.require htoken.1 marked .endlessLoop).bind fun _ _ _ => ?_
  refine (closeScope_parallel hlasting).bind fun _ _ _ => ?_
  refine (skip_parallel rfl).bind fun _ _ _ => .pure ?_
  rw [Stmt.Like, Stmt.bare, Stmt.bare, bare_eq_of_keyword htoken, Stmt.bareAll_eq hbody]

/-- A value is returned on both sides or on neither. -/
theorem resultStatement_parallel :
    Parallel pairing keeps Stmt.Like resultStatement resultStatement := by
  refine (expectKeyword_parallel "return").bind fun token token' htoken => ?_
  have hbare := bare_eq_of_keyword htoken
  refine .observe (fun _ _ h => h.sees_eq .newline) fun _ => .ite ?_ ?_
  · exact (skip_parallel rfl).bind fun _ _ _ => .pure (congrArg (Stmt.result · none) hbare)
  · refine expression_parallel.bind fun value value' hvalue => ?_
    refine (skip_parallel rfl).bind fun _ _ _ => .pure ?_
    rw [Stmt.Like, Stmt.bare, Stmt.bare, hbare, Option.map_some, Option.map_some, hvalue]

/-- Both sides are assignments or neither is. -/
theorem simpleStatement_parallel :
    Parallel pairing keeps Stmt.Like simpleStatement simpleStatement := by
  refine expression_parallel.bind fun value value' hvalue => ?_
  refine .observe (fun _ _ h => h.sees_eq .colon) fun _ => .ite ?_ ?_
  · refine (expect_parallel rfl).bind fun colon colon' ⟨htoken, hkind⟩ => ?_
    refine expression_parallel.bind fun stored stored' hstored => ?_
    refine (skip_parallel rfl).bind fun _ _ _ => .pure ?_
    rw [Stmt.Like, Stmt.bare, Stmt.bare, pairing.bare_eq htoken (by rw [hkind]; decide), hvalue,
      hstored]
  · refine .observe (fun _ _ h => h.sees_eq .newline) fun _ => .ite ?_ ?_
    · exact (skip_parallel rfl).bind fun _ _ _ => .pure (congrArg Stmt.expression hvalue)
    · exact .observeCurrent fun _ _ htoken => .reject htoken .expectedStatement

/-! ## Statements -/

/-- The current token chooses the same statement on both sides. -/
theorem statementOver_parallel (hlasting : Scopes.Lasting keeps)
    (hstatement : Parallel pairing keeps Stmt.Like statement statement) :
    Parallel pairing keeps Stmt.Like (statementOver statement) (statementOver statement) := by
  refine .observeCurrent fun a b htoken => ?_
  rw [pairing.kind_eq htoken]
  by_cases hkeyword : b.kind = .keyword
  · have hnewline : a.kind ≠ .newline := by rw [pairing.kind_eq htoken, hkeyword]; decide
    rw [if_pos hkeyword, if_pos hkeyword, pairing.text_eq htoken hnewline]
    split
    case h_1 =>
      exact (conditionalOver_parallel hlasting hstatement).map fun _ _ hconditional =>
        congrArg Stmt.conditional hconditional
    case h_2 => exact untilStatement_parallel hlasting
    case h_3 => exact loopOver_parallel hlasting hstatement
    case h_4 => exact resultStatement_parallel
    case h_5 => exact .reject htoken .misplacedKeyword
  · rw [if_neg hkeyword, if_neg hkeyword]
    exact simpleStatement_parallel

/-- Statements are read side by side within any depth. -/
theorem statementWithin_parallel (hlasting : Scopes.Lasting keeps) (depth : Nat) :
    Parallel pairing keeps Stmt.Like (statementWithin depth) (statementWithin depth) := by
  induction depth with
  | zero => exact .observeCurrent fun _ _ htoken => .reject htoken .expectedExpression
  | succ depth ih => exact statementOver_parallel hlasting ih

/-- As many tokens are left on both sides, so that statements are nested within the same depth. -/
theorem statement_parallel (hlasting : Scopes.Lasting keeps) :
    Parallel pairing keeps Stmt.Like Grammar.statement Grammar.statement :=
  .observe (fun _ _ h => congrArg (· + 1) h.length_eq) (statementWithin_parallel hlasting)

/-- The statements of a function, up to its right brace. -/
theorem body_parallel (hlasting : Scopes.Lasting keeps) :
    Parallel pairing keeps (List.Forall₂ Stmt.Like) body body :=
  bodyOver_parallel (statement_parallel hlasting)

end Grammar

end Tranquility
