import Tranquility.Proofs.Failing.Expression
import Tranquility.Proofs.Reading.Statement

/-!
# How statements fail

A statement fails where it cannot go on, in an expression, or at a loop without an `until`
statement. Every right brace that a statement reads closes a scope that a left brace of it has
opened, since the statements between them leave the scopes around alone.
-/

namespace Tranquility.Grammar

variable {s s' : State} {e : Error} {statement : Rule Stmt}

/-- Every error of a rule for statements is a violation of one of the forms, where the scopes are
those of a parse. -/
def SafeStmt (statement : Rule Stmt) : Prop :=
  ∀ s e s', s.scopes.Valid → statement.run s = .error e s' → Fails s e s'

/-! ## Blocks -/

/-- A statement is read and leaves scopes in which another one can be read. -/
theorem YieldsStmt.reads (h : YieldsStmt statement) {stmt : Stmt} (hv : s.scopes.Valid)
    (hrun : statement.run s = .ok stmt s') :
    (∃ trace, Reads s trace s') ∧ s'.scopes.Valid := by
  have hreads := (h _ _ _ hv hrun).reads
  refine ⟨⟨_, hreads⟩, ?_⟩
  rw [hreads.scopes_eq]
  exact (stmt.passes hv).valid

/-- A body fails in one of its statements. -/
theorem bodyOver_fails (hyields : YieldsStmt statement) (hsafe : SafeStmt statement)
    (hv : s.scopes.Valid) (h : (bodyOver statement).run s = .error e s') : Fails s e s' := by
  rcases run_bind_error.mp h with h | ⟨first, s₁, hfirst, h⟩
  · exact hsafe _ _ _ hv h
  obtain ⟨⟨_, hfirst⟩, hvalid⟩ := hyields.reads hv hfirst
  refine Fails.after (collect_fails (·.scopes.Valid) ?_ hsafe hvalid h) hfirst
  intro s stmt s' hv hstmt
  exact hyields.reads hv hstmt

/-- The end of a block can be read after its statements. -/
theorem blockEnd_fails {kind : ScopeKind} {body : List Stmt} {scopes : Scopes} (hv : scopes.Valid)
    (hscopes : s.scopes = Stmt.settleAll body (scopes.opened kind))
    (h : (skip .rightBrace).run s = .error e s') : Fails s e s' := by
  refine closeScope_fails ?_ h
  rw [hscopes]
  exact (Stmt.passes_all body (hv.opened kind)).outer_block_ne_nil

/-- A braced body fails at a brace, at a newline, or in a statement. -/
theorem braced_fails (hyields : YieldsStmt statement) (hsafe : SafeStmt statement)
    {kind : ScopeKind} (hopens : kind.opens = true) (hv : s.scopes.Valid)
    (h : (braced kind statement).run s = .error e s') : Fails s e s' := by
  rcases run_bind_error.mp h with h | ⟨_, s₁, hopen, h⟩
  · exact openScope_safe hopens _ _ _ h
  have hopen := reads_openScope hopens hopen
  rcases run_bind_error.mp h with h | ⟨_, s₂, hnewline, h⟩
  · exact (skip_safe rfl _ _ _ h).after hopen
  have hfront := hopen.append (reads_skip rfl rfl hnewline)
  obtain ⟨hvalid, _⟩ := hfront.seen_opened hv
  rcases run_bind_error.mp h with h | ⟨body, s₃, hbody, h⟩
  · exact (bodyOver_fails hyields hsafe hvalid h).after hfront
  have hbody := (bodyOver_reads hyields hvalid hbody).2.reads
  have hscopes : s₃.scopes = Stmt.settleAll body (s.scopes.opened kind) := by
    rw [hbody.scopes_eq, hfront.scopes_eq]
    rfl
  rcases run_bind_error.mp h with h | ⟨_, s₄, hclose, h⟩
  · exact (blockEnd_fails hv hscopes h).after (hfront.append hbody)
  have hclose := reads_closeScope hclose
  rcases run_bind_error.mp h with h | ⟨_, s₅, _, h⟩
  · exact (skip_safe rfl _ _ _ h).after (hfront.append (hbody.append hclose))
  · exact absurd h run_pure_error

/-- A loop fails in its parts, or at its keyword if it has no `until` statement. -/
theorem loopOver_safe (hyields : YieldsStmt statement) (hsafe : SafeStmt statement) :
    SafeStmt (loopOver statement) := by
  intro s e s' hv h
  rcases run_bind_error.mp h with h | ⟨token, s₁, htoken, h⟩
  · exact expectKeyword_safe (by decide) _ _ _ h
  have htoken := reads_expectKeyword htoken
  rcases run_bind_error.mp h with h | ⟨_, s₂, hopen, h⟩
  · exact (openScope_safe rfl _ _ _ h).after htoken
  have hopen := reads_openScope rfl hopen
  rw [run_observe_bind] at h
  rcases run_bind_error.mp h with h | ⟨_, s₃, hnewline, h⟩
  · exact (skip_safe rfl _ _ _ h).after (htoken.append hopen)
  have hfront := hopen.append (reads_skip rfl rfl hnewline)
  have hscopes : s₁.scopes = s.scopes := htoken.scopes_eq
  obtain ⟨hvalid, _⟩ := hfront.seen_opened (hscopes ▸ hv)
  rcases run_bind_error.mp h with h | ⟨body, s₄, hbody, h⟩
  · have hbody := unlessAt_fails (fun _ => bodyOver_fails hyields hsafe hvalid) h
    exact hbody.after (htoken.append hfront)
  have hbody := (blockBody_reads hyields hvalid hbody).reads
  have hinner : s₄.scopes = Stmt.settleAll body (s.scopes.opened .loop) := by
    rw [hbody.scopes_eq, hfront.scopes_eq, hscopes]
    rfl
  have hlast := hfront.append hbody
  rw [run_observe_bind] at h
  rcases run_bind_error.mp h with h | ⟨_, s₅, hrequire, h⟩
  · -- The loop is at fault as a whole, so that its body has been read.
    obtain ⟨_, rfl, rfl⟩ := run_require_error.mp h
    exact .atPiece rfl htoken hlast (htoken.kind_of_kept (List.mem_singleton_self _) rfl)
  obtain ⟨_, rfl⟩ := run_require_ok.mp hrequire
  rcases run_bind_error.mp h with h | ⟨_, s₆, hclose, h⟩
  · exact (blockEnd_fails hv hinner h).after (htoken.append hlast)
  have hclose := reads_closeScope hclose
  rcases run_bind_error.mp h with h | ⟨_, s₇, _, h⟩
  · exact (skip_safe rfl _ _ _ h).after (htoken.append (hlast.append hclose))
  · exact absurd h run_pure_error

/-! ## Conditionals -/

/-- The head of a conditional fails in the condition, in the body, or where a token is missing. -/
theorem conditionalHead_fails (hyields : YieldsStmt statement) (hsafe : SafeStmt statement)
    (hv : s.scopes.Valid) (h : (conditionalHead statement).run s = .error e s') :
    Fails s e s' := by
  rcases run_bind_error.mp h with h | ⟨token, s₁, htoken, h⟩
  · exact expectKeyword_safe (by decide) _ _ _ h
  have htoken := reads_expectKeyword htoken
  rcases run_bind_error.mp h with h | ⟨condition, s₂, hcondition, h⟩
  · exact (expression_safe _ _ _ h).after htoken
  have hcondition := (expression_yields _ _ _ hcondition).reads
  have hscopes : s₂.scopes = s.scopes := hcondition.scopes_eq.trans htoken.scopes_eq
  rcases run_bind_error.mp h with h | ⟨body, s₃, _, h⟩
  · exact (braced_fails hyields hsafe rfl (hscopes ▸ hv) h).after (htoken.append hcondition)
  · exact absurd h run_pure_error

/-- A conditional fails in its head, behind its `else`, or in what is chained to it. -/
theorem conditionalStep_fails (hyields : YieldsStmt statement) (hsafe : SafeStmt statement)
    {next : Rule Conditional}
    (hnext : ∀ s e s', s.scopes.Valid → next.run s = .error e s' → Fails s e s')
    (hv : s.scopes.Valid) (h : (conditionalStep statement next).run s = .error e s') :
    Fails s e s' := by
  rw [conditionalStep_eq] at h
  rcases run_bind_error.mp h with h | ⟨⟨token, condition, body⟩, s₁, hhead, h⟩
  · exact conditionalHead_fails hyields hsafe hv h
  obtain ⟨hhead, _⟩ := conditionalHead_reads hyields hv hhead
  obtain ⟨hvalid, _⟩ := hhead.after_head hv
  rw [run_observe_bind] at h
  split at h
  case isTrue =>
    rcases run_bind_error.mp h with h | ⟨_, s₂, helse, h⟩
    · exact (skipKeyword_safe (by decide) _ _ _ h).after hhead
    have helse := reads_skipKeyword helse
    have hscopes : s₂.scopes = s₁.scopes := helse.scopes_eq
    rw [← hscopes] at hvalid
    have hfront := hhead.append helse
    rw [run_observe_bind] at h
    split at h
    case isTrue =>
      rcases run_bind_error.mp h with h | ⟨last, s₃, _, h⟩
      · exact (hnext _ _ _ hvalid h).after hfront
      · exact absurd h run_pure_error
    case isFalse =>
      rcases run_bind_error.mp h with h | ⟨alternative, s₃, _, h⟩
      · exact (braced_fails hyields hsafe rfl hvalid h).after hfront
      · exact absurd h run_pure_error
  case isFalse => exact absurd h run_pure_error

/-- However many conditionals are chained, they fail in one of them. -/
theorem conditionalWithin_fails (hyields : YieldsStmt statement) (hsafe : SafeStmt statement)
    (depth : Nat) : ∀ s e s', s.scopes.Valid →
      (conditionalWithin statement depth).run s = .error e s' → Fails s e s' := by
  induction depth with
  | zero =>
    intro s e s' _ h
    rw [conditionalWithin, run_observe_bind] at h
    exact reject_current_fails h rfl
  | succ depth ih =>
    intro s e s' hv h
    rw [conditionalWithin_succ] at h
    exact conditionalStep_fails hyields hsafe ih hv h

/-- A conditional fails as what it is made of does. -/
theorem conditionalOver_fails (hyields : YieldsStmt statement) (hsafe : SafeStmt statement)
    (hv : s.scopes.Valid) (h : (conditionalOver statement).run s = .error e s') :
    Fails s e s' := by
  rw [conditionalOver, run_observe_bind] at h
  exact conditionalWithin_fails hyields hsafe _ _ _ _ hv h

/-! ## Lines -/

/-- An `until` statement fails in its condition, or where a token is missing. -/
theorem untilStatement_safe : Safe untilStatement := by
  intro s e s' h
  rcases run_bind_error.mp h with h | ⟨token, s₁, htoken, h⟩
  · exact expectKeyword_safe (by decide) _ _ _ h
  have htoken := reads_expectKeyword htoken
  rcases run_bind_error.mp h with h | ⟨_, s₂, hmark, h⟩
  · cases h
  have hfront := htoken.append (markLoop_reads hmark)
  rcases run_bind_error.mp h with h | ⟨condition, s₃, hcondition, h⟩
  · exact (expression_safe _ _ _ h).after hfront
  have hcondition := hfront.append (expression_yields _ _ _ hcondition).reads
  rcases run_bind_error.mp h with h | ⟨_, s₄, _, h⟩
  · exact (skip_safe rfl _ _ _ h).after hcondition
  · exact absurd h run_pure_error

/-- A `return` statement fails in its value, or where the newline is missing. -/
theorem resultStatement_safe : Safe resultStatement := by
  intro s e s' h
  rcases run_bind_error.mp h with h | ⟨token, s₁, htoken, h⟩
  · exact expectKeyword_safe (by decide) _ _ _ h
  have htoken := reads_expectKeyword htoken
  rw [run_observe_bind] at h
  split at h
  case isTrue =>
    rcases run_bind_error.mp h with h | ⟨_, s₂, _, h⟩
    · exact (skip_safe rfl _ _ _ h).after htoken
    · exact absurd h run_pure_error
  case isFalse =>
    rcases run_bind_error.mp h with h | ⟨value, s₂, hvalue, h⟩
    · exact (expression_safe _ _ _ h).after htoken
    have hvalue := htoken.append (expression_yields _ _ _ hvalue).reads
    rcases run_bind_error.mp h with h | ⟨_, s₃, _, h⟩
    · exact (skip_safe rfl _ _ _ h).after hvalue
    · exact absurd h run_pure_error

/-- An assignment or expression fails on one of its sides, or where the line does not end. -/
theorem simpleStatement_safe : Safe simpleStatement := by
  intro s e s' h
  rcases run_bind_error.mp h with h | ⟨value, s₁, hvalue, h⟩
  · exact expression_safe _ _ _ h
  have hvalue := (expression_yields _ _ _ hvalue).reads
  rw [run_observe_bind] at h
  split at h
  case isTrue =>
    rcases run_bind_error.mp h with h | ⟨colon, s₂, hcolon, h⟩
    · exact (expect_safe rfl _ _ _ h).after hvalue
    have hcolon := hvalue.append (reads_expect rfl hcolon)
    rcases run_bind_error.mp h with h | ⟨stored, s₃, hstored, h⟩
    · exact (expression_safe _ _ _ h).after hcolon
    have hstored := hcolon.append (expression_yields _ _ _ hstored).reads
    rcases run_bind_error.mp h with h | ⟨_, s₄, _, h⟩
    · exact (skip_safe rfl _ _ _ h).after hstored
    · exact absurd h run_pure_error
  case isFalse =>
    rw [run_observe_bind] at h
    split at h
    case isTrue =>
      rcases run_bind_error.mp h with h | ⟨_, s₂, _, h⟩
      · exact (skip_safe rfl _ _ _ h).after hvalue
      · exact absurd h run_pure_error
    case isFalse =>
      rw [run_observe_bind] at h
      exact (reject_current_fails h trivial).after hvalue

/-! ## Statements -/

/-- Statements are safe if the statements inside them are. -/
theorem statementOver_safe (hyields : YieldsStmt statement) (hsafe : SafeStmt statement) :
    SafeStmt (statementOver statement) := by
  intro s e s' hv h
  rw [statementOver, run_observe_bind] at h
  split at h
  case isTrue hkeyword =>
    split at h
    case h_1 => exact conditionalOver_fails hyields hsafe hv (run_map_error.mp h)
    case h_2 => exact untilStatement_safe _ _ _ h
    case h_3 => exact loopOver_safe hyields hsafe _ _ _ hv h
    case h_4 => exact resultStatement_safe _ _ _ h
    case h_5 => exact reject_current_fails h hkeyword
  case isFalse => exact simpleStatement_safe _ _ _ h

/-- However deep statements are nested, their errors are such. -/
theorem statementWithin_safe (depth : Nat) : SafeStmt (statementWithin depth) := by
  induction depth with
  | zero =>
    intro s e s' _ h
    rw [statementWithin, run_observe_bind] at h
    exact reject_current_fails h trivial
  | succ depth ih => exact statementOver_safe (statementWithin_yields depth) ih

/-- Whatever is wrong with a statement is a violation of one of the forms. -/
theorem statement_safe : SafeStmt Grammar.statement := by
  intro s e s' hv h
  rw [Grammar.statement, run_observe_bind] at h
  exact statementWithin_safe _ _ _ _ hv h

end Tranquility.Grammar
