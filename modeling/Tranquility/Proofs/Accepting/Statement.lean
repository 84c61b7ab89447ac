import Tranquility.Proofs.Accepting.Expression

/-!
# Accepting statements

Where the tokens left start with a legal statement the rules of statements read it, provided that no
`else` comes next, since a conditional at the end would go on with it. A statement starts with an
expression or with a keyword of its own, so that the end of a body is where its right brace stands.
-/

namespace Tranquility

open Grammar

/-- A statement may start with a token for the piece. -/
def Piece.StartsStatement (piece : Piece) : Prop :=
  piece.kind.startsOperand = true ∨
    ∃ word ∈ ["if", "until", "loop", "return"], piece.word = some word

/-- A statement starts with a keyword or with an operand, and with no token of another kind. -/
theorem Piece.StartsStatement.kind_ne {piece : Piece} (h : piece.StartsStatement) {kind : Kind}
    (hoperand : kind.startsOperand = false) (hkeyword : kind ≠ .keyword) : piece.kind ≠ kind := by
  rintro rfl
  rcases h with h | ⟨word, _, hword⟩
  · rw [h] at hoperand
    cases hoperand
  · exact hkeyword (piece.kind_of_word word hword)

/-- A conditional starts with its keyword. -/
theorem Conditional.exists_head : ∀ conditional : Conditional, ∃ token pieces,
    conditional.pieces = .keepKeyword "if" token :: pieces
  | .only _ _ _ => ⟨_, _, rfl⟩
  | .otherwise _ _ _ _ => ⟨_, _, rfl⟩
  | .chained _ _ _ _ => ⟨_, _, rfl⟩

/-- Every statement starts with a piece that a statement may start with. -/
theorem Stmt.exists_head {visible : Visible} {stmt : Stmt}
    (h : ∀ node ∈ stmt.nodes, node.Sound visible) :
    ∃ piece pieces, stmt.pieces = piece :: pieces ∧ piece.StartsStatement := by
  cases stmt with
  | conditional conditional =>
    obtain ⟨token, pieces, hpieces⟩ := conditional.exists_head
    exact ⟨_, pieces, hpieces, .inr ⟨"if", by simp, rfl⟩⟩
  | «until» token condition => exact ⟨_, _, rfl, .inr ⟨"until", by simp, rfl⟩⟩
  | loop token body => exact ⟨_, _, rfl, .inr ⟨"loop", by simp, rfl⟩⟩
  | result token value => cases value <;> exact ⟨_, _, rfl, .inr ⟨"return", by simp, rfl⟩⟩
  | assignment colon target value =>
    have hlegal : target.Legal visible := fun node hnode => h node (List.mem_append_left _ hnode)
    obtain ⟨piece, pieces, hpieces, hkind⟩ := Expr.exists_head hlegal
    exact ⟨piece, _, by rw [Stmt.pieces, hpieces]; rfl, .inl hkind⟩
  | expression value =>
    obtain ⟨piece, pieces, hpieces, hkind⟩ := Expr.exists_head h
    exact ⟨piece, _, by rw [Stmt.pieces, hpieces]; rfl, .inl hkind⟩

namespace Grammar

variable {s : State} {statement : Rule Stmt} {bound : Nat}

/-- A rule reads every legal statement that no `else` follows, in states with fewer tokens left than
a bound. -/
def AcceptsStmt (bound : Nat) (statement : Rule Stmt) : Prop :=
  ∀ s stmt, s.rest.length < bound → s.scopes.Valid → Leads s stmt.trace →
    (∀ node ∈ stmt.nodes, node.Sound s.scopes.seen) → stmt.Complete →
      (s.after stmt.trace).seesKeyword "else" = false → Accepts statement s stmt stmt.trace

/-- A token that is no keyword is not the keyword `else`. -/
theorem not_seesKeyword_of_sees {kind : Kind} (h : s.sees kind = true) (hne : kind ≠ .keyword)
    (text : String) : s.seesKeyword text = false := by
  rw [State.sees, decide_eq_true_eq] at h
  simp [State.seesKeyword, Token.isKeyword, h, hne]

/-- A statement does not start with `else`. -/
theorem Leads.not_seesKeyword {trace : Trace} (h : Leads s trace) {piece : Piece}
    {pieces : List Piece} (hpieces : trace.pieces = piece :: pieces)
    (hstart : piece.StartsStatement) {text : String}
    (htext : text ∉ ["if", "until", "loop", "return"]) : s.seesKeyword text = false := by
  have hfits := h.fits hpieces
  rcases hstart with hkind | ⟨word, hmem, hword⟩
  · refine not_seesKeyword_of_sees (h.sees hpieces rfl) ?_ text
    rintro hkeyword
    rw [hkeyword] at hkind
    cases hkind
  · have hcurrent : s.current.text = word := hfits.word word hword
    rw [State.seesKeyword, Token.isKeyword, hcurrent]
    simp only [Bool.and_eq_false_imp, decide_eq_false_iff_not]
    rintro _ rfl
    exact htext hmem

/-! ## Bodies -/

/-- Legal statements are left to be read, up to a state where a right brace is. -/
structure PendingBody (bound : Nat) (final : State) (todo : List Stmt) (s : State) : Prop where
  length_lt : s.rest.length < bound
  valid : s.scopes.Valid
  leads : Leads s (Stmt.traceAll todo)
  legal : Stmt.AllLegal s.scopes.seen todo
  after : s.after (Stmt.traceAll todo) = final
  sees : final.sees .rightBrace = true

namespace PendingBody

variable {final : State} {stmt : Stmt} {todo : List Stmt}

/-- Without statements left the end has come. -/
theorem eq_final (h : PendingBody bound final [] s) : s = final :=
  h.after

/-- Where a statement is left to be read, the body does not end. -/
theorem not_sees (h : PendingBody bound final (stmt :: todo) s) : ¬ s.sees .rightBrace = true := by
  obtain ⟨piece, pieces, hpieces, hstart⟩ := Stmt.exists_head
    (List.forall_mem_append.mp h.legal.nodes).1
  have hleads := h.leads
  rw [Stmt.traceAll_cons] at hleads
  exact (leads_append.mp hleads).1.not_sees hpieces (hstart.kind_ne rfl (by decide))

/-- Whatever is left, no other keyword comes next than one that a statement starts with. -/
theorem not_seesKeyword (h : PendingBody bound final todo s) {text : String}
    (htext : text ∉ ["if", "until", "loop", "return"]) : s.seesKeyword text = false := by
  cases todo with
  | nil => exact not_seesKeyword_of_sees (h.eq_final ▸ h.sees) (by decide) text
  | cons stmt todo =>
    obtain ⟨piece, pieces, hpieces, hstart⟩ := Stmt.exists_head
      (List.forall_mem_append.mp h.legal.nodes).1
    have hleads := h.leads
    rw [Stmt.traceAll_cons] at hleads
    exact (leads_append.mp hleads).1.not_seesKeyword hpieces hstart htext

/-- The first of the statements left is read, and then the others are left. -/
theorem step (hstatement : AcceptsStmt bound statement)
    (h : PendingBody bound final (stmt :: todo) s) : Accepts statement s stmt stmt.trace ∧
      (s.after stmt.trace).rest.length < s.rest.length ∧
        PendingBody bound final todo (s.after stmt.trace) := by
  obtain ⟨hlength, hvalid, hleads, ⟨hnodes, hcomplete, hcompletes⟩, hafter, hsees⟩ := h
  obtain ⟨hsound, hsounds⟩ := List.forall_mem_append.mp hnodes
  rw [Stmt.traceAll_cons] at hleads hafter
  obtain ⟨hstmt, htodo⟩ := leads_append.mp hleads
  obtain ⟨piece, pieces, hpieces, _⟩ := Stmt.exists_head hsound
  have hlt := hstmt.length_lt (by rw [Stmt.trace, hpieces]; simp)
  have hpasses := stmt.passes hvalid
  have hseen : (s.after stmt.trace).scopes.seen = s.scopes.seen := hpasses.seen hvalid
  have hpending : PendingBody bound final todo (s.after stmt.trace) := by
    refine ⟨by omega, hpasses.valid, htodo, ⟨hseen ▸ hsounds, hcompletes⟩, ?_, hsees⟩
    rw [← State.after_append, hafter]
  have helse := hpending.not_seesKeyword (by decide : "else" ∉ _)
  exact ⟨hstatement s stmt hlength hvalid hstmt hsound hcomplete helse, hlt, hpending⟩

end PendingBody

/-- Statements are read up to the right brace behind them. -/
theorem bodyOver_accepts (hstatement : AcceptsStmt bound statement) {final : State}
    {stmts : List Stmt} (hne : stmts ≠ []) (h : PendingBody bound final stmts s) :
    Accepts (bodyOver statement) s stmts (Stmt.traceAll stmts) := by
  obtain ⟨first, todo, rfl⟩ := List.exists_cons_of_ne_nil hne
  obtain ⟨hfirst, _, hpending⟩ := h.step hstatement
  have hround : ∀ stmt todo s, PendingBody bound final (stmt :: todo) s →
      (!s.sees .rightBrace) = true ∧ ∃ s₁, statement.run s = .ok stmt s₁ ∧
        s₁.rest.length < s.rest.length ∧ PendingBody bound final todo s₁ := by
    intro stmt todo s hpending
    obtain ⟨haccepts, hlt, hpending'⟩ := hpending.step hstatement
    exact ⟨by simpa using hpending.not_sees, _, haccepts, hlt, hpending'⟩
  have hlast : ∀ s, PendingBody bound final [] s → (!s.sees .rightBrace) = false := by
    intro s hpending
    rw [hpending.eq_final, h.sees]
    rfl
  obtain ⟨s', hrun, hend⟩ := run_collect_of_good _ hround hlast hpending
  rw [Accepts, h.after, ← hend.eq_final]
  exact run_bind_ok.mpr ⟨first, _, hfirst, hrun⟩

/-- A body that may be empty is read up to its right brace. -/
theorem unlessAt_bodyOver_accepts (hstatement : AcceptsStmt bound statement) {final : State}
    {stmts : List Stmt} (h : PendingBody bound final stmts s) :
    Accepts (unlessAt .rightBrace (bodyOver statement)) s stmts (Stmt.traceAll stmts) := by
  rw [Accepts, unlessAt, run_observe_bind]
  cases stmts with
  | nil =>
    have hempty : s.sees .rightBrace = true := h.eq_final ▸ h.sees
    rw [if_pos hempty]
    rfl
  | cons first todo =>
    rw [if_neg h.not_sees]
    exact bodyOver_accepts hstatement (List.cons_ne_nil _ _) h

/-- After the opening of a block its statements are left to be read. -/
theorem pendingBody_opened {kind : ScopeKind} {body : List Stmt} (h : Leads s (.block kind body))
    (hv : s.scopes.Valid) (hlegal : Stmt.AllLegal s.scopes.seen body)
    (hbound : s.rest.length < bound + 1) :
    Leads s (.opened kind) ∧
      Leads (s.after (.opened kind)) (.ofPiece (.mark .newline)) ∧
      PendingBody bound
        (((s.after (.opened kind)).after (.ofPiece (.mark .newline))).after (Stmt.traceAll body))
        body
        ((s.after (.opened kind)).after (.ofPiece (.mark .newline))) ∧
      Leads
        (((s.after (.opened kind)).after (.ofPiece (.mark .newline))).after (Stmt.traceAll body))
        (.closed ++ .ofPiece (.mark .newline)) := by
  rw [Trace.block_eq] at h
  obtain ⟨hopen, h⟩ := leads_append.mp h
  obtain ⟨hnewline, h⟩ := leads_append.mp h
  obtain ⟨hbody, hclose⟩ := leads_append.mp h
  have hlt := hopen.length_lt (by simp [Trace.opened])
  have hlt' := hnewline.length_lt (by simp [Trace.ofPiece])
  refine ⟨hopen, hnewline, ⟨by omega, hv.opened kind, hbody, ?_, rfl, hclose.sees rfl rfl⟩, hclose⟩
  exact (Scopes.seen_opened hv kind).symm ▸ hlegal

/-- A body is read with its braces and the newlines behind them. -/
theorem braced_accepts (hstatement : AcceptsStmt bound statement) {kind : ScopeKind}
    {body : List Stmt} (h : Leads s (.block kind body)) (hopens : kind.opens = true)
    (hne : body ≠ []) (hv : s.scopes.Valid) (hlegal : Stmt.AllLegal s.scopes.seen body)
    (hbound : s.rest.length < bound + 1) :
    Accepts (braced kind statement) s body (.block kind body) := by
  obtain ⟨hopen, hnewline, hbody, hleads⟩ := pendingBody_opened h hv hlegal hbound
  obtain ⟨hclose, hend⟩ := leads_append.mp hleads
  have houter := (Stmt.passes_all body (hv.opened kind)).outer_block_ne_nil
  rw [Trace.block_eq]
  exact (accepts_openScope hopens hopen).bind ((accepts_skip rfl rfl hnewline).bind
    ((bodyOver_accepts hstatement hne hbody).bind ((accepts_closeScope houter hclose).bind
      ((accepts_skip rfl rfl hend).bind_pure fun _ => body))))

/-- A loop is read that has an `until` statement of its own. -/
theorem loopOver_accepts (hstatement : AcceptsStmt bound statement) {token : Token}
    {body : List Stmt} (hbound : s.rest.length < bound + 1) (hv : s.scopes.Valid)
    (h : Leads s (Stmt.loop token body).trace)
    (hsound : ∀ node ∈ (Stmt.loop token body).nodes, node.Sound s.scopes.seen)
    (hcomplete : (Stmt.loop token body).Complete) :
    Accepts (loopOver statement) s (.loop token body) (Stmt.loop token body).trace := by
  obtain ⟨huntil, hcompletes⟩ := hcomplete
  rw [Stmt.trace_loop] at h ⊢
  obtain ⟨htoken, hblock⟩ := leads_append.mp h
  have hlt := htoken.length_lt (by simp [Trace.ofPiece])
  obtain ⟨hopen, hnewline, hbody, hleads⟩ := pendingBody_opened hblock hv ⟨hsound, hcompletes⟩
    (Nat.lt_trans hlt hbound)
  obtain ⟨hclose, hend⟩ := leads_append.mp hleads
  have hpasses := Stmt.passes_all body (hv.opened .loop)
  have hmark : (Stmt.settleAll body (s.scopes.opened .loop)).hasUntil s.scopes.arena.size = true :=
    hpasses.hasUntil_block.trans huntil
  rw [Trace.block_eq]
  refine (accepts_expectKeyword htoken).bind ((accepts_openScope rfl hopen).bind ?_)
  rw [Accepts, run_observe_bind]
  refine (accepts_skip rfl rfl hnewline).bind ((unlessAt_bodyOver_accepts hstatement hbody).bind ?_)
  rw [Accepts, run_observe_bind]
  refine run_bind_ok.mpr ⟨(), _, run_require_ok.mpr ⟨hmark, rfl⟩, ?_⟩
  exact (accepts_closeScope hpasses.outer_block_ne_nil hclose).bind
    ((accepts_skip rfl rfl hend).bind_pure fun _ => Stmt.loop token body)

/-! ## Conditionals -/

/-- A left brace follows the condition of a block. -/
theorem follows_block {kind : ScopeKind} {body : List Stmt} (h : Leads s (.block kind body)) :
    Follows 0 s :=
  follows_of_sees (h.sees rfl rfl) (by decide : Kind.leftBrace ≠ _) rfl 0

/-- The head of a conditional is read up to the newline behind its right brace. -/
theorem conditionalHead_accepts (hstatement : AcceptsStmt bound statement) {token : Token}
    {condition : Expr} {body : List Stmt} (hbound : s.rest.length < bound + 1)
    (hv : s.scopes.Valid) (h : Leads s (Conditional.headTrace token condition body))
    (hsound : ∀ node ∈ condition.nodes ++ Stmt.nodesOfAll body, node.Sound s.scopes.seen)
    (hne : body ≠ []) (hcompletes : Stmt.AllComplete body) :
    Accepts (conditionalHead statement) s (token, condition, body)
      (Conditional.headTrace token condition body) := by
  obtain ⟨hcondition, hnodes⟩ := List.forall_mem_append.mp hsound
  obtain ⟨htoken, hleads⟩ := leads_append.mp h
  obtain ⟨hleads, hblock⟩ := leads_append.mp hleads
  have hlt := htoken.length_lt (by simp [Trace.ofPiece])
  have hle := (s.after (.ofPiece (.keepKeyword "if" token))).length_after_le condition.trace
  have hexpression := expression_accepts hleads hcondition (follows_block hblock)
  have hbody := braced_accepts hstatement hblock rfl hne hv ⟨hnodes, hcompletes⟩ (by omega)
  exact (accepts_expectKeyword htoken).bind (hexpression.bind
    (hbody.bind_pure fun body => (token, condition, body)))

/-- A conditional is read with no more conditionals chained to it than a depth allows. -/
theorem conditionalWithin_accepts (hstatement : AcceptsStmt bound statement) (depth : Nat) :
    ∀ s (conditional : Conditional), Leads s conditional.trace → s.rest.length < depth →
      s.rest.length < bound + 1 → s.scopes.Valid →
      (∀ node ∈ conditional.nodes, node.Sound s.scopes.seen) → conditional.Complete →
      (s.after conditional.trace).seesKeyword "else" = false →
      Accepts (conditionalWithin statement depth) s conditional conditional.trace := by
  induction depth with
  | zero => exact fun s conditional _ hdepth => absurd hdepth (Nat.not_lt_zero _)
  | succ depth ih =>
    intro s conditional h hdepth hbound hv hsound hcomplete hfollow
    rw [conditionalWithin_succ, conditionalStep_eq]
    cases conditional with
    | only token condition body =>
      obtain ⟨hne, hcompletes⟩ := hcomplete
      rw [Conditional.trace_only] at h hfollow ⊢
      rw [← Trace.append_settled (Conditional.headTrace token condition body)]
      refine (conditionalHead_accepts hstatement hbound hv h hsound hne hcompletes).bind ?_
      -- No `else` follows, so that nothing is read behind the head.
      rw [Accepts, run_observe_bind, if_neg (by simp [hfollow])]
      rfl
    | otherwise token condition body alternative =>
      obtain ⟨hsound, hnodes⟩ := List.forall_mem_append.mp hsound
      obtain ⟨⟨hne, hcompletes⟩, hne', hcompletes'⟩ := hcomplete
      rw [Conditional.trace_otherwise] at h ⊢
      obtain ⟨hhead, hrest⟩ := leads_append.mp h
      obtain ⟨helse, hblock⟩ := leads_append.mp hrest
      have hpasses := Conditional.passes_head hv token condition body
      have hlt := helse.length_lt (by simp [Trace.ofPiece])
      have hle := s.length_after_le (Conditional.headTrace token condition body)
      have hbraced := braced_accepts hstatement hblock rfl hne' hpasses.valid
        ⟨hpasses.seen hv ▸ hnodes, hcompletes'⟩ (by omega)
      have hif := not_seesKeyword_of_sees (hblock.sees rfl rfl) (by decide) "if"
      refine (conditionalHead_accepts hstatement hbound hv hhead hsound hne hcompletes).bind ?_
      rw [Accepts, run_observe_bind, if_pos (helse.seesKeyword rfl rfl)]
      refine (accepts_skipKeyword helse).bind ?_
      rw [Accepts, run_observe_bind, if_neg (by simp [hif])]
      exact hbraced.bind_pure (Conditional.otherwise token condition body)
    | chained token condition body next =>
      obtain ⟨hsound, hnodes⟩ := List.forall_mem_append.mp hsound
      obtain ⟨⟨hne, hcompletes⟩, hcomplete'⟩ := hcomplete
      rw [Conditional.trace_chained] at h hfollow ⊢
      obtain ⟨hhead, hrest⟩ := leads_append.mp h
      obtain ⟨helse, hnext⟩ := leads_append.mp hrest
      have hpasses := Conditional.passes_head hv token condition body
      have hlt := helse.length_lt (by simp [Trace.ofPiece])
      have hle := s.length_after_le (Conditional.headTrace token condition body)
      rw [State.after_append, State.after_append] at hfollow
      have hread := ih _ next hnext (by omega) (by omega) hpasses.valid
        (hpasses.seen hv ▸ hnodes) hcomplete' hfollow
      -- What is chained starts with `if`, which tells it from a block.
      obtain ⟨token', pieces, hpieces⟩ := next.exists_head
      refine (conditionalHead_accepts hstatement hbound hv hhead hsound hne hcompletes).bind ?_
      rw [Accepts, run_observe_bind, if_pos (helse.seesKeyword rfl rfl)]
      refine (accepts_skipKeyword helse).bind ?_
      rw [Accepts, run_observe_bind, if_pos (hnext.seesKeyword hpieces rfl)]
      exact hread.bind_pure (Conditional.chained token condition body)

/-! ## Lines -/

/-- A newline follows any expression. -/
theorem follows_newline (h : Leads s (.ofPiece (.mark .newline))) : Follows 0 s :=
  follows_of_sees (h.sees rfl rfl) (by decide : Kind.newline ≠ _) rfl 0

/-- An `until` statement is read, and the loop around it is marked. -/
theorem untilStatement_accepts {token : Token} {condition : Expr} (hv : s.scopes.Valid)
    (h : Leads s (Stmt.until token condition).trace)
    (hlegal : condition.Legal s.scopes.seen) :
    Accepts untilStatement s (.until token condition) (Stmt.until token condition).trace := by
  rw [Stmt.trace_until] at h ⊢
  obtain ⟨htoken, h⟩ := leads_append.mp h
  obtain ⟨_, h⟩ := leads_append.mp h
  obtain ⟨hcondition, hend⟩ := leads_append.mp h
  have hmark : Accepts markLoop (s.after (.ofPiece (.keepKeyword "until" token))) ()
      (.settled Scopes.markLoop) := rfl
  have hseen : s.scopes.markLoop.seen = s.scopes.seen := (Scopes.Passes.markLoop hv).seen hv
  have hread := expression_accepts hcondition (hseen.symm ▸ hlegal) (follows_newline hend)
  exact (accepts_expectKeyword htoken).bind (hmark.bind (hread.bind
    ((accepts_skip rfl rfl hend).bind_pure fun _ => Stmt.until token condition)))

/-- A `return` statement is read, with a value or without one. -/
theorem resultStatement_accepts {token : Token} {value : Option Expr}
    (h : Leads s (Stmt.result token value).trace)
    (hsound : ∀ node ∈ (Stmt.result token value).nodes, node.Sound s.scopes.seen) :
    Accepts resultStatement s (.result token value) (Stmt.result token value).trace := by
  cases value with
  | none =>
    rw [Stmt.trace_result_none] at h ⊢
    obtain ⟨htoken, hend⟩ := leads_append.mp h
    have hnewline : (s.after (.ofPiece (.keepKeyword "return" token))).sees .newline = true :=
      hend.sees rfl rfl
    refine (accepts_expectKeyword htoken).bind ?_
    rw [Accepts, run_observe_bind, if_pos hnewline]
    exact (accepts_skip rfl rfl hend).bind_pure fun _ => Stmt.result token none
  | some value =>
    rw [Stmt.trace_result_some] at h ⊢
    obtain ⟨htoken, h⟩ := leads_append.mp h
    obtain ⟨hvalue, hend⟩ := leads_append.mp h
    have hread := expression_accepts hvalue hsound (follows_newline hend)
    refine (accepts_expectKeyword htoken).bind ?_
    rw [Accepts, run_observe_bind, if_neg (hvalue.not_sees_of_legal hsound rfl)]
    exact hread.bind ((accepts_skip rfl rfl hend).bind_pure fun _ => Stmt.result token (some value))

/-- An assignment is read: what comes before the colon ends there. -/
theorem simpleStatement_accepts_assignment {colon : Token} {target value : Expr}
    (h : Leads s (Stmt.assignment colon target value).trace)
    (hsound : ∀ node ∈ (Stmt.assignment colon target value).nodes, node.Sound s.scopes.seen) :
    Accepts simpleStatement s (.assignment colon target value)
      (Stmt.assignment colon target value).trace := by
  obtain ⟨htarget, hvalue⟩ := List.forall_mem_append.mp hsound
  rw [Stmt.trace_assignment] at h ⊢
  obtain ⟨hleads, h⟩ := leads_append.mp h
  obtain ⟨hcolon, h⟩ := leads_append.mp h
  obtain ⟨hleads', hend⟩ := leads_append.mp h
  have hsees : (s.after target.trace).sees .colon = true := hcolon.sees rfl rfl
  have hfollow := follows_of_sees hsees (by decide) rfl 0
  have hread := expression_accepts hleads' hvalue (follows_newline hend)
  refine (expression_accepts hleads htarget hfollow).bind ?_
  rw [Accepts, run_observe_bind, if_pos hsees]
  exact (accepts_expect rfl hcolon).bind (hread.bind
    ((accepts_skip rfl rfl hend).bind_pure fun _ => Stmt.assignment colon target value))

/-- An expression on a line of its own is read. -/
theorem simpleStatement_accepts_expression {value : Expr}
    (h : Leads s (Stmt.expression value).trace) (hlegal : value.Legal s.scopes.seen) :
    Accepts simpleStatement s (.expression value) (Stmt.expression value).trace := by
  rw [Stmt.trace_expression] at h ⊢
  obtain ⟨hleads, hend⟩ := leads_append.mp h
  have hsees : (s.after value.trace).sees .newline = true := hend.sees rfl rfl
  have hcolon := hend.not_sees rfl (by decide : Kind.newline ≠ .colon)
  refine (expression_accepts hleads hlegal (follows_newline hend)).bind ?_
  rw [Accepts, run_observe_bind, if_neg hcolon, run_observe_bind, if_pos hsees]
  exact (accepts_skip rfl rfl hend).bind_pure fun _ => Stmt.expression value

/-! ## Statements -/

/-- An expression does not start with a keyword. -/
theorem not_keyword_of_legal {expr : Expr} (h : Leads s expr.trace)
    (hlegal : expr.Legal s.scopes.seen) : ¬ s.current.kind = .keyword := by
  obtain ⟨piece, pieces, hpieces, hstart⟩ := Expr.exists_head hlegal
  rw [(h.fits hpieces).kind]
  rintro hkind
  rw [hkind] at hstart
  cases hstart

/-- A statement with a keyword in front starts with this keyword. -/
theorem Leads.keyword {trace : Trace} (h : Leads s trace) {text : String} {token : Token}
    {pieces : List Piece} (hpieces : trace.pieces = .keepKeyword text token :: pieces) :
    s.current.kind = .keyword ∧ s.current.text = text := by
  obtain ⟨hkind, hword, _⟩ := h.fits hpieces
  exact ⟨hkind, hword text rfl⟩

/-- The law of statements, for a rule that reads the statements inside them. -/
theorem statementOver_accepts (hstatement : AcceptsStmt bound statement) :
    AcceptsStmt (bound + 1) (statementOver statement) := by
  intro s stmt hbound hv h hsound hcomplete hfollow
  rw [Accepts, statementOver, run_observe_bind]
  cases stmt with
  | conditional conditional =>
    obtain ⟨token, pieces, hpieces⟩ := conditional.exists_head
    obtain ⟨hkind, htext⟩ := h.keyword hpieces
    rw [if_pos hkind, htext]
    refine run_map_ok.mpr ⟨conditional, ?_, rfl⟩
    rw [conditionalOver, run_observe_bind]
    exact conditionalWithin_accepts hstatement _ s conditional h (Nat.lt_succ_self _) hbound hv
      hsound hcomplete hfollow
  | «until» token condition =>
    obtain ⟨hkind, htext⟩ := h.keyword rfl
    rw [if_pos hkind, htext]
    exact untilStatement_accepts hv h hsound
  | loop token body =>
    obtain ⟨hkind, htext⟩ := h.keyword rfl
    rw [if_pos hkind, htext]
    exact loopOver_accepts hstatement hbound hv h hsound hcomplete
  | result token value =>
    obtain ⟨hkind, htext⟩ : s.current.kind = .keyword ∧ s.current.text = "return" := by
      cases value <;> exact h.keyword rfl
    rw [if_pos hkind, htext]
    exact resultStatement_accepts h hsound
  | assignment colon target value =>
    have htarget : target.Legal s.scopes.seen := fun node hnode =>
      hsound node (List.mem_append_left _ hnode)
    rw [if_neg (not_keyword_of_legal (leads_append.mp (Stmt.trace_assignment .. ▸ h)).1 htarget)]
    exact simpleStatement_accepts_assignment h hsound
  | expression value =>
    rw [if_neg (not_keyword_of_legal (leads_append.mp (Stmt.trace_expression _ ▸ h)).1 hsound)]
    exact simpleStatement_accepts_expression h hsound

/-- Statements that are nested no deeper than a bound are read within it. -/
theorem statementWithin_accepts (depth : Nat) : AcceptsStmt depth (statementWithin depth) := by
  induction depth with
  | zero => exact fun s stmt hbound => absurd hbound (Nat.not_lt_zero _)
  | succ depth ih => exact statementOver_accepts ih

/-- A legal statement is read if no `else` follows it. -/
theorem statement_accepts (bound : Nat) : AcceptsStmt bound Grammar.statement := by
  intro s stmt _ hv h hsound hcomplete hfollow
  rw [Accepts, Grammar.statement, run_observe_bind]
  exact statementWithin_accepts _ s stmt (Nat.lt_succ_self _) hv h hsound hcomplete hfollow

end Grammar

end Tranquility
