import Tranquility.Proofs.Reading.Expression

/-!
# Reading statements

A statement that a rule yields is legal where it stands, and written out it gives the tokens that
have been read. Inside a block the same names are visible as around it, and the mark that a loop
asks for is there exactly if its body has an `until` statement of its own.
-/

namespace Tranquility

namespace Grammar

variable {s s' : State} {statement : Rule Stmt}

/-- A rule has read a statement: its trace has been read, and it keeps the rules of the language
where it stands. -/
structure ReadsStmt (s : State) (stmt : Stmt) (s' : State) : Prop where
  reads : Reads s stmt.trace s'
  sound : ∀ node ∈ stmt.nodes, node.Sound s.scopes.seen
  complete : stmt.Complete

/-- A rule has read some statements, one after the other. -/
structure ReadsBody (s : State) (stmts : List Stmt) (s' : State) : Prop where
  reads : Reads s (Stmt.traceAll stmts) s'
  legal : Stmt.AllLegal s.scopes.seen stmts

/-- Whatever the rule yields it has read. -/
def YieldsStmt (statement : Rule Stmt) : Prop :=
  ∀ s stmt s', s.scopes.Valid → statement.run s = .ok stmt s' → ReadsStmt s stmt s'

/-- No statements are read from nothing. -/
theorem ReadsBody.nil (s : State) : ReadsBody s [] s where
  reads := .settled id
  legal := ⟨by simp [Stmt.nodesOfAll], trivial⟩

/-- Statements are followed by one more. -/
theorem ReadsBody.concat (hv : s.scopes.Valid) {stmts : List Stmt} {s₁ : State}
    (h : ReadsBody s stmts s₁) {stmt : Stmt} (hstmt : ReadsStmt s₁ stmt s') :
    ReadsBody s (stmts ++ [stmt]) s' := by
  have hseen : s₁.scopes.seen = s.scopes.seen := by
    rw [h.reads.scopes_eq]
    exact (Stmt.passes_all stmts hv).seen hv
  constructor
  · rw [Stmt.traceAll_concat]
    exact h.reads.append hstmt.reads
  · constructor
    · rw [Stmt.nodesOfAll_concat]
      exact List.forall_mem_append.mpr ⟨h.legal.nodes, hseen ▸ hstmt.sound⟩
    · exact Stmt.allComplete_concat.mpr ⟨h.legal.complete, hstmt.complete⟩

/-! ## Blocks -/

/-- The statements of a body have been read, at least one. -/
theorem bodyOver_reads (hstatement : YieldsStmt statement) (hv : s.scopes.Valid)
    {stmts : List Stmt} (h : (bodyOver statement).run s = .ok stmts s') :
    stmts ≠ [] ∧ ReadsBody s stmts s' := by
  obtain ⟨first, s₁, hfirst, h⟩ := run_bind_ok.mp h
  refine run_collect_ok (fun stmts s' => stmts ≠ [] ∧ ReadsBody s stmts s') ?_ ?_ h
  · rintro stmts s₂ stmt s₃ ⟨_, hstmts⟩ _ hstmt
    have hvalid : s₂.scopes.Valid := by
      rw [hstmts.reads.scopes_eq]
      exact (Stmt.passes_all stmts hv).valid
    exact ⟨by simp, hstmts.concat hv (hstatement _ _ _ hvalid hstmt)⟩
  · exact ⟨by simp, (ReadsBody.nil s).concat hv (hstatement _ _ _ hv hfirst)⟩

/-- The statements of a block that may be empty. -/
theorem blockBody_reads (hstatement : YieldsStmt statement) (hv : s.scopes.Valid)
    {stmts : List Stmt} (h : (unlessAt .rightBrace (bodyOver statement)).run s = .ok stmts s') :
    ReadsBody s stmts s' := by
  rw [unlessAt, run_observe_bind] at h
  split at h
  case isTrue =>
    obtain ⟨rfl, rfl⟩ := run_pure_ok.mp h
    exact .nil s
  case isFalse => exact (bodyOver_reads hstatement hv h).2

/-- The names visible around a block are those visible in it. -/
theorem Reads.seen_opened {kind : ScopeKind} (hv : s.scopes.Valid)
    (h : Reads s (.opened kind ++ .ofPiece (.mark .newline)) s') :
    s'.scopes.Valid ∧ s'.scopes.seen = s.scopes.seen := by
  rw [h.scopes_eq]
  exact ⟨hv.opened kind, Scopes.seen_opened hv kind⟩

/-- A body has been read with its braces, and with at least one statement. -/
theorem braced_reads (hstatement : YieldsStmt statement) {kind : ScopeKind}
    (hopens : kind.opens = true) (hv : s.scopes.Valid) {body : List Stmt}
    (h : (braced kind statement).run s = .ok body s') :
    Reads s (.block kind body) s' ∧ body ≠ [] ∧ Stmt.AllLegal s.scopes.seen body := by
  obtain ⟨_, s₁, hopen, h⟩ := run_bind_ok.mp h
  obtain ⟨_, s₂, hnewline, h⟩ := run_bind_ok.mp h
  obtain ⟨body, s₃, hbody, h⟩ := run_bind_ok.mp h
  obtain ⟨_, s₄, hclose, h⟩ := run_bind_ok.mp h
  obtain ⟨_, s₅, hend, h⟩ := run_bind_ok.mp h
  obtain ⟨rfl, rfl⟩ := run_pure_ok.mp h
  have hopen := reads_openScope hopens hopen
  have hnewline := reads_skip rfl rfl hnewline
  obtain ⟨hvalid, hseen⟩ := (hopen.append hnewline).seen_opened hv
  obtain ⟨hne, hbody⟩ := bodyOver_reads hstatement hvalid hbody
  refine ⟨?_, hne, hseen ▸ hbody.legal⟩
  rw [Trace.block_eq]
  exact hopen.append (hnewline.append
    (hbody.reads.append ((reads_closeScope hclose).append (reads_skip rfl rfl hend))))

/-- At the end of its body a loop has its mark exactly if an `until` statement stands in the body
itself; one in another block of the body or around the loop does not count. -/
theorem ReadsBody.hasUntil {s₁ : State} {body : List Stmt} (h : ReadsBody s₁ body s')
    (hhead : Reads s (.opened .loop ++ .ofPiece (.mark .newline)) s₁) (hv : s.scopes.Valid) :
    s'.scopes.hasUntil s.scopes.arena.size = body.any Stmt.isUntil := by
  have hpasses := Stmt.passes_all body (hv.opened .loop)
  rw [h.reads.scopes_eq, hhead.scopes_eq]
  exact hpasses.hasUntil_block

/-- A loop has been read that has an `until` statement of its own. -/
theorem loopOver_yields (hstatement : YieldsStmt statement) : YieldsStmt (loopOver statement) := by
  intro s stmt s' hv h
  obtain ⟨token, s₁, htoken, h⟩ := run_bind_ok.mp h
  obtain ⟨_, s₂, hopen, h⟩ := run_bind_ok.mp h
  rw [run_observe_bind] at h
  obtain ⟨_, s₃, hnewline, h⟩ := run_bind_ok.mp h
  obtain ⟨body, s₄, hbody, h⟩ := run_bind_ok.mp h
  rw [run_observe_bind] at h
  obtain ⟨_, s₅, hrequire, h⟩ := run_bind_ok.mp h
  obtain ⟨huntil, rfl⟩ := run_require_ok.mp hrequire
  obtain ⟨_, s₆, hclose, h⟩ := run_bind_ok.mp h
  obtain ⟨_, s₇, hend, h⟩ := run_bind_ok.mp h
  obtain ⟨rfl, rfl⟩ := run_pure_ok.mp h
  have htoken := reads_expectKeyword htoken
  have hopen := reads_openScope rfl hopen
  have hnewline := reads_skip rfl rfl hnewline
  have hscopes : s₁.scopes = s.scopes := htoken.scopes_eq
  have hvalid₁ : s₁.scopes.Valid := hscopes ▸ hv
  have hhead := hopen.append hnewline
  obtain ⟨hvalid, hseen⟩ := hhead.seen_opened hvalid₁
  have hbody := blockBody_reads hstatement hvalid hbody
  have hmark : body.any Stmt.isUntil = true := by
    rw [← hbody.hasUntil hhead hvalid₁]
    rwa [hopen.scopes_eq] at huntil
  refine ⟨?_, ?_, hmark, hbody.legal.complete⟩
  · rw [Stmt.trace_loop, Trace.block_eq]
    exact htoken.append (hopen.append (hnewline.append
      (hbody.reads.append ((reads_closeScope hclose).append (reads_skip rfl rfl hend)))))
  · have hsound := hbody.legal.nodes
    rwa [hseen, hscopes] at hsound

/-! ## Conditionals -/

/-- A rule has read a conditional with what is chained to it. -/
structure ReadsConditional (s : State) (conditional : Conditional) (s' : State) : Prop where
  reads : Reads s conditional.trace s'
  sound : ∀ node ∈ conditional.nodes, node.Sound s.scopes.seen
  complete : conditional.Complete

/-- The head of a conditional has been read, with at least one statement in its body. -/
theorem conditionalHead_reads (hstatement : YieldsStmt statement) (hv : s.scopes.Valid)
    {token : Token} {condition : Expr} {body : List Stmt}
    (h : (conditionalHead statement).run s = .ok (token, condition, body) s') :
    Reads s (Conditional.headTrace token condition body) s' ∧ body ≠ [] ∧
      (∀ node ∈ condition.nodes ++ Stmt.nodesOfAll body, node.Sound s.scopes.seen) ∧
        Stmt.AllComplete body := by
  obtain ⟨_, s₁, htoken, h⟩ := run_bind_ok.mp h
  obtain ⟨_, s₂, hcondition, h⟩ := run_bind_ok.mp h
  obtain ⟨_, s₃, hbody, h⟩ := run_bind_ok.mp h
  obtain ⟨heq, rfl⟩ := run_pure_ok.mp h
  cases heq
  have htoken := reads_expectKeyword htoken
  have hcondition := expression_yields _ _ _ hcondition
  have hscopes : s₂.scopes = s.scopes := hcondition.scopes_eq.trans htoken.scopes_eq
  obtain ⟨hbody, hne, hlegal⟩ := braced_reads hstatement rfl (hscopes ▸ hv) hbody
  have hsound := hcondition.legal
  rw [htoken.scopes_eq] at hsound
  rw [hscopes] at hlegal
  exact ⟨htoken.append (hcondition.reads.append hbody), hne,
    List.forall_mem_append.mpr ⟨hsound, hlegal.nodes⟩, hlegal.complete⟩

/-- What follows the head of a conditional stands in the scope where the conditional stands. -/
theorem Reads.after_head {token : Token} {condition : Expr} {body : List Stmt}
    (h : Reads s (Conditional.headTrace token condition body) s') (hv : s.scopes.Valid) :
    s'.scopes.Valid ∧ s'.scopes.seen = s.scopes.seen := by
  have hpasses := Conditional.passes_head hv token condition body
  rw [h.scopes_eq]
  exact ⟨hpasses.valid, hpasses.seen hv⟩

/-- A conditional has been read with what is chained to it, if that has been. -/
theorem conditionalStep_reads (hstatement : YieldsStmt statement) {next : Rule Conditional}
    (hnext : ∀ s conditional s', s.scopes.Valid → next.run s = .ok conditional s' →
      ReadsConditional s conditional s') {conditional : Conditional} (hv : s.scopes.Valid)
    (h : (conditionalStep statement next).run s = .ok conditional s') :
    ReadsConditional s conditional s' := by
  rw [conditionalStep_eq] at h
  obtain ⟨⟨token, condition, body⟩, s₁, hhead, h⟩ := run_bind_ok.mp h
  obtain ⟨hhead, hne, hsound, hcomplete⟩ := conditionalHead_reads hstatement hv hhead
  obtain ⟨hvalid, hseen⟩ := hhead.after_head hv
  rw [run_observe_bind] at h
  split at h
  case isTrue =>
    obtain ⟨_, s₂, helse, h⟩ := run_bind_ok.mp h
    have helse := reads_skipKeyword helse
    have hscopes : s₂.scopes = s₁.scopes := helse.scopes_eq
    rw [← hscopes] at hvalid hseen
    rw [run_observe_bind] at h
    split at h
    case isTrue =>
      obtain ⟨last, s₃, hlast, h⟩ := run_bind_ok.mp h
      obtain ⟨rfl, rfl⟩ := run_pure_ok.mp h
      have hlast := hnext _ _ _ hvalid hlast
      refine ⟨?_, ?_, ⟨hne, hcomplete⟩, hlast.complete⟩
      · rw [Conditional.trace_chained]
        exact hhead.append (helse.append hlast.reads)
      · exact List.forall_mem_append.mpr ⟨hsound, hseen ▸ hlast.sound⟩
    case isFalse =>
      obtain ⟨alternative, s₃, halternative, h⟩ := run_bind_ok.mp h
      obtain ⟨rfl, rfl⟩ := run_pure_ok.mp h
      obtain ⟨halternative, hne', hlegal⟩ := braced_reads hstatement rfl hvalid halternative
      refine ⟨?_, ?_, ⟨hne, hcomplete⟩, hne', hlegal.complete⟩
      · rw [Conditional.trace_otherwise]
        exact hhead.append (helse.append halternative)
      · exact List.forall_mem_append.mpr ⟨hsound, hseen ▸ hlegal.nodes⟩
  case isFalse =>
    obtain ⟨rfl, rfl⟩ := run_pure_ok.mp h
    refine ⟨?_, hsound, hne, hcomplete⟩
    rw [Conditional.trace_only]
    exact hhead

/-- A conditional within any depth has been read with all that is chained to it. -/
theorem conditionalWithin_reads (hstatement : YieldsStmt statement) (depth : Nat) :
    ∀ s conditional s', s.scopes.Valid →
      (conditionalWithin statement depth).run s = .ok conditional s' →
      ReadsConditional s conditional s' := by
  induction depth with
  | zero =>
    intro s conditional s' _ h
    rw [conditionalWithin, run_observe_bind] at h
    exact absurd h run_reject_ok
  | succ depth ih =>
    intro s conditional s' hv h
    rw [conditionalWithin_succ] at h
    exact conditionalStep_reads hstatement ih hv h

/-- A conditional that is yielded has been read. -/
theorem conditionalOver_reads (hstatement : YieldsStmt statement) {conditional : Conditional}
    (hv : s.scopes.Valid) (h : (conditionalOver statement).run s = .ok conditional s') :
    ReadsConditional s conditional s' := by
  rw [conditionalOver, run_observe_bind] at h
  exact conditionalWithin_reads hstatement _ _ _ _ hv h

/-! ## Lines -/

/-- The loop has been marked with nothing read. -/
theorem markLoop_reads {u : Unit} (h : markLoop.run s = .ok u s') :
    Reads s (.settled Scopes.markLoop) s' := by
  cases h
  exact .settled Scopes.markLoop

/-- An `until` statement that is yielded has been read. -/
theorem untilStatement_yields : YieldsStmt untilStatement := by
  intro s stmt s' hv h
  obtain ⟨token, s₁, htoken, h⟩ := run_bind_ok.mp h
  obtain ⟨_, s₂, hmark, h⟩ := run_bind_ok.mp h
  obtain ⟨condition, s₃, hcondition, h⟩ := run_bind_ok.mp h
  obtain ⟨_, s₄, hend, h⟩ := run_bind_ok.mp h
  obtain ⟨rfl, rfl⟩ := run_pure_ok.mp h
  have htoken := reads_expectKeyword htoken
  have hmark := markLoop_reads hmark
  have hcondition := expression_yields _ _ _ hcondition
  refine ⟨?_, ?_, trivial⟩
  · rw [Stmt.trace_until]
    exact htoken.append (hmark.append (hcondition.reads.append (reads_skip rfl rfl hend)))
  · have hseen : s₂.scopes.seen = s.scopes.seen := by
      rw [hmark.scopes_eq, htoken.scopes_eq]
      exact (Scopes.Passes.markLoop hv).seen hv
    exact hseen ▸ hcondition.legal

/-- A `return` statement that is yielded has been read. -/
theorem resultStatement_yields : YieldsStmt resultStatement := by
  intro s stmt s' _ h
  obtain ⟨token, s₁, htoken, h⟩ := run_bind_ok.mp h
  have htoken := reads_expectKeyword htoken
  rw [run_observe_bind] at h
  split at h
  case isTrue =>
    obtain ⟨_, s₂, hend, h⟩ := run_bind_ok.mp h
    obtain ⟨rfl, rfl⟩ := run_pure_ok.mp h
    refine ⟨?_, by simp [Stmt.nodes], trivial⟩
    rw [Stmt.trace_result_none]
    exact htoken.append (reads_skip rfl rfl hend)
  case isFalse =>
    obtain ⟨value, s₂, hvalue, h⟩ := run_bind_ok.mp h
    obtain ⟨_, s₃, hend, h⟩ := run_bind_ok.mp h
    obtain ⟨rfl, rfl⟩ := run_pure_ok.mp h
    have hvalue := expression_yields _ _ _ hvalue
    refine ⟨?_, ?_, trivial⟩
    · rw [Stmt.trace_result_some]
      exact htoken.append (hvalue.reads.append (reads_skip rfl rfl hend))
    · have hlegal := hvalue.legal
      rwa [htoken.scopes_eq] at hlegal

/-- An assignment or expression that is yielded has been read. -/
theorem simpleStatement_yields : YieldsStmt simpleStatement := by
  intro s stmt s' _ h
  obtain ⟨value, s₁, hvalue, h⟩ := run_bind_ok.mp h
  have hvalue := expression_yields _ _ _ hvalue
  rw [run_observe_bind] at h
  split at h
  case isTrue =>
    obtain ⟨colon, s₂, hcolon, h⟩ := run_bind_ok.mp h
    obtain ⟨stored, s₃, hstored, h⟩ := run_bind_ok.mp h
    obtain ⟨_, s₄, hend, h⟩ := run_bind_ok.mp h
    obtain ⟨rfl, rfl⟩ := run_pure_ok.mp h
    have hcolon := reads_expect rfl hcolon
    have hstored := expression_yields _ _ _ hstored
    refine ⟨?_, ?_, trivial⟩
    · rw [Stmt.trace_assignment]
      exact hvalue.reads.append (hcolon.append (hstored.reads.append (reads_skip rfl rfl hend)))
    · have hlegal := hstored.legal
      rw [hcolon.scopes_eq, hvalue.scopes_eq] at hlegal
      exact List.forall_mem_append.mpr ⟨hvalue.legal, hlegal⟩
  case isFalse =>
    rw [run_observe_bind] at h
    split at h
    case isTrue =>
      obtain ⟨_, s₂, hend, h⟩ := run_bind_ok.mp h
      obtain ⟨rfl, rfl⟩ := run_pure_ok.mp h
      refine ⟨?_, hvalue.legal, trivial⟩
      rw [Stmt.trace_expression]
      exact hvalue.reads.append (reads_skip rfl rfl hend)
    case isFalse =>
      rw [run_observe_bind] at h
      exact absurd h run_reject_ok

/-! ## Statements -/

/-- The law of statements, for a rule that reads the statements inside them. -/
theorem statementOver_yields (hstatement : YieldsStmt statement) :
    YieldsStmt (statementOver statement) := by
  intro s stmt s' hv h
  rw [statementOver, run_observe_bind] at h
  split at h
  case isTrue =>
    split at h
    case h_1 =>
      obtain ⟨conditional, hconditional, rfl⟩ := run_map_ok.mp h
      have hreads := conditionalOver_reads hstatement hv hconditional
      exact ⟨hreads.reads, hreads.sound, hreads.complete⟩
    case h_2 => exact untilStatement_yields _ _ _ hv h
    case h_3 => exact loopOver_yields hstatement _ _ _ hv h
    case h_4 => exact resultStatement_yields _ _ _ hv h
    case h_5 => exact absurd h run_reject_ok
  case isFalse => exact simpleStatement_yields _ _ _ hv h

/-- Statements within any depth have been read. -/
theorem statementWithin_yields (depth : Nat) : YieldsStmt (statementWithin depth) := by
  induction depth with
  | zero =>
    intro s stmt s' _ h
    rw [statementWithin, run_observe_bind] at h
    exact absurd h run_reject_ok
  | succ depth ih => exact statementOver_yields ih

/-- A statement is read in full and is legal where it stands. -/
theorem statement_yields : YieldsStmt Grammar.statement := by
  intro s stmt s' hv h
  rw [Grammar.statement, run_observe_bind] at h
  exact statementWithin_yields _ _ _ _ hv h

end Grammar

end Tranquility
