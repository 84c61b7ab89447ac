import Tranquility.Proofs.Bounds.Nesting
import Tranquility.Proofs.Parallel.Program
import Tranquility.Proofs.Reading.Program
import Tranquility.Proofs.Scope.Distinct

/-!
# Loops and their `until` statements

A loop is refused exactly if no `until` statement stands in its body itself. What decides is a mark
on the scope that the loop has opened, and an `until` statement marks the scope that is current
where it stands. Whatever blocks the body opens and closes in between, the loop's own scope is
current at each statement of the body and at no other statement, be it deeper inside or outside.
-/

namespace Tranquility

/-! ## The statements of a program -/

mutual

/-- A statement with the statements inside it, at any depth. -/
def Stmt.nested : Stmt → List Stmt
  | .conditional conditional => .conditional conditional :: conditional.nested
  | .loop token body => .loop token body :: Stmt.nestedAll body
  | stmt => [stmt]

/-- The statements inside a conditional and inside what is chained to it, at any depth. -/
def Conditional.nested : Conditional → List Stmt
  | .only _ _ body => Stmt.nestedAll body
  | .otherwise _ _ body alternative => Stmt.nestedAll body ++ Stmt.nestedAll alternative
  | .chained _ _ body next => Stmt.nestedAll body ++ next.nested

/-- Some statements with the statements inside them, at any depth. -/
def Stmt.nestedAll : List Stmt → List Stmt
  | [] => []
  | stmt :: stmts => stmt.nested ++ Stmt.nestedAll stmts

end

/-- The statements of a program, at any depth. -/
def Program.statements (program : Program) : List Stmt :=
  program.functions.flatMap fun function => Stmt.nestedAll function.body

/-- Statements have an `until` statement among them, not counting those deeper inside. -/
def Stmt.HasUntil (stmts : List Stmt) : Prop :=
  ∃ token condition, Stmt.until token condition ∈ stmts

/-- Whether statements have an `until` among them can be looked up. -/
theorem Stmt.hasUntil_iff {stmts : List Stmt} :
    Stmt.HasUntil stmts ↔ stmts.any Stmt.isUntil = true := by
  rw [List.any_eq_true]
  constructor
  · rintro ⟨token, condition, hmem⟩
    exact ⟨_, hmem, rfl⟩
  · rintro ⟨stmt, hmem, huntil⟩
    cases stmt with
    | «until» token condition => exact ⟨token, condition, hmem⟩
    | _ => cases huntil

/-- The statement is a loop. -/
def Stmt.isLoop : Stmt → Bool
  | .loop _ _ => true
  | _ => false

/-- A statement that is a loop has a keyword and a body. -/
theorem Stmt.exists_of_isLoop {stmt : Stmt} (h : stmt.isLoop = true) :
    ∃ token body, stmt = .loop token body := by
  cases stmt with
  | loop token body => exact ⟨token, body, rfl⟩
  | _ => cases h

section

variable {token : Token} {body : List Stmt}

mutual

/-- In a complete statement every loop has an `until` statement of its own. -/
theorem Stmt.Complete.hasUntil : ∀ {stmt : Stmt}, stmt.Complete → .loop token body ∈ stmt.nested →
    Stmt.HasUntil body
  | .conditional _, h, hmem => by
    rcases List.mem_cons.mp hmem with heq | hmem
    · cases heq
    · exact Conditional.Complete.hasUntil h hmem
  | .loop _ _, ⟨huntil, h⟩, hmem => by
    rcases List.mem_cons.mp hmem with heq | hmem
    · cases heq
      exact Stmt.hasUntil_iff.mpr huntil
    · exact Stmt.AllComplete.hasUntil h hmem
  | .until _ _, _, hmem => by cases List.mem_singleton.mp hmem
  | .result _ _, _, hmem => by cases List.mem_singleton.mp hmem
  | .assignment _ _ _, _, hmem => by cases List.mem_singleton.mp hmem
  | .expression _, _, hmem => by cases List.mem_singleton.mp hmem

theorem Conditional.Complete.hasUntil : ∀ {conditional : Conditional}, conditional.Complete →
    .loop token body ∈ conditional.nested → Stmt.HasUntil body
  | .only _ _ _, ⟨_, h⟩, hmem => Stmt.AllComplete.hasUntil h hmem
  | .otherwise _ _ _ _, ⟨⟨_, h⟩, _, h'⟩, hmem => by
    rcases List.mem_append.mp hmem with hmem | hmem
    · exact Stmt.AllComplete.hasUntil h hmem
    · exact Stmt.AllComplete.hasUntil h' hmem
  | .chained _ _ _ _, ⟨⟨_, h⟩, h'⟩, hmem => by
    rcases List.mem_append.mp hmem with hmem | hmem
    · exact Stmt.AllComplete.hasUntil h hmem
    · exact Conditional.Complete.hasUntil h' hmem

theorem Stmt.AllComplete.hasUntil : ∀ {stmts : List Stmt}, Stmt.AllComplete stmts →
    .loop token body ∈ Stmt.nestedAll stmts → Stmt.HasUntil body
  | [], _, hmem => absurd hmem List.not_mem_nil
  | _ :: _, ⟨h, h'⟩, hmem => by
    rcases List.mem_append.mp hmem with hmem | hmem
    · exact Stmt.Complete.hasUntil h hmem
    · exact Stmt.AllComplete.hasUntil h' hmem

end

end

/-! ## The scopes of a parse -/

namespace Scopes

/-- The scopes that a parse can come to: it starts with the global one, and then opens and closes
blocks, declares names and notes `until` statements. -/
inductive Reached : Scopes → Prop where
  | initial : Reached initial
  | opened {scopes : Scopes} (before : Reached scopes) (kind : ScopeKind) :
    Reached (scopes.opened kind)
  | closed {scopes : Scopes} (before : Reached scopes) : Reached scopes.closed
  | variableDeclared {scopes : Scopes} (before : Reached scopes) (token : Token) :
    Reached (scopes.declared [token])
  | functionDeclared {scopes : Scopes} (before : Reached scopes) (symbol : FunctionSymbol)
    (id : Nat) : Reached (scopes.declareFunction symbol id)
  | untilNoted {scopes : Scopes} (before : Reached scopes) : Reached scopes.markLoop

/-- Every step of a parse leads from scopes it can come to on to such scopes. -/
theorem enduring_reached : Enduring Reached where
  opened := .opened
  closed := .closed
  markLoop := .untilNoted
  declared := .variableDeclared
  declareFunction := .functionDeclared

/-- A parse only comes to scopes that hold together. -/
theorem Reached.valid {scopes : Scopes} (h : scopes.Reached) : scopes.Valid := by
  induction h with
  | initial => exact atTop_initial.valid
  | opened _ kind ih => exact ih.opened kind
  | closed _ ih => exact ih.closed
  | variableDeclared _ token ih => exact ih.declared [token]
  | functionDeclared _ symbol id ih =>
    exact ih.modify (Scope.addFunction symbol) (fun _ => rfl) id
  | untilNoted _ ih => exact (Passes.markLoop ih).valid

end Scopes

/-! ## The verdict on a loop -/

namespace Grammar

/-- Each statement of a parse leads to such scopes again, whether it is read or fails, so that the
statement after it starts in them. -/
theorem statement_reached {s : State} (hs : s.scopes.Reached) :
    (∀ stmt s', statement.run s = .ok stmt s' → s'.scopes.Reached) ∧
      ∀ e s', statement.run s = .error e s' → s'.scopes.Reached :=
  (statement_parallel Scopes.enduring_reached.toLasting).kept hs

/-- A parse comes to such scopes wherever it ends or fails. -/
theorem program_reached (tokens : List Token) (reporter : Reporter) :
    (∀ program s', Grammar.program.run (.ofTokens tokens reporter) = .ok program s' →
      s'.scopes.Reached) ∧
      ∀ e s', Grammar.program.run (.ofTokens tokens reporter) = .error e s' → s'.scopes.Reached :=
  (program_parallel Scopes.enduring_reached).kept .initial

/-- A loop up to its body, with the scope that its brace opens. -/
def loopHead : Rule (Token × Nat) := do
  let token ← expectKeyword "loop"
  openScope .loop
  let scope ← observe (·.scopes.current)
  skip .newline
  return (token, scope)

/-- The statements of a loop, up to its right brace. -/
def loopBody : Rule (List Stmt) :=
  unlessAt .rightBrace body

/-- What is left of a loop after its body: the verdict, and the end of the block. -/
def loopEnd (token : Token) (scope : Nat) (body : List Stmt) : Rule Stmt := do
  require (← observe (·.scopes.hasUntil scope)) token .endlessLoop
  skip .rightBrace
  skip .newline
  return .loop token body

/-- A loop is its head, its body, and the verdict with the right brace. -/
theorem loop_eq : loop = (do
    let (token, scope) ← loopHead
    let body ← loopBody
    loopEnd token scope body) := by
  simp only [loop, loopOver, loopHead, loopBody, loopEnd, body, bind_assoc, pure_bind]

variable {s s₁ s₂ s' : State} {token : Token} {scope : Nat} {stmts : List Stmt}

/-- The head of a loop is its keyword, and the scope it opens is a new one. -/
theorem loopHead_reads (h : loopHead.run s = .ok (token, scope) s₁) :
    token.isKeyword "loop" = true ∧ ∃ s₀, s₀.scopes = s.scopes ∧ scope = s.scopes.arena.size ∧
      Reads s₀ (.opened .loop ++ .ofPiece (.mark .newline)) s₁ := by
  obtain ⟨token, s₂, htoken, h⟩ := run_bind_ok.mp h
  obtain ⟨_, s₃, hopen, h⟩ := run_bind_ok.mp h
  rw [run_observe_bind] at h
  obtain ⟨_, s₄, hnewline, h⟩ := run_bind_ok.mp h
  obtain ⟨hpair, rfl⟩ := run_pure_ok.mp h
  obtain ⟨rfl, rfl⟩ := Prod.mk.inj hpair
  obtain ⟨hkind, htext⟩ := keyword_of_expectKeyword htoken
  have hopen := reads_openScope rfl hopen
  have hscopes : s₂.scopes = s.scopes := (reads_expectKeyword htoken).scopes_eq
  refine ⟨by simp [Token.isKeyword, hkind, htext], s₂, hscopes, ?_, ?_⟩
  · rw [hopen.scopes_eq, ← hscopes]
    rfl
  · exact hopen.append (reads_skip rfl rfl hnewline)

/-- After the statements of a loop a right brace follows, be there any or none. -/
theorem loopBody_ends (h : loopBody.run s = .ok stmts s') : s'.sees .rightBrace = true := by
  rw [loopBody, unlessAt, run_observe_bind] at h
  split at h
  case isTrue hbrace =>
    obtain ⟨_, rfl⟩ := run_pure_ok.mp h
    exact hbrace
  case isFalse => exact body_ends h

/-- No token is refused for being a loop without end. -/
theorem not_endlessLoop_of_refusal? {other : Token} {kind : Option Kind} {text : Option String} :
    other.refusal? kind text ≠ some .endlessLoop := by
  intro h
  rcases Token.refusal?_cases h with ⟨_, h⟩ | ⟨_, h⟩ | h <;> cases h

/-- To skip a token never fails with the verdict on a loop. -/
theorem skip_ne_endlessLoop {kind : Kind} :
    (skip kind).run s ≠ .error (.violation ⟨token, .endlessLoop, .error⟩) s' := by
  intro h
  have hrun := run_discard_error.mp h
  rw [expect, run_advance] at hrun
  split at hrun
  case h_1 violation hrefusal =>
    cases hrun
    exact not_endlessLoop_of_refusal? hrefusal
  case h_2 => cases hrun
  case h_3 => cases hrun

/-- After its body a loop is refused exactly if its scope has no mark. -/
theorem loopEnd_error_iff :
    (loopEnd token scope stmts).run s = .error (.violation ⟨token, .endlessLoop, .error⟩) s' ↔
      s.scopes.hasUntil scope = false ∧ s = s' := by
  rw [loopEnd, run_observe_bind, run_bind_error, run_require_error]
  constructor
  · rintro (⟨hmark, _, rfl⟩ | ⟨_, s₁, _, h⟩)
    · exact ⟨hmark, rfl⟩
    · rcases run_bind_error.mp h with h | ⟨_, s₂, _, h⟩
      · exact absurd h skip_ne_endlessLoop
      · rcases run_bind_error.mp h with h | ⟨_, s₃, _, h⟩
        · exact absurd h skip_ne_endlessLoop
        · exact absurd h run_pure_error
  · rintro ⟨hmark, rfl⟩
    exact .inl ⟨hmark, rfl, rfl⟩

/-- Once the body of a loop has been read, its mark says whether it has an `until` statement. -/
theorem loop_hasUntil (hv : s.scopes.Valid) (hhead : loopHead.run s = .ok (token, scope) s₁)
    (hbody : loopBody.run s₁ = .ok stmts s₂) :
    s₂.scopes.hasUntil scope = stmts.any Stmt.isUntil := by
  obtain ⟨_, s₀, hscopes, rfl, hopened⟩ := loopHead_reads hhead
  have hv₀ : s₀.scopes.Valid := hscopes ▸ hv
  have hreads := blockBody_reads statement_yields (hopened.seen_opened hv₀).1 hbody
  rw [← hscopes]
  exact hreads.hasUntil hopened hv₀

end Grammar

open Grammar

/-- In a program that the grammar reads, every loop at any depth has an `until` statement in its
body itself. Where a parse has read a loop up to the right brace of its body, it refuses the loop,
at its keyword and with nothing read after the body, exactly if there is no `until` statement in the
body itself; those before the loop, around it and in the blocks of its body change nothing. -/
theorem loop_verdict :
    (∀ (tokens : List Token) (reporter : Reporter) (program : Program) (s' : State),
      Grammar.program.run (.ofTokens tokens reporter) = .ok program s' →
        ∀ (token : Token) (body : List Stmt), .loop token body ∈ program.statements →
          Stmt.HasUntil body) ∧
    ∀ (s s₁ s₂ : State) (token : Token) (scope : Nat) (body : List Stmt), s.scopes.Reached →
      loopHead.run s = .ok (token, scope) s₁ → loopBody.run s₁ = .ok body s₂ →
        token.isKeyword "loop" = true ∧ s₂.sees .rightBrace = true ∧
          ∀ s', loop.run s = .error (.violation ⟨token, .endlessLoop, .error⟩) s' ↔
            ¬ Stmt.HasUntil body ∧ s' = s₂ := by
  constructor
  · intro tokens reporter program s' h token body hloop
    obtain ⟨function, hfunction, hloop⟩ := List.mem_flatMap.mp hloop
    obtain ⟨earlier, later, hsplit⟩ := List.append_of_mem hfunction
    have hlegal := (program_reads rfl h).functions earlier function later hsplit
    exact hlegal.body.complete.hasUntil hloop
  · intro s s₁ s₂ token scope body hs hhead hbody
    refine ⟨(loopHead_reads hhead).1, loopBody_ends hbody, fun s' => ?_⟩
    have hrun : loop.run s = (loopEnd token scope body).run s₂ := by
      rw [loop_eq, EStateM.run_bind, hhead]
      show (loopBody >>= _).run s₁ = _
      rw [EStateM.run_bind, hbody]
    rw [hrun, loopEnd_error_iff, loop_hasUntil hs.valid hhead hbody, Stmt.hasUntil_iff,
      Bool.not_eq_true]
    exact and_congr_right fun _ => eq_comm

/-- A loop in a loop is accepted with an `until` statement in each, and a loop is refused whose only
`until` statement stands in a conditional. -/
theorem loop_verdict_nested :
    (∃ tokens program s' token body,
      tokenize "fun f() \x7b\nloop \x7b\nloop \x7b\nuntil 1\n\x7d\nuntil 2\n\x7d\n\x7d" = .ok tokens ∧
        Grammar.program.run (.ofTokens tokens .empty) = .ok program s' ∧
          .loop token body ∈ program.statements ∧ Stmt.HasUntil body) ∧
    ∃ tokens s₁ s₂ token scope body,
      tokenize "loop \x7b\nif 1 \x7b\nuntil 2\n\x7d\n\x7d\n" = .ok tokens ∧
        (State.ofTokens tokens .empty).scopes.Reached ∧
          loopHead.run (.ofTokens tokens .empty) = .ok (token, scope) s₁ ∧
            loopBody.run s₁ = .ok body s₂ ∧ ¬ Stmt.HasUntil body ∧
              loop.run (.ofTokens tokens .empty) =
                .error (.violation ⟨token, .endlessLoop, .error⟩) s₂ := by
  constructor
  · have htokens := tokenize_eq
      "fun f() \x7b\nloop \x7b\nloop \x7b\nuntil 1\n\x7d\nuntil 2\n\x7d\n\x7d"
    have hok : reaches (fun program _ => program.statements.any (·.isLoop))
        (Grammar.program.run (.ofTokens (Token.significant (scan
          "fun f() \x7b\nloop \x7b\nloop \x7b\nuntil 1\n\x7d\nuntil 2\n\x7d\n\x7d").tokens)
          .empty)) = true := by decide +kernel
    obtain ⟨program, s', h, hloops⟩ := exists_ok_of_reaches hok
    obtain ⟨stmt, hmem, hloop⟩ := List.any_eq_true.mp hloops
    obtain ⟨token, body, rfl⟩ := Stmt.exists_of_isLoop hloop
    exact ⟨_, program, s', token, body, htokens, h, hmem,
      loop_verdict.1 _ _ _ _ h token body hmem⟩
  · have htokens := tokenize_eq "loop \x7b\nif 1 \x7b\nuntil 2\n\x7d\n\x7d\n"
    have hok : reaches
        (fun _ s₁ => reaches (fun body _ => !body.any Stmt.isUntil) (loopBody.run s₁))
        (loopHead.run (.ofTokens (Token.significant (scan
          "loop \x7b\nif 1 \x7b\nuntil 2\n\x7d\n\x7d\n").tokens) .empty)) = true := by
      decide +kernel
    obtain ⟨head, s₁, hhead, hbody⟩ := exists_ok_of_reaches hok
    obtain ⟨body, s₂, hbody, huntil⟩ := exists_ok_of_reaches hbody
    have hnone : ¬ Stmt.HasUntil body := by
      rw [Stmt.hasUntil_iff]
      simpa using huntil
    have hverdict := loop_verdict.2 _ s₁ s₂ head.1 head.2 body .initial hhead hbody
    exact ⟨_, s₁, s₂, head.1, head.2, body, htokens, .initial, hhead, hbody, hnone,
      (hverdict.2.2 s₂).mpr ⟨hnone, rfl⟩⟩

end Tranquility
