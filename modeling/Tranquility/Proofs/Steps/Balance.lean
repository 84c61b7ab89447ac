import Tranquility.Proofs.Steps.Nonterminal

/-!
# Balance of braces and scopes

Scopes move only as braces are read, so where a run stands among the scopes is told by the braces
that it has read: the scopes around the place where it started are around it still, and each brace
that is open stands for one scope in between. A rule that ends well has closed what it has opened. A
rule that fails may leave scopes open, but never closes one that it has not opened, so that no move
between scopes is impossible.
-/

namespace Tranquility

/-- The number of left braces among tokens. -/
def Token.leftBraces (tokens : List Token) : Nat :=
  tokens.countP (·.kind = .leftBrace)

/-- The number of right braces among tokens. -/
def Token.rightBraces (tokens : List Token) : Nat :=
  tokens.countP (·.kind = .rightBrace)

namespace Grammar

open Token (leftBraces rightBraces)

variable {s s₁ s' : State} {read read' : List Token} {depth depth' : Nat}

/-- From one state these tokens have been read up to another. -/
structure Consumes (s : State) (read : List Token) (s' : State) : Prop where
  rest : s.rest = read ++ s'.rest
  position : s'.position = s.position + read.length
  endToken : s'.endToken = s.endToken

namespace Consumes

theorem refl (s : State) : Consumes s [] s :=
  ⟨rfl, rfl, rfl⟩

theorem trans (h : Consumes s read s₁) (h' : Consumes s₁ read' s') :
    Consumes s (read ++ read') s' where
  rest := by rw [h.rest, h'.rest, List.append_assoc]
  position := by rw [h'.position, h.position, List.length_append, Nat.add_assoc]
  endToken := h'.endToken.trans h.endToken

/-- Where fewer tokens are left, more have been read. -/
theorem position_lt (h : Consumes s read s') (hlt : s'.rest.length < s.rest.length) :
    s.position < s'.position := by
  rw [h.rest, List.length_append] at hlt
  rw [h.position]
  omega

/-- Where a token is read, it is the current one. -/
theorem ofCurrent (hend : s.current.kind ≠ .endOfInput) (scopes : Scopes) :
    Consumes s [s.current] (s.read scopes) :=
  ⟨State.rest_eq_cons hend, rfl, rfl⟩

/-- Neither scopes nor diagnostics tell which tokens have been read. -/
theorem update (h : Consumes s read s') (scopes : Scopes) (reporter : Reporter) :
    Consumes s read { s' with scopes, reporter } :=
  ⟨h.rest, h.position, h.endToken⟩

end Consumes

/-- After these tokens have been read, `depth` scopes are open that were not open before. -/
structure Stands (s : State) (read : List Token) (depth : Nat) (s' : State) : Prop where
  consumes : Consumes s read s'
  current_lt : s'.scopes.current < s'.scopes.arena.size
  size : s'.scopes.arena.size = s.scopes.arena.size + leftBraces read
  /-- The scopes that there were are where they were. -/
  outer : ∀ id < s.scopes.arena.size, s'.scopes.outer id = s.scopes.outer id
  /-- Between the current scope and the one at the start are those that are open. -/
  chain : ∃ inner : List Nat, inner.length = depth ∧
    s'.scopes.chain s'.scopes.current = inner ++ s.scopes.chain s.scopes.current
  count : rightBraces read + depth = leftBraces read

namespace Stands

theorem refl (h : s.scopes.current < s.scopes.arena.size) : Stands s [] 0 s :=
  ⟨.refl s, h, rfl, fun _ _ => rfl, ⟨[], rfl, rfl⟩, rfl⟩

theorem trans (h : Stands s read depth s₁) (h' : Stands s₁ read' depth' s') :
    Stands s (read ++ read') (depth + depth') s' where
  consumes := h.consumes.trans h'.consumes
  current_lt := h'.current_lt
  size := by
    rw [h'.size, h.size, leftBraces, leftBraces, leftBraces, List.countP_append, Nat.add_assoc]
  outer id hid := by
    rw [h'.outer id (by rw [h.size]; exact Nat.lt_add_right _ hid), h.outer id hid]
  chain := by
    obtain ⟨inner, rfl, hchain⟩ := h.chain
    obtain ⟨inner', rfl, hchain'⟩ := h'.chain
    refine ⟨inner' ++ inner, by rw [List.length_append, Nat.add_comm], ?_⟩
    rw [hchain', hchain, List.append_assoc]
  count := by
    have hfirst := h.count
    have hsecond := h'.count
    simp only [leftBraces, rightBraces, List.countP_append] at *
    omega

/-- Where all scopes that have been opened are closed, the one at the start is current. -/
theorem current_eq (h : Stands s read 0 s') : s'.scopes.current = s.scopes.current := by
  obtain ⟨inner, hinner, hchain⟩ := h.chain
  rw [List.eq_nil_of_length_eq_zero hinner, List.nil_append] at hchain
  exact (List.cons.inj hchain).1

/-- The current scope is so much deeper as scopes have been opened. -/
theorem depth_eq (h : Stands s read depth s') : s'.scopes.depth = s.scopes.depth + depth := by
  obtain ⟨inner, rfl, hchain⟩ := h.chain
  have hlength := congrArg List.length hchain
  simp only [Scopes.chain, List.length_append, List.length_cons] at hlength
  simp only [Scopes.depth]
  omega

/-- Apart from braces, reading a token changes no scopes. -/
theorem plain (h : s.scopes.current < s.scopes.arena.size)
    (hplain : s.current.kind.isPlain = true) (hend : s.current.kind ≠ .endOfInput) :
    Stands s [s.current] 0 (s.read s.scopes) := by
  obtain ⟨hleft, hright, _⟩ := Kind.isPlain_iff.mp hplain
  refine ⟨.ofCurrent hend _, h, ?_, fun _ _ => rfl, ⟨[], rfl, rfl⟩, ?_⟩
  · simp [State.read, leftBraces, hleft]
  · simp [leftBraces, rightBraces, hleft, hright]

/-- A left brace that is read opens a scope. -/
theorem opened {kind : ScopeKind} (hleft : s.current.kind = .leftBrace) :
    Stands s [s.current] 1 (s.read (s.scopes.opened kind)) where
  consumes := .ofCurrent (by simp [hleft]) _
  current_lt := by simp [State.read]
  size := by simp [State.read, leftBraces, hleft]
  outer id hid := Scopes.outer_opened_of_lt hid kind
  chain := ⟨[s.scopes.arena.size], rfl, congrArg _ (Scopes.outer_opened_size kind s.scopes)⟩
  count := by simp [leftBraces, rightBraces, hleft]

/-- Around the only scope that is open stands the one at the start. -/
theorem outer_current (h : Stands s read 1 s') :
    s'.scopes.outer s'.scopes.current = s.scopes.chain s.scopes.current := by
  obtain ⟨inner, hinner, hchain⟩ := h.chain
  obtain ⟨id, rfl⟩ := List.length_eq_one_iff.mp hinner
  exact (List.cons.inj hchain).2

/-- A right brace closes the only scope that is open. -/
theorem closed (hs : s.scopes.current < s.scopes.arena.size) (h : Stands s read 1 s')
    (hright : s'.current.kind = .rightBrace) :
    Stands s (read ++ [s'.current]) 0 (s'.read s'.scopes.closed) := by
  have hcurrent : s'.scopes.closed.current = s.scopes.current := by
    rw [Scopes.closed, h.outer_current]
    rfl
  refine ⟨h.consumes.trans (.ofCurrent (by simp [hright]) _), ?_, ?_, h.outer, ⟨[], rfl, ?_⟩, ?_⟩
  · show s'.scopes.closed.current < s'.scopes.arena.size
    rw [hcurrent, h.size]
    exact Nat.lt_add_right _ hs
  · show s'.scopes.arena.size = _
    rw [h.size, leftBraces, leftBraces, List.countP_append]
    simp [hright]
  · show s'.scopes.closed.current :: s'.scopes.outer s'.scopes.closed.current = _
    rw [hcurrent, h.outer _ hs]
    rfl
  · have hcount := h.count
    simp only [leftBraces, rightBraces, List.countP_append, List.countP_singleton, hright] at *
    simpa using hcount

/-- A change of one record moves between no scopes. -/
theorem modify (h : s.scopes.current < s.scopes.arena.size) (change : Scope → Scope)
    (hchange : ∀ scope, (change scope).outer = scope.outer) (id : Nat) :
    Stands s [] 0 { s with
      scopes := { s.scopes with arena := s.scopes.arena.modify id change } } where
  consumes := ⟨rfl, rfl, rfl⟩
  current_lt := by simpa using h
  size := by simp [leftBraces]
  outer other _ := Scopes.outer_modify change hchange id other
  chain := ⟨[], rfl, congrArg _ (Scopes.outer_modify change hchange id _)⟩
  count := rfl

end Stands

/-- How a run ends that starts at a state: where it ends well no scope is left open, and where it
fails no move between scopes has been impossible. -/
def Balances {α : Type} (s : State) : EStateM.Result Error State α → Prop
  | .ok _ s' => ∃ read, Stands s read 0 s'
  | .error e s' => (∀ error, e ≠ .scope error) ∧ ∃ read depth, Stands s read depth s'

variable {α β : Type}

/-- A violation right where a run starts leaves no scope open. -/
theorem Balances.violation (h : s.scopes.current < s.scopes.arena.size) (error : TokenError) :
    Balances (α := α) s (.error (.violation error) s) :=
  ⟨fun _ he => (nomatch he), [], 0, .refl h⟩

/-- What goes on from a state without open scopes balances as a whole. -/
theorem Balances.after {result : EStateM.Result Error State α} (h : Stands s read 0 s₁)
    (h' : Balances s₁ result) : Balances s result := by
  cases result with
  | ok a s' =>
    obtain ⟨read', hread'⟩ := h'
    exact ⟨_, h.trans hread'⟩
  | error e s' =>
    obtain ⟨hscope, read', depth', hread'⟩ := h'
    exact ⟨hscope, _, _, h.trans hread'⟩

theorem Balances.bind {x : Rule α} {f : α → Rule β} (h : Balances s (x.run s))
    (hf : ∀ a s₁, s₁.scopes.current < s₁.scopes.arena.size → Balances s₁ ((f a).run s₁)) :
    Balances s ((x >>= f).run s) := by
  rw [EStateM.run_bind]
  cases hrun : x.run s with
  | ok a s₁ =>
    rw [hrun] at h
    obtain ⟨read, hread⟩ := h
    exact .after hread (hf a s₁ hread.current_lt)
  | error e s₁ =>
    rw [hrun] at h
    exact h

/-- A declaration opens no scope. -/
theorem balances_declareVariable (h : s.scopes.current < s.scopes.arena.size) (token : Token)
    (type : Ty) : Balances s ((declareVariable token type).run s) := by
  simp only [declareVariable, Scopes.declareVariable, EStateM.run_bind, EStateM.run_get]
  cases s.scopes.hasVariable token.text s.scopes.current with
  | true => exact .violation h _
  | false => exact ⟨[], .modify h (·.addVariable ⟨token, type⟩) (fun _ => rfl) _⟩

/-- The mark on a loop opens no scope. -/
theorem balances_markLoop (h : s.scopes.current < s.scopes.arena.size) :
    Balances s (markLoop.run s) := by
  show ∃ read, Stands s read 0 { s with scopes := s.scopes.markLoop }
  unfold Scopes.markLoop
  split
  · exact ⟨[], .modify h Scope.markUntil (fun _ => rfl) _⟩
  · exact ⟨[], .refl h⟩

/-- A token of a kind is refused, or it is read if it moves between scopes that there are. -/
theorem run_discard_advance {kind : Kind} {opens : Option ScopeKind} {scopes : Scopes}
    (hpass : s.current.kind = kind → s.scopes.pass s.current opens = .ok scopes) :
    (∃ violation, (discard (advance (some kind) none opens)).run s =
      .error (.violation ⟨s.current, violation, .error⟩) s) ∨
    s.current.kind = kind ∧
      (discard (advance (some kind) none opens)).run s = .ok () (s.read scopes) := by
  cases hrun : (discard (advance (some kind) none opens)).run s with
  | ok u s₁ =>
    obtain ⟨token, h⟩ := run_discard_ok.mp hrun
    obtain ⟨rfl, hrefusal, scopes, hok, rfl⟩ := run_advance_ok.mp h
    have hkind : s.current.kind = kind := (Token.refusal?_eq_none_iff.mp hrefusal).1 _ rfl
    rw [hpass hkind, Except.ok.injEq] at hok
    exact .inr ⟨hkind, by rw [hok]⟩
  | error e s₁ =>
    obtain ⟨rfl, ⟨violation, rfl, _⟩ | ⟨error, rfl, hrefusal, herror⟩⟩ :=
      run_advance_error (run_discard_error.mp hrun)
    · exact .inl ⟨violation, rfl⟩
    · have hkind : s.current.kind = kind := (Token.refusal?_eq_none_iff.mp hrefusal).1 _ rfl
      rw [hpass hkind] at herror
      cases herror

/-- A left brace opens a scope or is refused. -/
theorem run_openScope {kind : ScopeKind} (hopens : kind.opens = true) (s : State) :
    (∃ violation, (openScope kind).run s =
      .error (.violation ⟨s.current, violation, .error⟩) s) ∨
    s.current.kind = .leftBrace ∧
      (openScope kind).run s = .ok () (s.read (s.scopes.opened kind)) := by
  refine run_discard_advance fun hleft => ?_
  rw [Scopes.pass, hleft]
  exact Scopes.enter_some hopens s.scopes

/-- Where there is a scope to close, a right brace closes it or is refused. -/
theorem run_closeScope (houter : s.scopes.outer s.scopes.current ≠ []) :
    (∃ violation, (skip .rightBrace).run s =
      .error (.violation ⟨s.current, violation, .error⟩) s) ∨
    s.current.kind = .rightBrace ∧
      (skip .rightBrace).run s = .ok () (s.read s.scopes.closed) := by
  refine run_discard_advance fun hright => ?_
  rw [Scopes.pass, hright]
  exact Scopes.leave_of_outer_ne_nil houter

/-- What balances inside braces does so with them. -/
theorem Balances.block {kind : ScopeKind} (hopens : kind.opens = true) {x : Rule α}
    {f : α → Rule β} (hs : s.scopes.current < s.scopes.arena.size)
    (hx : ∀ s₁, s₁.scopes.current < s₁.scopes.arena.size → Balances s₁ (x.run s₁))
    (hf : ∀ a s₁, s₁.scopes.current < s₁.scopes.arena.size → Balances s₁ ((f a).run s₁)) :
    Balances s ((do openScope kind; let a ← x; skip .rightBrace; f a).run s) := by
  rcases run_openScope hopens s with ⟨violation, hopen⟩ | ⟨hleft, hopen⟩
  · rw [EStateM.run_bind, hopen]
    exact .violation hs _
  have hopened : Stands s [s.current] 1 (s.read (s.scopes.opened kind)) := .opened hleft
  have hinside := hx _ hopened.current_lt
  rw [EStateM.run_bind, hopen]
  simp only [EStateM.run_bind]
  cases hrun : x.run (s.read (s.scopes.opened kind)) with
  | error e s₂ =>
    rw [hrun] at hinside
    obtain ⟨hscope, read, depth, hread⟩ := hinside
    exact ⟨hscope, _, _, hopened.trans hread⟩
  | ok a s₂ =>
    rw [hrun] at hinside
    obtain ⟨read, hread⟩ := hinside
    have hstands : Stands s _ 1 s₂ := hopened.trans hread
    -- What stands inside has closed what it has opened, so the right brace closes this block.
    have houter : s₂.scopes.outer s₂.scopes.current ≠ [] := by
      rw [hstands.outer_current]
      exact List.cons_ne_nil _ _
    simp only
    rcases run_closeScope houter with ⟨violation, hclose⟩ | ⟨hright, hclose⟩
    · rw [hclose]
      exact ⟨fun _ he => (nomatch he), _, 1, hstands⟩
    · rw [hclose]
      have hclosed := hstands.closed hs hright
      exact .after hclosed (hf a _ hclosed.current_lt)

/-- What is made of steps balances, wherever it starts and whether it fails or not. -/
theorem Made.balances {declares : Prop} {known : Token → Prop} {rule : Rule α}
    (h : Made declares known rule) (hknown : known s.current)
    (hs : s.scopes.current < s.scopes.arena.size) : Balances s (rule.run s) := by
  -- Along the steps the current scope stays in the arena, which is what the next step asks for.
  induction h generalizing s with
  | pure a => exact ⟨[], .refl hs⟩
  | bind _ _ ih ihNext => exact .bind (ih hknown hs) fun a s₁ => ihNext a trivial
  | current view _ ih => exact ih (view s.current) ⟨hknown, rfl⟩ hs
  | following kind _ _ ih => exact ih (s.seesNext kind) hknown hs
  | scopes view _ ih => exact ih (view s.scopes) hknown hs
  | bounded _ _ ih => exact ih (s.rest.length + 1) hknown hs
  | throw noScope => exact ⟨noScope, [], 0, .refl hs⟩
  | @advance _ kind text opens plain =>
    rw [run_advance]
    split
    case h_1 => exact .violation hs _
    case h_2 hrefusal hpass =>
      rw [Scopes.pass_of_isPlain (plain _ hknown hrefusal)] at hpass
      cases hpass
    case h_3 hrefusal hpass =>
      rw [Scopes.pass_of_isPlain (plain _ hknown hrefusal), Except.ok.injEq] at hpass
      subst hpass
      exact ⟨_, .plain hs (plain _ hknown hrefusal) (Token.refusal?_eq_none_iff.mp hrefusal).2.2⟩
  | warn => exact ⟨[], ⟨rfl, rfl, rfl⟩, hs, rfl, fun _ _ => rfl, ⟨[], rfl, rfl⟩, rfl⟩
  | declareVariable _ token type => exact balances_declareVariable hs token type
  | declareFunction _ symbol id => exact ⟨[], .modify hs (·.addFunction symbol) (fun _ => rfl) id⟩
  | markLoop => exact balances_markLoop hs
  | block opens _ _ ih ihNext =>
    exact .block opens hs (fun _ => ih trivial) fun a _ => ihNext a trivial

/-- The scopes after tokens have been read, told by the braces among them. -/
structure Levels (read : List Token) (before after : Scopes) : Prop where
  /-- A scope has been added for each left brace. -/
  size : after.arena.size = before.arena.size + leftBraces read
  /-- The depth has grown with each left brace and fallen with each right one. -/
  depth : (after.depth : Int) - before.depth = leftBraces read - rightBraces read
  /-- No scope has been left that was open before. -/
  depth_le : before.depth ≤ after.depth
  /-- The current scope is one of those that there are. -/
  current_lt : after.current < after.arena.size

/-- The braces read tell the scopes. -/
theorem Stands.levels (h : Stands s read depth s') : Levels read s.scopes s'.scopes where
  size := h.size
  depth := by
    have hdepth := h.depth_eq
    have hcount := h.count
    omega
  depth_le := by
    rw [h.depth_eq]
    exact Nat.le_add_right _ _
  current_lt := h.current_lt

/-- Wherever a rule of the grammar starts and on whatever tokens, no move between scopes that it
makes is impossible, and at its end, good or bad, the scopes that there are and the depth are told
by the braces that it has read; the depth is not below that at the start. If it ends well, the scope
at the start is current again. -/
theorem Nonterminal.braces_balance (part : Nonterminal) (s : State)
    (hs : s.scopes.current < s.scopes.arena.size) :
    (∀ a s', part.rule.run s = .ok a s' → s'.scopes.current = s.scopes.current ∧
      ∃ read, Consumes s read s' ∧ Levels read s.scopes s'.scopes) ∧
    ∀ e s', part.rule.run s = .error e s' → (∀ error, e ≠ .scope error) ∧
      ∃ read, Consumes s read s' ∧ Levels read s.scopes s'.scopes := by
  have hbalances := part.made.balances trivial hs
  constructor
  · intro a s' hrun
    rw [hrun] at hbalances
    obtain ⟨read, hread⟩ := hbalances
    exact ⟨hread.current_eq, read, hread.consumes, hread.levels⟩
  · intro e s' hrun
    rw [hrun] at hbalances
    obtain ⟨hscope, read, depth, hread⟩ := hbalances
    exact ⟨hscope, read, hread.consumes, hread.levels⟩

/-- A statement that fails two blocks deep leaves the scopes of both open. -/
theorem braces_balance_nested : ∃ tokens error s',
    tokenize "loop \x7b\nif 1 \x7b\nuntil 2\nlost\n" = .ok tokens ∧
      (State.ofTokens tokens .empty).scopes.current <
        (State.ofTokens tokens .empty).scopes.arena.size ∧
      Nonterminal.statement.rule.run (.ofTokens tokens .empty) = .error (.violation error) s' ∧
        s'.scopes.depth = 2 ∧ ∃ read, Consumes (.ofTokens tokens .empty) read s' ∧
          Levels read (State.ofTokens tokens .empty).scopes s'.scopes := by
  have htokens := tokenize_eq "loop \x7b\nif 1 \x7b\nuntil 2\nlost\n"
  have hrefused : refuses (fun _ s' => s'.scopes.depth = 2)
      (Nonterminal.statement.rule.run (.ofTokens (Token.significant (scan
        "loop \x7b\nif 1 \x7b\nuntil 2\nlost\n").tokens) .empty)) = true := by decide +kernel
  obtain ⟨error, s', hrun, hdepth⟩ := exists_violation_of_refuses hrefused
  have hcurrent : (State.ofTokens (Token.significant (scan
      "loop \x7b\nif 1 \x7b\nuntil 2\nlost\n").tokens) .empty).scopes.current < 1 :=
    Nat.zero_lt_one
  obtain ⟨_, read, hread, hlevels⟩ := (Nonterminal.braces_balance .statement _ hcurrent).2 _ _ hrun
  exact ⟨_, error, s', htokens, hcurrent, hrun, of_decide_eq_true hdepth, read, hread, hlevels⟩

end Grammar

end Tranquility
