import Tranquility.Proofs.Checking.Outcome
import Tranquility.Proofs.Steps.Balance

/-!
# How far a rule looks ahead

A rule looks at the current token, and at the one after it where the current one is a name. So what
stands behind these where a run ends has had no part in it: with other tokens there the run is the
same. Two runs are compared that have the same tokens ahead and different ones behind those.
-/

namespace Tranquility.Grammar

variable {α β : Type} {x y : List Token} {s s₁ s' t t₁ : State} {known : Token → Prop}

/-- The state where a run ends, whether it fails or not. -/
def ending : EStateM.Result Error State α → State
  | .ok _ s => s
  | .error _ s => s

/-- Two runs stand at the same token with the same scopes and diagnostics, and have the same tokens
ahead; behind those there are `x` in the one and `y` in the other. -/
structure Beside (x y : List Token) (s t : State) : Prop where
  rest : ∃ ahead, s.rest = ahead ++ x ∧ t.rest = ahead ++ y
  position : t.position = s.position
  scopes : t.scopes = s.scopes
  reporter : t.reporter = s.reporter

/-- What may be looked at from a state stands before `x`. -/
def Clear (x : List Token) (s : State) : Prop :=
  ∃ first rest, s.rest = first :: rest ++ x ∧ (first.kind = .identifier → rest ≠ [])

/-- Two runs have the same outcome, each in its own tokens. -/
def Echoes (x y : List Token) :
    EStateM.Result Error State α → EStateM.Result Error State α → Prop
  | .ok a s, result => ∃ t, result = .ok a t ∧ Beside x y s t
  | .error e s, result => ∃ t, result = .error e t ∧ Beside x y s t

/-- A rule reads forward, and its run depends on nothing behind what may be looked at from where the
run ends. -/
structure Local (known : Token → Prop) (rule : Rule α) : Prop where
  onward : ∀ s, known s.current → ∃ read, Consumes s read (ending (rule.run s))
  echoes : ∀ x y s t, known s.current → Beside x y s t → Clear x (ending (rule.run s)) →
    Echoes x y (rule.run s) (rule.run t)

/-! ## Tokens ahead -/

/-- From where more tokens are ahead, no more can be looked at than stand before `x`. -/
theorem Clear.before (h : Clear x s') {read : List Token} (hread : Consumes s read s') :
    Clear x s := by
  obtain ⟨first, rest, hrest, hname⟩ := h
  have hrest' := hread.rest
  rw [hrest] at hrest'
  cases read with
  | nil => exact ⟨first, rest, hrest', hname⟩
  | cons token read =>
    exact ⟨token, read ++ first :: rest, by simp [hrest'], fun _ => by simp⟩

/-- The tokens ahead are the same in both runs. -/
theorem Beside.rest_eq (h : Beside x y s t) {first : Token} {rest : List Token}
    (hs : s.rest = first :: rest ++ x) : t.rest = first :: rest ++ y := by
  obtain ⟨ahead, hahead, hahead'⟩ := h.rest
  rw [hahead', List.append_cancel_right (hahead.symm.trans hs)]

/-- The current token is the same if it may be looked at. -/
theorem Beside.current_eq (h : Beside x y s t) (hclear : Clear x s) : t.current = s.current := by
  obtain ⟨first, rest, hrest, _⟩ := hclear
  simp [State.current, hrest, h.rest_eq hrest]

/-- Behind a name the next token is the same if it may be looked at. -/
theorem Beside.seesNext_eq (h : Beside x y s t) (hclear : Clear x s)
    (hname : s.current.kind = .identifier) (kind : Kind) : t.seesNext kind = s.seesNext kind := by
  obtain ⟨first, rest, hrest, hmore⟩ := hclear
  have hfirst : s.current = first := by simp [State.current, hrest]
  obtain ⟨next, rest, rfl⟩ := List.exists_cons_of_ne_nil (hmore (hfirst ▸ hname))
  simp [State.seesNext, State.next, hrest, h.rest_eq hrest]

/-! ## Steps -/

theorem Echoes.bind {r : Rule α} {f : α → Rule β} (hr : Echoes x y (r.run s) (r.run t))
    (hf : ∀ a s₁ t₁, r.run s = .ok a s₁ → Beside x y s₁ t₁ →
      Echoes x y ((f a).run s₁) ((f a).run t₁)) :
    Echoes x y ((r >>= f).run s) ((r >>= f).run t) := by
  rw [EStateM.run_bind, EStateM.run_bind]
  cases hrun : r.run s with
  | error e s₁ =>
    rw [hrun] at hr
    obtain ⟨t₁, ht, beside⟩ := hr
    rw [ht]
    exact ⟨t₁, rfl, beside⟩
  | ok a s₁ =>
    rw [hrun] at hr
    obtain ⟨t₁, ht, beside⟩ := hr
    rw [ht]
    exact hf a s₁ t₁ hrun beside

/-- A token that is read or refused is the current one. -/
theorem echoes_advance (h : Beside x y s t) (hclear : Clear x s) (kind : Option Kind)
    (text : Option String) (opens : Option ScopeKind) :
    Echoes x y ((advance kind text opens).run s) ((advance kind text opens).run t) := by
  obtain ⟨first, rest, hrest, _⟩ := id hclear
  rw [run_advance, run_advance, h.scopes, h.current_eq hclear]
  split
  case h_1 => exact ⟨t, rfl, h⟩
  case h_2 => exact ⟨t, rfl, h⟩
  case h_3 =>
    refine ⟨_, rfl, ⟨rest, ?_, ?_⟩, congrArg (· + 1) h.position, rfl, h.reporter⟩
    · simp [State.read, hrest]
    · simp [State.read, h.rest_eq hrest]

namespace Local

/-- What changes scopes and diagnostics by themselves is local. -/
theorem quiet {rule : Rule α}
    (change : Scopes → Reporter → Except Error (α × Scopes × Reporter))
    (hrun : ∀ s, rule.run s = match change s.scopes s.reporter with
      | .ok (a, scopes, reporter) => .ok a { s with scopes, reporter }
      | .error e => .error e s) : Local known rule where
  onward s _ := by
    rw [hrun]
    split
    · exact ⟨[], rfl, rfl, rfl⟩
    · exact ⟨[], rfl, rfl, rfl⟩
  echoes x y s t _ h _ := by
    rw [hrun, hrun, h.scopes, h.reporter]
    split
    · exact ⟨_, rfl, h.rest, h.position, rfl, rfl⟩
    · exact ⟨t, rfl, h⟩

theorem pure (a : α) : Local known (Pure.pure a) :=
  .quiet (fun scopes reporter => .ok (a, scopes, reporter)) fun _ => rfl

theorem bind {r : Rule α} {f : α → Rule β} (hr : Local known r)
    (hf : ∀ a, Local Anything (f a)) : Local known (r >>= f) where
  onward s hs := by
    obtain ⟨read, hread⟩ := hr.onward s hs
    rw [EStateM.run_bind]
    cases hrun : r.run s with
    | error e s₁ =>
      rw [hrun] at hread
      exact ⟨read, hread⟩
    | ok a s₁ =>
      rw [hrun] at hread
      obtain ⟨read', hread'⟩ := (hf a).onward s₁ trivial
      exact ⟨read ++ read', hread.trans hread'⟩
  echoes x y s t hs h hclear := by
    rw [EStateM.run_bind] at hclear
    refine .bind (hr.echoes x y s t hs h ?_) fun a s₁ t₁ hrun beside => ?_
    · -- What is clear where the whole run ends is so where its first part does.
      cases hrun : r.run s with
      | error e s₁ =>
        rw [hrun] at hclear
        exact hclear
      | ok a s₁ =>
        rw [hrun] at hclear
        obtain ⟨read, hread⟩ := (hf a).onward s₁ trivial
        exact hclear.before hread
    · rw [hrun] at hclear
      exact (hf a).echoes x y s₁ t₁ trivial beside hclear

theorem discard {r : Rule α} (hr : Local known r) : Local known (Functor.discard r) := by
  have hbind : Functor.discard r = r >>= fun _ => Pure.pure () := rfl
  rw [hbind]
  exact hr.bind fun _ => .pure ()

/-- A step looks at the current token alone. -/
theorem advance (kind : Option Kind) (text : Option String) (opens : Option ScopeKind) :
    Local known (Grammar.advance kind text opens) := by
  have honward : ∀ s, ∃ read, Consumes s read
      (ending ((Grammar.advance kind text opens).run s)) := by
    intro s
    rw [run_advance]
    split
    case h_1 => exact ⟨[], .refl s⟩
    case h_2 => exact ⟨[], .refl s⟩
    case h_3 scopes hrefusal _ =>
      exact ⟨[s.current], .ofCurrent (Token.refusal?_eq_none_iff.mp hrefusal).2.2 scopes⟩
  refine ⟨fun s _ => honward s, fun x y s t _ h hclear => ?_⟩
  obtain ⟨read, hread⟩ := honward s
  exact echoes_advance h (hclear.before hread) kind text opens

/-- A declaration looks at no token but the one declared. -/
theorem declareVariable (token : Token) (type : Ty) :
    Local known (Grammar.declareVariable token type) := by
  refine .quiet (fun scopes reporter =>
    ((scopes.declareVariable token type).mapError Error.violation).map fun scopes =>
      ((), scopes, reporter)) fun s => ?_
  simp only [Grammar.declareVariable, EStateM.run_bind, EStateM.run_get]
  cases s.scopes.declareVariable token type with
  | ok scopes => rfl
  | error error => rfl

end Local

/-- What is made of steps is local. -/
theorem Made.isLocal {declares : Prop} {rule : Rule α} (h : Made declares known rule) :
    Local known rule := by
  induction h with
  | pure a => exact .pure a
  | bind _ _ ih ihNext => exact ih.bind ihNext
  | @current _ _ known view f _ ih =>
    refine ⟨fun s hs => (ih (view s.current)).onward s ⟨hs, rfl⟩, fun x y s t hs h hclear => ?_⟩
    have hecho := (ih (view s.current)).echoes x y s t ⟨hs, rfl⟩ h hclear
    obtain ⟨read, hread⟩ := (ih (view s.current)).onward s ⟨hs, rfl⟩
    rw [run_observe_bind, run_observe_bind, h.current_eq (hclear.before hread)]
    exact hecho
  | @following _ known kind f named _ ih =>
    refine ⟨fun s hs => (ih (s.seesNext kind)).onward s hs, fun x y s t hs h hclear => ?_⟩
    have hecho := (ih (s.seesNext kind)).echoes x y s t hs h hclear
    obtain ⟨read, hread⟩ := (ih (s.seesNext kind)).onward s hs
    rw [run_observe_bind, run_observe_bind,
      h.seesNext_eq (hclear.before hread) (named _ hs) kind]
    exact hecho
  | scopes view _ ih =>
    refine ⟨fun s hs => (ih (view s.scopes)).onward s hs, fun x y s t hs h hclear => ?_⟩
    have hecho := (ih (view s.scopes)).echoes x y s t hs h hclear
    rw [run_observe_bind, run_observe_bind, h.scopes]
    exact hecho
  | @bounded _ known within _ same ih =>
    refine ⟨fun s hs => (ih (s.rest.length + 1)).onward s hs, fun x y s t hs h hclear => ?_⟩
    -- Both runs are compared with one bound that is good for either.
    have hs_eq := same s _ (max s.rest.length t.rest.length + 1) (Nat.lt_succ_self _) (by omega)
    have ht_eq := same t _ (max s.rest.length t.rest.length + 1) (Nat.lt_succ_self _) (by omega)
    rw [run_observe_bind] at hclear ⊢
    rw [run_observe_bind, hs_eq, ht_eq]
    rw [hs_eq] at hclear
    exact (ih _).echoes x y s t hs h hclear
  | throw => exact .quiet (fun _ _ => .error _) fun _ => rfl
  | advance => exact .advance _ _ _
  | warn token message =>
    exact .quiet (fun scopes reporter => .ok ((), scopes, reporter.report token message .warning))
      fun _ => rfl
  | declareVariable _ token type => exact .declareVariable token type
  | declareFunction _ symbol id =>
    exact .quiet (fun scopes reporter => .ok ((), scopes.declareFunction symbol id, reporter))
      fun _ => rfl
  | markLoop =>
    exact .quiet (fun scopes reporter => .ok ((), scopes.markLoop, reporter)) fun _ => rfl
  | block _ _ _ ih ihNext =>
    exact (Local.advance _ _ _).discard.bind fun _ => ih.bind fun a =>
      (Local.advance _ _ _).discard.bind fun _ => ihNext a

/-! ## Errors of a program -/

/-- A violation is at the token to be read or at one that has been read. -/
theorem Fails.token_mem {tokens : List Token} {error : TokenError} (hs : s.Within tokens)
    (h : Fails s (.violation error) s') :
    error.token = s'.current ∨ error.token ∈ tokens.take s'.position := by
  cases h with
  | atCurrent => exact .inl rfl
  | @atRead _ _ _ _ _ _ token before part after _ keeps =>
    obtain ⟨i, _, hlt, hi⟩ := part.exists_of_keeps (hs.after before) keeps
    have hle : i < s'.position := by
      rw [after.position_eq]
      exact Nat.lt_add_right _ hlt
    exact .inr (List.mem_of_getElem? ((List.getElem?_take_of_lt hle).trans hi))

/-- Where two tokens are left at least, those behind them are not looked at. -/
theorem clear_drop {tokens : List Token} (hrest : s.rest = tokens.drop s.position)
    (hlength : s.position + 2 ≤ tokens.length) : Clear (tokens.drop (s.position + 2)) s := by
  refine ⟨tokens[s.position], [tokens[s.position + 1]], ?_, fun _ => List.cons_ne_nil _ _⟩
  rw [hrest, List.drop_eq_getElem_cons (by omega), List.drop_eq_getElem_cons (by omega)]
  rfl

/-- Parses start beside each other if their tokens do not differ at the front. -/
theorem beside_ofTokens {tokens tokens' : List Token} {n : Nat}
    (h : tokens'.take n = tokens.take n) (reporter : Reporter) :
    Beside (tokens.drop n) (tokens'.drop n) (.ofTokens tokens reporter)
      (.ofTokens tokens' reporter) where
  rest := ⟨tokens.take n, (List.take_append_drop n tokens).symm,
    by rw [← h]; exact (List.take_append_drop n tokens').symm⟩
  position := rfl
  scopes := rfl
  reporter := rfl

/-- A violation in a program is at the token to be read or at one that has been read, and comes of
the tokens that have been read and the two after them: any tokens that start with these end in the
same violation in the same place, with the same scopes and diagnostics. -/
theorem program_error_local (tokens : List Token) (reporter : Reporter) (error : TokenError)
    (s' : State) (h : program.run (.ofTokens tokens reporter) = .error (.violation error) s') :
    (error.token = s'.current ∨ error.token ∈ tokens.take s'.position) ∧
      ∀ tokens' : List Token, s'.position + 2 ≤ tokens.length →
        tokens'.take (s'.position + 2) = tokens.take (s'.position + 2) →
          ∃ t', program.run (.ofTokens tokens' reporter) = .error (.violation error) t' ∧
            t'.position = s'.position ∧ t'.scopes = s'.scopes ∧ t'.reporter = s'.reporter := by
  have hlocal : Local Anything program := made_program.isLocal
  refine ⟨(program_fails rfl h).token_mem (State.within_ofTokens tokens reporter), ?_⟩
  intro tokens' hlength htake
  obtain ⟨read, hread⟩ := hlocal.onward (.ofTokens tokens reporter) trivial
  rw [h] at hread
  have hposition : s'.position = read.length := hread.position.trans (Nat.zero_add _)
  have hrest : s'.rest = tokens.drop s'.position := by
    have htokens : tokens = read ++ s'.rest := hread.rest
    rw [hposition, htokens, List.drop_left]
  have hecho := hlocal.echoes _ _ _ _ trivial (beside_ofTokens htake reporter)
  rw [h] at hecho
  obtain ⟨t', hrun, beside⟩ := hecho (clear_drop hrest hlength)
  exact ⟨t', hrun, beside.position, beside.scopes, beside.reporter⟩

/-- A name that is not declared is an error whatever comes after the brace on the next line. -/
theorem program_error_local_undefined : ∃ tokens tokens' error s' t',
    tokenize "fun f() \x7b\nlost\n\x7d\n" = .ok tokens ∧
      tokenize "fun f() \x7b\nlost\n\x7d loop" = .ok tokens' ∧
      program.run (.ofTokens tokens .empty) = .error (.violation error) s' ∧
        s'.position + 2 ≤ tokens.length ∧
        tokens'.take (s'.position + 2) = tokens.take (s'.position + 2) ∧
          error.token ∈ tokens.take s'.position ∧
          program.run (.ofTokens tokens' .empty) = .error (.violation error) t' ∧
            t'.position = s'.position := by
  have htokens := tokenize_eq "fun f() \x7b\nlost\n\x7d\n"
  have htokens' := tokenize_eq "fun f() \x7b\nlost\n\x7d loop"
  have hrefused : refuses (fun error s' => decide (s'.position = 7 ∧ error.token ≠ s'.current))
      (program.run (.ofTokens (Token.significant (scan
        "fun f() \x7b\nlost\n\x7d\n").tokens) .empty)) = true := by decide +kernel
  obtain ⟨error, s', hrun, htest⟩ := exists_violation_of_refuses hrefused
  obtain ⟨hposition, hread⟩ := of_decide_eq_true htest
  obtain ⟨htoken, hsame⟩ := program_error_local _ .empty error s' hrun
  have hlength : s'.position + 2 ≤ (Token.significant (scan
      "fun f() \x7b\nlost\n\x7d\n").tokens).length := by
    rw [hposition]
    decide +kernel
  have htake : (Token.significant (scan "fun f() \x7b\nlost\n\x7d loop").tokens).take
      (s'.position + 2) = (Token.significant (scan
        "fun f() \x7b\nlost\n\x7d\n").tokens).take (s'.position + 2) := by
    rw [hposition]
    decide +kernel
  obtain ⟨t', hrun', hsame, _⟩ := hsame _ hlength htake
  exact ⟨_, _, error, s', t', htokens, htokens', hrun, hlength, htake, htoken.resolve_left hread,
    hrun', hsame⟩

end Tranquility.Grammar
