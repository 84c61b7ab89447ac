import Tranquility.Proofs.Scope.Depth
import Tranquility.Proofs.Steps.Lookahead

/-!
# What a parse can reach

Whoever holds a parse may read tokens and run rules in any order, and may open and close scopes and
declare names by hand in between. A step that fails leaves the parse where it stopped, and the next
one goes on from there. In every state that is reached so, the tokens left are those behind the
position, and every scope is linked to the one around it. That is all it takes for the reading of a
token to be all or nothing: whether the scopes can move is decided before anything is changed.
-/

namespace Tranquility

/-- The token is not of the kind or not of the text that is asked for, or it ends the input. -/
def Token.Misfits (token : Token) (kind : Option Kind) (text : Option String) : Prop :=
  (∃ k ∈ kind, token.kind ≠ k) ∨ (∃ t ∈ text, token.text ≠ t) ∨ token.kind = .endOfInput

/-- A token is refused exactly if it misfits. -/
theorem Token.refusal?_ne_none_iff {token : Token} {kind : Option Kind} {text : Option String} :
    token.refusal? kind text ≠ none ↔ token.Misfits kind text := by
  rw [ne_eq, Token.refusal?_eq_none_iff, Misfits]
  simp only [not_and_or, not_forall, ne_eq, Decidable.not_not, exists_prop]

namespace Grammar

/-! ## Links -/

section

variable {α β : Type} {x : Rule α} {f : α → Rule β}

/-- Where the rule starts among linked scopes it ends among linked scopes, whether it fails or not.
-/
def KeepsLinks (rule : Rule α) : Prop :=
  ∀ s, s.scopes.Linked → (ending (rule.run s)).scopes.Linked

namespace KeepsLinks

theorem bind (h : KeepsLinks x) (hf : ∀ a, KeepsLinks (f a)) : KeepsLinks (x >>= f) := by
  intro s hs
  have hfirst := h s hs
  rw [EStateM.run_bind]
  cases hrun : x.run s with
  | ok a s₁ =>
    rw [hrun] at hfirst
    exact hf a s₁ hfirst
  | error e s₁ =>
    rw [hrun] at hfirst
    exact hfirst

theorem discard (h : KeepsLinks x) : KeepsLinks (discard x) := by
  have hbind : Functor.discard x = x >>= fun _ => pure () := rfl
  rw [hbind]
  exact h.bind fun _ _ hs => hs

/-- A token that is read moves along the links, and one that is refused does not move. -/
theorem advance (kind : Option Kind) (text : Option String) (opens : Option ScopeKind) :
    KeepsLinks (advance kind text opens) := by
  intro s hs
  rw [run_advance]
  split
  case h_1 => exact hs
  case h_2 => exact hs
  case h_3 hpass => exact hs.pass hpass

/-- A declaration changes no link. -/
theorem declareVariable (token : Token) (type : Ty) :
    KeepsLinks (declareVariable token type) := by
  intro s hs
  simp only [Grammar.declareVariable, Scopes.declareVariable, EStateM.run_bind, EStateM.run_get]
  cases s.scopes.hasVariable token.text s.scopes.current with
  | true => exact hs
  | false => exact hs.modify (·.addVariable ⟨token, type⟩) (fun _ => rfl) s.scopes.current

/-- The mark on a loop changes no link. -/
theorem markLoop : KeepsLinks markLoop := by
  intro s hs
  show s.scopes.markLoop.Linked
  unfold Scopes.markLoop
  split
  · exact hs.modify Scope.markUntil (fun _ => rfl) s.scopes.current
  · exact hs

end KeepsLinks

/-- What is made of steps keeps the links. -/
theorem Made.keepsLinks {declares : Prop} {known : Token → Prop} {rule : Rule α}
    (h : Made declares known rule) : KeepsLinks rule := by
  induction h with
  | pure a => exact fun s hs => hs
  | bind _ _ ih ihNext => exact ih.bind ihNext
  | current view _ ih => exact fun s => ih (view s.current) s
  | following kind _ _ ih => exact fun s => ih (s.seesNext kind) s
  | scopes view _ ih => exact fun s => ih (view s.scopes) s
  | bounded _ _ ih => exact fun s => ih (s.rest.length + 1) s
  | throw => exact fun s hs => hs
  | advance => exact .advance _ _ _
  | warn => exact fun s hs => hs
  | declareVariable _ token type => exact .declareVariable token type
  | declareFunction _ symbol id =>
    exact fun s hs => hs.modify (·.addFunction symbol) (fun _ => rfl) id
  | markLoop => exact .markLoop
  | block _ _ _ ih ihNext =>
    -- That the braces are a pair does not matter: each of them is read or refused by itself.
    exact (KeepsLinks.advance _ _ _).discard.bind fun _ => ih.bind fun a =>
      (KeepsLinks.advance _ _ _).discard.bind fun _ => ihNext a

end

/-! ## States of a parse -/

variable {tokens : List Token} {reporter : Reporter} {s : State}

/-- The states that a parse of the tokens can reach. -/
inductive Reachable (tokens : List Token) (reporter : Reporter) : State → Prop where
  | start : Reachable tokens reporter (.ofTokens tokens reporter)
  | advance {s : State} (before : Reachable tokens reporter s) (kind : Option Kind)
    (text : Option String) (opens : Option ScopeKind) :
    Reachable tokens reporter (ending ((advance kind text opens).run s))
  | rule {s : State} (before : Reachable tokens reporter s) (part : Nonterminal) :
    Reachable tokens reporter (ending (part.rule.run s))
  | warn {s : State} (before : Reachable tokens reporter s) (token : Token) (message : String) :
    Reachable tokens reporter (ending ((warn token message).run s))
  /-- Scopes are opened and closed by hand, and names declared, as far as that does not fail. -/
  | move {s : State} (before : Reachable tokens reporter s) (move : Move) :
    Reachable tokens reporter { s with scopes := s.scopes.step move }
  /-- A function may be declared by hand even in a scope that has been closed. -/
  | declareFunction {s : State} (before : Reachable tokens reporter s) (symbol : FunctionSymbol)
    (id : Nat) : Reachable tokens reporter { s with scopes := s.scopes.declareFunction symbol id }
  /-- The current scope may be marked by hand even if it is not the body of a loop. -/
  | markUntil {s : State} (before : Reachable tokens reporter s) :
    Reachable tokens reporter { s with scopes := s.scopes.markUntil }

namespace Reachable

/-- However the steps follow each other, the links are kept. -/
theorem linked (h : Reachable tokens reporter s) : s.scopes.Linked := by
  induction h with
  | start => exact .initial
  | @advance s _ kind text opens ih => exact KeepsLinks.advance kind text opens s ih
  | @rule s _ part ih => exact part.made.keepsLinks s ih
  | warn _ _ _ ih => exact ih
  | move _ move ih => exact ih.step move
  | declareFunction _ symbol id ih => exact ih.modify (·.addFunction symbol) (fun _ => rfl) id
  | markUntil _ ih => exact ih.modify Scope.markUntil (fun _ => rfl) _

/-- Tokens are read one after the other from the first on, and nothing else moves the position. -/
theorem exists_consumes (h : Reachable tokens reporter s) :
    ∃ read, Consumes (.ofTokens tokens reporter) read s := by
  induction h with
  | start => exact ⟨[], .refl _⟩
  | @advance s _ kind text opens ih =>
    obtain ⟨read, hread⟩ := ih
    have hlocal : Local Anything (Grammar.advance kind text opens) := .advance kind text opens
    obtain ⟨read', hread'⟩ := hlocal.onward s trivial
    exact ⟨read ++ read', hread.trans hread'⟩
  | @rule s _ part ih =>
    obtain ⟨read, hread⟩ := ih
    obtain ⟨read', hread'⟩ := part.made.isLocal.onward s trivial
    exact ⟨read ++ read', hread.trans hread'⟩
  | warn _ _ _ ih => exact ih.imp fun _ hread => hread.update _ _
  | move _ _ ih => exact ih.imp fun _ hread => hread.update _ _
  | declareFunction _ _ _ ih => exact ih.imp fun _ hread => hread.update _ _
  | markUntil _ ih => exact ih.imp fun _ hread => hread.update _ _

/-- The current token is the one at the position, or the end token behind all of them. -/
theorem current_eq (h : Reachable tokens reporter s) :
    s.current = (tokens[s.position]?).getD (.endOf tokens) := by
  obtain ⟨read, hread⟩ := h.exists_consumes
  have htokens : tokens = read ++ s.rest := hread.rest
  have hposition : s.position = read.length := hread.position.trans (Nat.zero_add _)
  have hat : tokens[s.position]? = s.rest.head? := by
    rw [htokens, hposition, List.getElem?_append_right (Nat.le_refl _), Nat.sub_self,
      List.head?_eq_getElem?]
  rw [State.current, hread.endToken, hat, List.headD_eq_head?_getD]
  rfl

end Reachable

/-! ## Reading a token -/

section

variable {kind : Option Kind} {text : Option String} {opens : Option ScopeKind}

/-- A step fails exactly if the token misfits or is barred. -/
theorem exists_advance_error_iff (h : s.scopes.Linked) :
    (∃ e s', (advance kind text opens).run s = .error e s') ↔
      s.current.Misfits kind text ∨ s.scopes.Bars s.current opens := by
  rw [← Token.refusal?_ne_none_iff, ← h.pass_eq_error_iff, run_advance]
  cases s.current.refusal? kind text with
  | some violation => simp
  | none => cases s.scopes.pass s.current opens <;> simp

/-- Nothing changes where a token is not read, and a token that misfits is at fault before the
scopes are looked at. -/
theorem advance_error_cases {e : Error} {s' : State}
    (hrun : (advance kind text opens).run s = .error e s') : s' = s ∧
      ((s.current.Misfits kind text ∧ ∃ violation,
          e = .violation { token := s.current, violation }) ∨
        (¬ s.current.Misfits kind text ∧ ∃ error, e = .scope error)) := by
  rw [← Token.refusal?_ne_none_iff]
  obtain ⟨rfl, ⟨violation, rfl, hrefusal⟩ | ⟨error, rfl, hrefusal, _⟩⟩ := run_advance_error hrun
  · exact ⟨rfl, .inl ⟨by simp [hrefusal], violation, rfl⟩⟩
  · exact ⟨rfl, .inr ⟨by simp [hrefusal], error, rfl⟩⟩

/-- A token that is neither a misfit nor barred is read, and only the tokens and the scopes move. -/
theorem exists_advance_ok (h : s.scopes.Linked)
    (hclear : ¬ (s.current.Misfits kind text ∨ s.scopes.Bars s.current opens)) :
    ∃ scopes, (advance kind text opens).run s = .ok s.current (s.read scopes) ∧
      s.scopes.pass s.current opens = .ok scopes ∧ s.current.kind ≠ .endOfInput := by
  rw [← exists_advance_error_iff h] at hclear
  cases hrun : (advance kind text opens).run s with
  | error e s' => exact absurd ⟨e, s', hrun⟩ hclear
  | ok token s' =>
    obtain ⟨rfl, hrefusal, scopes, hpass, rfl⟩ := run_advance_ok.mp hrun
    exact ⟨scopes, rfl, hpass, (Token.refusal?_eq_none_iff.mp hrefusal).2.2⟩

end

/-- Where a parse has come to, the current token is the one at the position, or the end of the input
behind all tokens, and the depth is the number of links up to the global scope. From there the
reading of a token is all or nothing. It fails exactly if the token misfits or is barred: with a
violation at the token if it misfits, else with a scope error, and in both cases nothing changes.
Otherwise it yields the current token, which alone has been read then, and the depth changes by one
with a brace and not at all with another token. -/
theorem advance_all_or_nothing (h : Reachable tokens reporter s) (kind : Option Kind)
    (text : Option String) (opens : Option ScopeKind) :
    s.current = (tokens[s.position]?).getD (.endOf tokens) ∧
    (∃ path, s.scopes.Climbs s.scopes.current path ∧ path.length = s.scopes.depth + 1) ∧
    ((∃ e s', (advance kind text opens).run s = .error e s') ↔
      s.current.Misfits kind text ∨ s.scopes.Bars s.current opens) ∧
    (∀ e s', (advance kind text opens).run s = .error e s' → s' = s ∧
      ((s.current.Misfits kind text ∧ ∃ violation,
          e = .violation { token := s.current, violation }) ∨
        (¬ s.current.Misfits kind text ∧ ∃ error, e = .scope error))) ∧
    (¬ (s.current.Misfits kind text ∨ s.scopes.Bars s.current opens) →
      ∃ s', (advance kind text opens).run s = .ok s.current s' ∧
        s'.position = s.position + 1 ∧ s.rest = s.current :: s'.rest ∧
          s'.reporter = s.reporter ∧
            (s'.scopes.depth : Int) = s.scopes.depth + s.current.deepening) := by
  have hlinked := h.linked
  refine ⟨h.current_eq, ⟨_, hlinked.climbs_chain hlinked.current_lt, rfl⟩,
    exists_advance_error_iff hlinked, fun e s' => advance_error_cases, fun hclear => ?_⟩
  obtain ⟨scopes, hrun, hpass, hend⟩ := exists_advance_ok hlinked hclear
  exact ⟨s.read scopes, hrun, rfl, State.rest_eq_cons hend, rfl, hlinked.depth_pass hpass⟩

/-- The braces of a block, and one more. -/
def strayBraces : List Token :=
  [⟨.leftBrace, "\x7b", 0, 0, 0⟩, ⟨.rightBrace, "\x7d", 0, 1, 1⟩, ⟨.rightBrace, "\x7d", 0, 2, 2⟩]

/-- A loop is opened by hand, a statement fails at the left brace, and the brace is read as that of
a function. The next brace closes the function. Once the loop has been closed by hand, the last
brace is barred. -/
theorem advance_all_or_nothing_by_hand : ∃ s s' t error,
    Reachable strayBraces .empty s ∧ s.scopes.depth = 2 ∧
      (advance (some .rightBrace) none none).run s = .ok s.current s' ∧
        s'.position = 2 ∧ s'.scopes.depth = 1 ∧ Reachable strayBraces .empty t ∧
          t.current.kind = .rightBrace ∧
            (advance none none none).run t = .error (.scope error) t := by
  have hstart : Reachable strayBraces .empty _ := .start
  have hfailed := (hstart.move (.enter (some .loop))).rule .statement
  have hinside := hfailed.advance none none (some .function)
  obtain ⟨s, hs, hposition, hkind, hcurrent, hdepth⟩ : ∃ s, Reachable strayBraces .empty s ∧
      s.position = 1 ∧ s.current.kind = .rightBrace ∧ s.scopes.current = 2 ∧
        s.scopes.depth = 2 :=
    ⟨_, hinside, by decide +kernel, by decide +kernel, by decide +kernel, by decide +kernel⟩
  obtain ⟨t, ht, hkind', hcurrent'⟩ : ∃ t, Reachable strayBraces .empty t ∧
      t.current.kind = .rightBrace ∧ t.scopes.current = 0 :=
    ⟨_, (hinside.advance (some .rightBrace) none none).move .leave, by decide +kernel,
      by decide +kernel⟩
  have hclear : ¬ (s.current.Misfits (some .rightBrace) none ∨ s.scopes.Bars s.current none) := by
    simp [Token.Misfits, Scopes.Bars, hkind, hcurrent]
  obtain ⟨_, _, _, _, hread⟩ := advance_all_or_nothing hs (some .rightBrace) none none
  obtain ⟨s', hrun, hmoved, _, _, hdeepened⟩ := hread hclear
  have hdeepening : s.current.deepening = -1 := by rw [Token.deepening, hkind]
  obtain ⟨_, _, hfails, hleaves, _⟩ := advance_all_or_nothing ht none none none
  obtain ⟨e, t', hrun'⟩ := hfails.mpr (.inr (.inl ⟨hkind', hcurrent'⟩))
  obtain ⟨rfl, ⟨hmisfits, _⟩ | ⟨_, error, rfl⟩⟩ := hleaves e t' hrun'
  · simp [Token.Misfits, hkind'] at hmisfits
  · rw [hposition] at hmoved
    exact ⟨s, s', t', error, hs, hdepth, hrun, hmoved, by omega, ht, hkind', hrun'⟩

end Grammar

end Tranquility
