import Tranquility.Proofs.Failing.Fits
import Tranquility.Proofs.Grammar.Step

/-!
# How rules fail

A rule that fails has read some tokens and has found a violation, at the token that was to be read
or at one that has been read; it fits the token. In the latter case nothing has been warned about in
the part where the token stands. No other error comes up, but for a string that ends inside an
escape. That a brace moves between scopes that there are is what the laws of braces ask for.
-/

namespace Tranquility.Grammar

/-- A reading has failed, and the state is where it has come to. -/
inductive Fails (s : State) : Error → State → Prop where
  /-- The violation is at the token that was to be read. -/
  | atCurrent {trace : Trace} {s' : State} (reads : Reads s trace s') {violation : Violation}
    (fits : violation.Fits s'.current) : Fails s (.violation ⟨s'.current, violation, .error⟩) s'
  /-- The violation is at a token that has been read, in a part without warnings. -/
  | atRead {first quiet last : Trace} {s₁ s₂ s' : State} {token : Token}
    (before : Reads s first s₁) (part : Reads s₁ quiet s₂) (after : Reads s₂ last s')
    (warnings_eq : quiet.warnings = []) (keeps : quiet.Keeps token) {violation : Violation}
    (fits : violation.Fits token) : Fails s (.violation ⟨token, violation, .error⟩) s'
  /-- A string that has been read ends inside an escape. -/
  | truncated {trace : Trace} {s' : State} {token : Token} (reads : Reads s trace s')
    (keeps : trace.Keeps token) (kind_eq : token.kind = .string)
    (fault : escapeFault? (inner token) = some .truncated) :
    Fails s (.truncatedEscape token) s'

/-- Every error of the rule is one of these. -/
def Safe {α : Type} (rule : Rule α) : Prop :=
  ∀ s e s', rule.run s = .error e s' → Fails s e s'

variable {α : Type} {s s₁ s₂ s' : State} {e : Error} {token : Token} {kind : Kind}

/-- What fails after a reading fails in the whole of it. -/
theorem Fails.after {trace : Trace} (h : Fails s₁ e s') (hreads : Reads s trace s₁) :
    Fails s e s' := by
  cases h with
  | atCurrent reads fits => exact .atCurrent (hreads.append reads) fits
  | atRead before part after warnings_eq keeps fits =>
    exact .atRead (hreads.append before) part after warnings_eq keeps fits
  | truncated reads keeps kind_eq fault =>
    exact .truncated (hreads.append reads) (keeps.append_left _) kind_eq fault

/-- A violation at a token that a piece is kept of. -/
theorem Fails.atPiece {piece : Piece} {last : Trace} (hkept : piece.kept = some token)
    (part : Reads s (.ofPiece piece) s₁) (after : Reads s₁ last s') {violation : Violation}
    (fits : violation.Fits token) : Fails s (.violation ⟨token, violation, .error⟩) s' :=
  .atRead (.settled id) part after rfl ⟨piece, List.mem_singleton_self _, hkept⟩ fits

/-- A violation at the current token is one of a reading that has read nothing. -/
theorem reject_current_fails {violation : Violation}
    (h : (reject s.current violation : Rule α).run s = .error e s')
    (fits : violation.Fits s.current) : Fails s e s' := by
  obtain ⟨rfl, rfl⟩ := run_reject_error.mp h
  exact .atCurrent (.settled id) fits

/-! ## Tokens -/

/-- A token is refused where it stands, if it could move between the scopes. -/
theorem advance_fails {expected : Option Kind} {text : Option String} {opens : Option ScopeKind}
    (hexpected : ∀ k ∈ expected, k.isKnown = true) (htext : ∀ t ∈ text, t ∈ Pattern.keywords)
    (hpass : s.current.refusal? expected text = none →
      ∃ scopes, s.scopes.pass s.current opens = .ok scopes)
    (h : (advance expected text opens).run s = .error e s') : Fails s e s' := by
  obtain ⟨rfl, ⟨violation, rfl, hrefusal⟩ | ⟨error, rfl, hnone, herror⟩⟩ := run_advance_error h
  · exact .atCurrent (.settled id) (Token.fits_of_refusal? hexpected htext hrefusal)
  · obtain ⟨scopes, hok⟩ := hpass hnone
    rw [hok] at herror
    cases herror

/-- A token of a kind is asked for. -/
theorem advance_kind_fails {opens : Option ScopeKind} (hknown : kind.isKnown = true)
    (hpass : s.current.kind = kind → ∃ scopes, s.scopes.pass s.current opens = .ok scopes)
    (h : (advance (some kind) none opens).run s = .error e s') : Fails s e s' :=
  advance_fails (fun _ hk => Option.some.inj hk ▸ hknown)
    (fun t ht => absurd ht (Option.not_mem_none t))
    (fun hnone => hpass ((Token.refusal?_eq_none_iff.mp hnone).1 kind rfl)) h

/-- A token of another kind is at fault itself. -/
theorem expect_safe (hplain : kind.isPlain = true) : Safe (expect kind) := by
  intro s e s' h
  obtain ⟨_, _, _, _, hknown⟩ := Kind.isPlain_iff.mp hplain
  refine advance_kind_fails hknown (fun hkind => ?_) h
  exact ⟨_, Scopes.pass_of_isPlain (hkind ▸ hplain) s.scopes none⟩

theorem skip_safe (hplain : kind.isPlain = true) : Safe (skip kind) := by
  intro s e s' h
  exact expect_safe hplain _ _ _ (run_discard_error.mp h)

theorem expectKeyword_safe {text : String} (hword : text ∈ Pattern.keywords) :
    Safe (expectKeyword text) := by
  intro s e s' h
  refine advance_fails (fun k hk => ?_) (fun t ht => ?_) (fun hnone => ?_) h
  · exact Option.some.inj hk ▸ rfl
  · exact Option.some.inj ht ▸ hword
  · have hkind := (Token.refusal?_eq_none_iff.mp hnone).1 .keyword rfl
    exact ⟨_, Scopes.pass_of_isPlain (by rw [hkind]; rfl) s.scopes none⟩

theorem skipKeyword_safe {text : String} (hword : text ∈ Pattern.keywords) :
    Safe (skipKeyword text) := by
  intro s e s' h
  exact expectKeyword_safe hword _ _ _ (run_discard_error.mp h)

/-- A token that cannot be taken is at fault itself. -/
theorem take_fails (hplain : s.current.kind.isPlain = true) (h : take.run s = .error e s') :
    Fails s e s' :=
  advance_fails (fun k hk => absurd hk (Option.not_mem_none k))
    (fun t ht => absurd ht (Option.not_mem_none t)) (fun _ =>
      ⟨_, Scopes.pass_of_isPlain hplain s.scopes none⟩) h

/-! ## Braces -/

/-- Where there is no left brace, the token there is at fault. -/
theorem openScope_safe {opened : ScopeKind} (hopens : opened.opens = true) :
    Safe (openScope opened) := by
  intro s e s' h
  refine advance_kind_fails rfl (fun hkind => ?_) (run_discard_error.mp h)
  refine ⟨s.scopes.opened opened, ?_⟩
  rw [Scopes.pass, hkind]
  exact Scopes.enter_some hopens s.scopes

/-- A right brace can be read if a scope is around the current one. -/
theorem closeScope_fails (houter : s.scopes.outer s.scopes.current ≠ [])
    (h : (skip .rightBrace).run s = .error e s') : Fails s e s' := by
  refine advance_kind_fails rfl (fun hkind => ?_) (run_discard_error.mp h)
  refine ⟨s.scopes.closed, ?_⟩
  rw [Scopes.pass, hkind]
  exact Scopes.leave_of_outer_ne_nil houter

/-! ## Items one after the other -/

section

variable {item : Rule α}

/-- Items that are read one after the other fail in one of them, if each keeps what the next one
asks for. -/
theorem collect_fails (holds : State → Prop) {continues : State → Bool} {items : List α}
    (hitem : ∀ s a s', holds s → item.run s = .ok a s' → (∃ trace, Reads s trace s') ∧ holds s')
    (hsafe : ∀ s e s', holds s → item.run s = .error e s' → Fails s e s') (hs : holds s)
    (h : (collect continues item items).run s = .error e s') : Fails s e s' := by
  obtain ⟨_, s₁, ⟨⟨_, hreads⟩, hs₁⟩, _, h⟩ := run_collect_error
    (fun _ s₁ => (∃ trace, Reads s trace s₁) ∧ holds s₁)
    (fun _ _ _ _ ⟨⟨_, hreads⟩, hs₁⟩ _ ha =>
      have ⟨⟨_, hreads'⟩, hs₂⟩ := hitem _ _ _ hs₁ ha
      ⟨⟨_, hreads.append hreads'⟩, hs₂⟩)
    ⟨⟨_, .settled id⟩, hs⟩ h
  exact (hsafe _ _ _ hs₁ h).after hreads

/-- A list with commas fails in an item or at a token behind a comma. -/
theorem commaSeparated_safe (hitem : ∀ s a s', item.run s = .ok a s' → ∃ trace, Reads s trace s')
    (hsafe : Safe item) : Safe (commaSeparated item) := by
  intro s e s' h
  rcases run_bind_error.mp h with h | ⟨first, s₁, hfirst, h⟩
  · exact hsafe _ _ _ h
  obtain ⟨_, hfirst⟩ := hitem _ _ _ hfirst
  refine Fails.after (collect_fails (fun _ => True) ?_ ?_ trivial h) hfirst
  · intro s a s' _ ha
    obtain ⟨_, s₁, hcomma, ha⟩ := run_bind_ok.mp ha
    obtain ⟨_, ha⟩ := hitem _ _ _ ha
    exact ⟨⟨_, (reads_skip rfl rfl hcomma).append ha⟩, trivial⟩
  · intro s e s' _ h
    rcases run_bind_error.mp h with h | ⟨_, s₁, hcomma, h⟩
    · exact skip_safe rfl _ _ _ h
    · exact (hsafe _ _ _ h).after (reads_skip rfl rfl hcomma)

/-- A list that may be missing fails as the list does. -/
theorem unlessAt_fails {stop : Kind} {items : Rule (List α)}
    (hsafe : ∀ s', items.run s = .error e s' → Fails s e s')
    (h : (unlessAt stop items).run s = .error e s') : Fails s e s' := by
  rw [unlessAt, run_observe_bind] at h
  split at h
  case isTrue => exact absurd h run_pure_error
  case isFalse => exact hsafe _ h

end

end Tranquility.Grammar
