import Tranquility.Grammar.Program

/-!
# How a rule ends

Running a rule ends in a value or in an error, each with a state. These laws take a run apart into
the runs of the steps that the rule is made of, one law for each kind of step and each ending, so
that later proofs never look into a step. A loop is taken apart by an invariant of its rounds.
-/

namespace Tranquility

/-- A token may be read if it is of the kind and text asked for and does not end the input. -/
theorem Token.refusal?_eq_none_iff {token : Token} {kind : Option Kind} {text : Option String} :
    token.refusal? kind text = none ↔
      (∀ k ∈ kind, token.kind = k) ∧ (∀ t ∈ text, token.text = t) ∧
        token.kind ≠ .endOfInput := by
  unfold refusal?
  split
  case h_1 k hk =>
    obtain ⟨rfl, hne⟩ := Option.filter_eq_some_iff.mp hk
    simp at hne
    simp [Ne.symm hne]
  case h_2 t hk ht =>
    obtain ⟨rfl, hne⟩ := Option.filter_eq_some_iff.mp ht
    simp at hne
    simp [Ne.symm hne]
  case h_3 hk ht =>
    simp only [Option.filter_eq_none_iff, ne_eq, decide_not, Bool.not_eq_true',
      decide_eq_false_iff_not, Decidable.not_not] at hk ht
    have hkind : ∀ k ∈ kind, token.kind = k := fun k h => (hk k h).symm
    have htext : ∀ t ∈ text, token.text = t := fun t h => (ht t h).symm
    simp only [ite_eq_right_iff, reduceCtorEq, imp_false]
    exact ⟨fun h => ⟨hkind, htext, h⟩, fun h => h.2.2⟩

/-- A token is refused for its kind, for its text, or since it ends the input. -/
theorem Token.refusal?_cases {token : Token} {kind : Option Kind} {text : Option String}
    {violation : Violation} (h : token.refusal? kind text = some violation) :
    (∃ k, violation = .expectedKind k) ∨ (∃ t, violation = .expectedText t) ∨
      violation = .endOfInput := by
  unfold refusal? at h
  split at h
  case h_1 k _ => exact .inl ⟨k, (Option.some.inj h).symm⟩
  case h_2 t _ _ => exact .inr (.inl ⟨t, (Option.some.inj h).symm⟩)
  case h_3 =>
    split at h
    · exact .inr (.inr (Option.some.inj h).symm)
    · cases h

namespace Grammar

variable {α β : Type} {s s' : State}

namespace State

/-- A token that is not the end of the input is the first of those left. -/
theorem rest_eq_cons (h : s.current.kind ≠ .endOfInput) : s.rest = s.current :: s.rest.tail := by
  cases hr : s.rest with
  | nil => exact absurd s.kind_endToken (by simpa [current, hr] using h)
  | cons token rest => simp [current, hr]

/-- The state after the current token has been read and has left these scopes. -/
def read (s : State) (scopes : Scopes) : State :=
  { s with scopes, rest := s.rest.tail, position := s.position + 1 }

end State

/-! ## Values -/

/-- Two rules in a row come to a value if the first does and the second goes on from there. -/
theorem run_bind_ok {x : Rule α} {f : α → Rule β} {b : β} :
    (x >>= f).run s = .ok b s' ↔ ∃ a s₁, x.run s = .ok a s₁ ∧ (f a).run s₁ = .ok b s' := by
  rw [EStateM.run_bind]
  cases x.run s with
  | ok a s₁ => exact ⟨fun h => ⟨a, s₁, rfl, h⟩, fun ⟨_, _, rfl, h⟩ => h⟩
  | error e s₁ => simp

theorem run_pure_ok {a b : α} : (pure a : Rule α).run s = .ok b s' ↔ a = b ∧ s = s' := by
  simp

theorem run_map_ok {x : Rule α} {f : α → β} {b : β} :
    (f <$> x).run s = .ok b s' ↔ ∃ a, x.run s = .ok a s' ∧ f a = b := by
  rw [← bind_pure_comp, run_bind_ok]
  simp only [run_pure_ok]
  exact ⟨fun ⟨a, _, ha, hf, rfl⟩ => ⟨a, ha, hf⟩, fun ⟨a, ha, hf⟩ => ⟨a, s', ha, hf, rfl⟩⟩

theorem run_discard_ok {x : Rule α} {u : Unit} :
    (discard x).run s = .ok u s' ↔ ∃ a, x.run s = .ok a s' :=
  run_map_ok.trans (by simp)

/-- To look at the state changes nothing. -/
theorem run_observe_bind (view : State → α) (f : α → Rule β) :
    (observe view >>= f).run s = (f (view s)).run s := rfl

/-- A rejected token yields nothing. -/
theorem run_reject_ok {token : Token} {violation : Violation} {a : α} :
    ¬ (reject token violation : Rule α).run s = .ok a s' := by
  rintro ⟨⟩

/-- A condition that is required holds where the run goes on. -/
theorem run_require_ok {condition : Bool} {token : Token} {violation : Violation} {u : Unit} :
    (require condition token violation).run s = .ok u s' ↔ condition = true ∧ s = s' := by
  cases condition with
  | false => simp [require, run_reject_ok]
  | true => simp [require]

/-! ## Errors -/

/-- Two rules in a row fail where the first fails, or where the second does after it. -/
theorem run_bind_error {x : Rule α} {f : α → Rule β} {e : Error} :
    (x >>= f).run s = .error e s' ↔
      x.run s = .error e s' ∨ ∃ a s₁, x.run s = .ok a s₁ ∧ (f a).run s₁ = .error e s' := by
  rw [EStateM.run_bind]
  cases x.run s with
  | ok a s₁ =>
    constructor
    · exact fun h => .inr ⟨a, s₁, rfl, h⟩
    · rintro (h | ⟨_, _, ⟨rfl, rfl⟩, h⟩)
      · simp at h
      · exact h
  | error e₁ s₁ => simp

theorem run_bind_error_first {x : Rule α} {e : Error} (h : x.run s = .error e s')
    (f : α → Rule β) : (x >>= f).run s = .error e s' :=
  run_bind_error.mpr (.inl h)

theorem run_bind_error_next {x : Rule α} {a : α} {s₁ : State} {f : α → Rule β} {e : Error}
    (hx : x.run s = .ok a s₁) (h : (f a).run s₁ = .error e s') : (x >>= f).run s = .error e s' :=
  run_bind_error.mpr (.inr ⟨a, s₁, hx, h⟩)

theorem run_pure_error {a : α} {e : Error} : ¬ (pure a : Rule α).run s = .error e s' := by
  simp

theorem run_map_error {x : Rule α} {f : α → β} {e : Error} :
    (f <$> x).run s = .error e s' ↔ x.run s = .error e s' := by
  rw [← bind_pure_comp, run_bind_error]
  simp

theorem run_discard_error {x : Rule α} {e : Error} :
    (discard x).run s = .error e s' ↔ x.run s = .error e s' :=
  run_map_error

/-- A rejected token is where the violation is, and the state stays. -/
theorem run_reject_error {token : Token} {violation : Violation} {e : Error} :
    (reject token violation : Rule α).run s = .error e s' ↔
      .violation ⟨token, violation, .error⟩ = e ∧ s = s' := by
  exact EStateM.Result.error.injEq .. ▸ Iff.rfl

/-- A condition that is required fails only if it does not hold. -/
theorem run_require_error {condition : Bool} {token : Token} {violation : Violation} {e : Error} :
    (require condition token violation).run s = .error e s' ↔
      condition = false ∧ .violation ⟨token, violation, .error⟩ = e ∧ s = s' := by
  cases condition with
  | false => simp [require, run_reject_error]
  | true => simp [require]

/-! ## Tests of a run -/

/-- A run has come to a value, with a state, that pass a test. -/
def reaches (test : α → State → Bool) : EStateM.Result Error State α → Bool
  | .ok a s => test a s
  | .error _ _ => false

/-- A run that passes a test has come to a value. -/
theorem exists_ok_of_reaches {test : α → State → Bool} {result : EStateM.Result Error State α}
    (h : reaches test result = true) : ∃ a s, result = .ok a s ∧ test a s = true := by
  cases result with
  | ok a s => exact ⟨a, s, rfl, h⟩
  | error e s => cases h

/-- A run has come to a violation, with a state, that pass a test. -/
def refuses (test : TokenError → State → Bool) : EStateM.Result Error State α → Bool
  | .error (.violation error) s => test error s
  | _ => false

/-- A run that is refused has come to a violation. -/
theorem exists_violation_of_refuses {test : TokenError → State → Bool}
    {result : EStateM.Result Error State α} (h : refuses test result = true) :
    ∃ error s, result = .error (.violation error) s ∧ test error s = true := by
  cases result with
  | ok a s => cases h
  | error e s =>
    cases e with
    | violation error => exact ⟨error, s, rfl, h⟩
    | _ => cases h

/-! ## Reading a token -/

/-- A step checks the kind and the text of a token, then the scopes, and reads it if all is well. -/
theorem run_advance (kind : Option Kind) (text : Option String) (opens : Option ScopeKind) :
    (advance kind text opens).run s =
      match s.current.refusal? kind text, s.scopes.pass s.current opens with
      | some violation, _ => .error (.violation ⟨s.current, violation, .error⟩) s
      | none, .error error => .error (.scope error) s
      | none, .ok scopes => .ok s.current (s.read scopes) := by
  simp only [advance, EStateM.run_bind, EStateM.run_get]
  cases s.current.refusal? kind text with
  | some violation => rfl
  | none => cases s.scopes.pass s.current opens <;> rfl

/-- A step that succeeds has read the current token, which is as asked for and moves the scopes. -/
theorem run_advance_ok {kind : Option Kind} {text : Option String} {opens : Option ScopeKind}
    {token : Token} :
    (advance kind text opens).run s = .ok token s' ↔
      s.current = token ∧ token.refusal? kind text = none ∧
        ∃ scopes, s.scopes.pass token opens = .ok scopes ∧ s.read scopes = s' := by
  rw [run_advance]
  split
  case h_1 violation h =>
    simp only [reduceCtorEq, false_iff]
    rintro ⟨rfl, hnone, _⟩
    simp [hnone] at h
  case h_2 error _ h =>
    simp only [reduceCtorEq, false_iff]
    rintro ⟨rfl, _, scopes, hok, _⟩
    simp [hok] at h
  case h_3 scopes hnone hok =>
    rw [EStateM.Result.ok.injEq]
    constructor
    · rintro ⟨rfl, rfl⟩
      exact ⟨rfl, hnone, scopes, hok, rfl⟩
    · rintro ⟨rfl, _, scopes', hok', rfl⟩
      rw [hok, Except.ok.injEq] at hok'
      exact ⟨rfl, by rw [hok']⟩

/-- A refused token moves nothing. -/
theorem run_advance_error {kind : Option Kind} {text : Option String} {opens : Option ScopeKind}
    {e : Error} (h : (advance kind text opens).run s = .error e s') :
    s = s' ∧ ((∃ violation, e = .violation ⟨s.current, violation, .error⟩ ∧
        s.current.refusal? kind text = some violation) ∨
      ∃ error, e = .scope error ∧ s.current.refusal? kind text = none ∧
        s.scopes.pass s.current opens = .error error) := by
  rw [run_advance] at h
  split at h
  case h_1 violation hv =>
    rw [EStateM.Result.error.injEq] at h
    exact ⟨h.2, .inl ⟨violation, h.1.symm, hv⟩⟩
  case h_2 error hnone herror =>
    rw [EStateM.Result.error.injEq] at h
    exact ⟨h.2, .inr ⟨error, h.1.symm, hnone, herror⟩⟩
  case h_3 => simp at h

/-! ## Loops -/

section

variable {continues : State → Bool} {step : α → Rule α}

private theorem iterate_ok (invariant : α → State → Prop)
    (hstep : ∀ a s b s', invariant a s → continues s = true → (step a).run s = .ok b s' →
      invariant b s')
    (bound : Nat) {a b : α} (ha : invariant a s)
    (h : (iterate continues step bound a).run s = .ok b s') : invariant b s' := by
  induction bound generalizing a s with
  | zero =>
    obtain ⟨rfl, rfl⟩ := run_pure_ok.mp h
    exact ha
  | succ bound ih =>
    rw [iterate, run_observe_bind] at h
    split at h
    case isTrue hc =>
      obtain ⟨c, s₁, hc', h⟩ := run_bind_ok.mp h
      exact ih (hstep _ _ _ _ ha hc hc') h
    case isFalse =>
      obtain ⟨rfl, rfl⟩ := run_pure_ok.mp h
      exact ha

private theorem iterate_error (invariant : α → State → Prop) {e : Error}
    (hstep : ∀ a s b s', invariant a s → continues s = true → (step a).run s = .ok b s' →
      invariant b s')
    (bound : Nat) {a : α} (ha : invariant a s)
    (h : (iterate continues step bound a).run s = .error e s') :
    ∃ b s₁, invariant b s₁ ∧ continues s₁ = true ∧ (step b).run s₁ = .error e s' := by
  induction bound generalizing a s with
  | zero => exact absurd h run_pure_error
  | succ bound ih =>
    rw [iterate, run_observe_bind] at h
    split at h
    case isTrue hc =>
      rcases run_bind_error.mp h with h | ⟨c, s₁, hc', h⟩
      · exact ⟨a, s, ha, hc, h⟩
      · exact ih (hstep _ _ _ _ ha hc hc') h
    case isFalse => exact absurd h run_pure_error

/-- What every round of a loop keeps holds when the loop has ended. -/
theorem run_whilst_ok (invariant : α → State → Prop) {a b : α}
    (hstep : ∀ a s b s', invariant a s → continues s = true → (step a).run s = .ok b s' →
      invariant b s')
    (ha : invariant a s) (h : (whilst continues step a).run s = .ok b s') : invariant b s' := by
  rw [whilst, run_observe_bind] at h
  exact iterate_ok invariant hstep _ ha h

/-- A loop fails in a round, and the rounds before have kept what every round keeps. -/
theorem run_whilst_error (invariant : α → State → Prop) {a : α} {e : Error}
    (hstep : ∀ a s b s', invariant a s → continues s = true → (step a).run s = .ok b s' →
      invariant b s')
    (ha : invariant a s) (h : (whilst continues step a).run s = .error e s') :
    ∃ b s₁, invariant b s₁ ∧ continues s₁ = true ∧ (step b).run s₁ = .error e s' := by
  rw [whilst, run_observe_bind] at h
  exact iterate_error invariant hstep _ ha h

end

section

variable {continues : State → Bool} {item : Rule α}

/-- What every new item keeps holds of all items collected. -/
theorem run_collect_ok (invariant : List α → State → Prop) {items items' : List α}
    (hitem : ∀ items s a s', invariant items s → continues s = true → item.run s = .ok a s' →
      invariant (items ++ [a]) s')
    (hs : invariant items s) (h : (collect continues item items).run s = .ok items' s') :
    invariant items' s' := by
  refine run_whilst_ok invariant (fun items s items' s' hinv hc hstep => ?_) hs h
  obtain ⟨a, s₁, ha, hpure⟩ := run_bind_ok.mp hstep
  obtain ⟨rfl, rfl⟩ := run_pure_ok.mp hpure
  exact hitem _ _ _ _ hinv hc ha

/-- Collecting fails at an item, after others that keep what every item keeps. -/
theorem run_collect_error (invariant : List α → State → Prop) {items : List α} {e : Error}
    (hitem : ∀ items s a s', invariant items s → continues s = true → item.run s = .ok a s' →
      invariant (items ++ [a]) s')
    (hs : invariant items s) (h : (collect continues item items).run s = .error e s') :
    ∃ items₁ s₁, invariant items₁ s₁ ∧ continues s₁ = true ∧ item.run s₁ = .error e s' := by
  obtain ⟨items₁, s₁, hinv, hc, hstep⟩ := run_whilst_error invariant
    (fun items s items' s' hinv hc hstep => by
      obtain ⟨a, s₁, ha, hpure⟩ := run_bind_ok.mp hstep
      obtain ⟨rfl, rfl⟩ := run_pure_ok.mp hpure
      exact hitem _ _ _ _ hinv hc ha) hs h
  rcases run_bind_error.mp hstep with hstep | ⟨_, _, _, hpure⟩
  · exact ⟨items₁, s₁, hinv, hc, hstep⟩
  · exact absurd hpure run_pure_error

end

end Grammar

end Tranquility
