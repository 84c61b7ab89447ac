import Tranquility.Proofs.Grammar.Step
import Tranquility.Proofs.Scope.Bare

/-!
# Two runs side by side

A rule is run from two states whose tokens go together one by one: each has the kind of the other
and, unless it is a newline, its text. Places and numbers are free, as long as the reporters still
tell the tokens apart in the same way. Then the two runs take the same decisions. Both read a value,
or both end in an error of one form at tokens that go together, and their states still go together.

A property of scopes is carried along: it holds in both ways of ending if every step of the rule
keeps it. So the laws of one run are those of a run beside itself.
-/

namespace Tranquility

/-- Which tokens of two lists go together, and which entries of two reporters. -/
structure Pairing where
  /-- The tokens go together. -/
  token : Token → Token → Prop
  /-- The entries go together. -/
  entry : Int × Diagnostic → Int × Diagnostic → Prop
  kind_eq : ∀ {a b : Token}, token a b → a.kind = b.kind
  text_eq : ∀ {a b : Token}, token a b → a.kind ≠ .newline → a.text = b.text
  /-- A diagnostic about tokens that go together goes together with the other. -/
  entry_atToken : ∀ {a b : Token}, token a b → a.kind ≠ .newline → a.kind ≠ .endOfInput →
    ∀ (message : String) (severity : Severity),
      entry (a.index, .atToken a message severity) (b.index, .atToken b message severity)
  /-- Whether a token has an entry can be told from those that go together with the two. -/
  index_eq_iff : ∀ {a b : Token} {x y : Int × Diagnostic}, token a b → a.kind ≠ .newline →
    a.kind ≠ .endOfInput → entry x y → (x.1 = a.index ↔ y.1 = b.index)

namespace Pairing

/-- Every token goes together with itself alone. -/
def same : Pairing where
  token := Eq
  entry := Eq
  kind_eq h := congrArg _ h
  text_eq h _ := congrArg _ h
  entry_atToken h _ _ _ _ := h ▸ rfl
  index_eq_iff h _ _ hentry := by rw [h, hentry]

variable (pairing : Pairing)

/-- The reporters have entries that go together. -/
def Reporters (reporter reporter' : Reporter) : Prop :=
  List.Forall₂ pairing.entry reporter.entries.toList reporter'.entries.toList

/-- The errors have one form and are about tokens that go together. -/
inductive Failure : Error → Error → Prop where
  | violation {a b : Token} (token : pairing.token a b) (violation : Violation)
    (severity : Severity) :
    Failure (.violation ⟨a, violation, severity⟩) (.violation ⟨b, violation, severity⟩)
  | scope (error : ScopeError) : Failure (.scope error) (.scope error)
  | truncated {a b : Token} (token : pairing.token a b) :
    Failure (.truncatedEscape a) (.truncatedEscape b)

variable {pairing}

/-- Tokens that go together and are no newlines are the same without their places. -/
theorem bare_eq {a b : Token} (h : pairing.token a b) (hkind : a.kind ≠ .newline) :
    a.bare = b.bare :=
  Token.bare_eq_bare_iff.mpr ⟨pairing.kind_eq h, pairing.text_eq h hkind⟩

/-- A token has a report on both sides or on neither. -/
theorem has_eq {reporter reporter' : Reporter} {a b : Token}
    (hreporter : pairing.Reporters reporter reporter') (h : pairing.token a b)
    (hnewline : a.kind ≠ .newline) (hend : a.kind ≠ .endOfInput) :
    reporter.has a = reporter'.has b := by
  have hany : ∀ {entries entries' : List (Int × Diagnostic)},
      List.Forall₂ pairing.entry entries entries' →
        entries.any (·.1 = a.index) = entries'.any (·.1 = b.index) := by
    intro entries entries' hentries
    induction hentries with
    | nil => rfl
    | cons hentry _ ih =>
      rw [List.any_cons, List.any_cons, ih]
      congr 1
      exact decide_eq_decide.mpr (pairing.index_eq_iff h hnewline hend hentry)
  rw [Reporter.has, Reporter.has, ← Array.any_toList, ← Array.any_toList]
  exact hany hreporter

/-- A report about tokens that go together is kept by both reporters or by neither. -/
theorem Reporters.report {reporter reporter' : Reporter} {a b : Token}
    (hreporter : pairing.Reporters reporter reporter') (h : pairing.token a b)
    (hnewline : a.kind ≠ .newline) (hend : a.kind ≠ .endOfInput) (message : String)
    (severity : Severity) :
    pairing.Reporters (reporter.report a message severity)
      (reporter'.report b message severity) := by
  rw [Reporter.report, Reporter.report, has_eq hreporter h hnewline hend]
  split
  case isTrue => exact hreporter
  case isFalse =>
    rw [Reporters, Array.toList_push, Array.toList_push]
    exact List.rel_append hreporter
      (.cons (pairing.entry_atToken h hnewline hend message severity) .nil)

end Pairing

/-- The first items go together, or else what stands for them. -/
theorem rel_headD {α β : Type} {related : α → β → Prop} {items : List α} {items' : List β}
    (h : List.Forall₂ related items items') {a : α} {b : β} (hdefault : related a b) :
    related (items.headD a) (items'.headD b) := by
  cases h with
  | nil => exact hdefault
  | cons hfirst _ => exact hfirst

/-- What goes together item by item does so without the first items. -/
theorem rel_tail {α β : Type} {related : α → β → Prop} {items : List α} {items' : List β}
    (h : List.Forall₂ related items items') : List.Forall₂ related items.tail items'.tail := by
  cases h with
  | nil => exact .nil
  | cons _ hrest => exact hrest

namespace Grammar

/-- The states go together, and the first of them has a property of scopes. -/
structure Alike (pairing : Pairing) (keeps : Scopes → Prop) (s t : State) : Prop where
  rest : List.Forall₂ pairing.token s.rest t.rest
  position : s.position = t.position
  endToken : pairing.token s.endToken t.endToken
  scopes : s.scopes.bare = t.scopes.bare
  reporter : pairing.Reporters s.reporter t.reporter
  kept : keeps s.scopes

/-- Two runs end side by side: in values that go together, or in errors that do. -/
inductive Ends {α β : Type} (pairing : Pairing) (keeps : Scopes → Prop) (values : α → β → Prop) :
    EStateM.Result Error State α → EStateM.Result Error State β → Prop where
  | ok {a : α} {b : β} {s t : State} (value : values a b) (state : Alike pairing keeps s t) :
    Ends pairing keeps values (.ok a s) (.ok b t)
  | error {e f : Error} {s t : State} (failure : pairing.Failure e f)
    (state : Alike pairing keeps s t) : Ends pairing keeps values (.error e s) (.error f t)

/-- From states that go together, the rules run side by side. -/
def Parallel {α β : Type} (pairing : Pairing) (keeps : Scopes → Prop) (values : α → β → Prop)
    (rule : Rule α) (rule' : Rule β) : Prop :=
  ∀ s t, Alike pairing keeps s t → Ends pairing keeps values (rule.run s) (rule'.run t)

variable {pairing : Pairing} {keeps : Scopes → Prop} {s t : State} {α β γ δ : Type}

/-! ## States -/

namespace Alike

/-- A state goes together with itself. -/
theorem refl (h : keeps s.scopes) : Alike .same keeps s s where
  rest := List.forall₂_same.mpr fun _ _ => rfl
  position := rfl
  endToken := rfl
  scopes := rfl
  reporter := List.forall₂_same.mpr fun _ _ => rfl
  kept := h

theorem current (h : Alike pairing keeps s t) : pairing.token s.current t.current :=
  rel_headD h.rest h.endToken

theorem tail (h : Alike pairing keeps s t) :
    List.Forall₂ pairing.token s.rest.tail t.rest.tail :=
  rel_tail h.rest

theorem next (h : Alike pairing keeps s t) : pairing.token s.next t.next :=
  rel_headD h.tail h.endToken

theorem kind_eq (h : Alike pairing keeps s t) : s.current.kind = t.current.kind :=
  pairing.kind_eq h.current

theorem length_eq (h : Alike pairing keeps s t) : s.rest.length = t.rest.length :=
  h.rest.length_eq

theorem sees_eq (h : Alike pairing keeps s t) (kind : Kind) : s.sees kind = t.sees kind := by
  rw [State.sees, State.sees, h.kind_eq]

theorem seesNext_eq (h : Alike pairing keeps s t) (kind : Kind) :
    s.seesNext kind = t.seesNext kind := by
  rw [State.seesNext, State.seesNext, pairing.kind_eq h.next]

theorem seesOperator_eq (h : Alike pairing keeps s t) (level : Level) :
    s.seesOperator level = t.seesOperator level := by
  rw [State.seesOperator, State.seesOperator, h.kind_eq]

/-- Tokens that go together are the same keyword or none. -/
theorem isKeyword_eq {a b : Token} (h : pairing.token a b) (text : String) :
    a.isKeyword text = b.isKeyword text := by
  rw [Token.isKeyword, Token.isKeyword, ← pairing.kind_eq h]
  by_cases hkeyword : a.kind = .keyword
  · rw [pairing.text_eq h (by rw [hkeyword]; decide)]
  · simp [hkeyword]

theorem seesKeyword_eq (h : Alike pairing keeps s t) (text : String) :
    s.seesKeyword text = t.seesKeyword text :=
  isKeyword_eq h.current text

theorem atEnd_eq (h : Alike pairing keeps s t) : s.atEnd = t.atEnd :=
  h.sees_eq .endOfInput

theorem scope_eq (h : Alike pairing keeps s t) : s.scopes.current = t.scopes.current := by
  rw [← Scopes.current_bare, h.scopes, Scopes.current_bare]

/-- A variable is visible on both sides or on neither. -/
theorem hasVariable_eq (h : Alike pairing keeps s t) (name : String) :
    s.hasVariable name = t.hasVariable name := by
  rw [State.hasVariable, State.hasVariable, ← Scopes.hasVariable_bare, h.scopes, h.scope_eq,
    Scopes.hasVariable_bare]

/-- A name means functions with the same number of arguments. -/
theorem findFunction?_eq (h : Alike pairing keeps s t) (name : String) :
    (s.findFunction? name).map FunctionSymbol.bare =
      (t.findFunction? name).map FunctionSymbol.bare := by
  rw [State.findFunction?, State.findFunction?, ← Scopes.findFunction?_bare, h.scopes, h.scope_eq,
    Scopes.findFunction?_bare]

/-- A name means a function in both states or in neither. -/
theorem findFunction?_cases (h : Alike pairing keeps s t) (name : String) :
    (s.findFunction? name = none ∧ t.findFunction? name = none) ∨
      ∃ function function', s.findFunction? name = some function ∧
        t.findFunction? name = some function' ∧ function.arity = function'.arity := by
  have hfound := h.findFunction?_eq name
  cases hs : s.findFunction? name with
  | none =>
    rw [hs, Option.map_none] at hfound
    exact .inl ⟨rfl, Option.map_eq_none_iff.mp hfound.symm⟩
  | some function =>
    rw [hs, Option.map_some] at hfound
    obtain ⟨function', ht, hbare⟩ := Option.map_eq_some_iff.mp hfound.symm
    exact .inr ⟨function, function', rfl, ht, congrArg (·.arity) hbare.symm⟩

/-- The current tokens are refused in one way, or lead to scopes that go together. -/
theorem pass_cases (h : Alike pairing keeps s t) (opens : Option ScopeKind) :
    (∃ error, s.scopes.pass s.current opens = .error error ∧
      t.scopes.pass t.current opens = .error error) ∨
      ∃ scopes scopes', s.scopes.pass s.current opens = .ok scopes ∧
        t.scopes.pass t.current opens = .ok scopes' ∧ scopes.bare = scopes'.bare := by
  have hpass : (s.scopes.pass s.current opens).map Scopes.bare =
      (t.scopes.pass t.current opens).map Scopes.bare := by
    rw [Scopes.pass_bare, Scopes.pass_bare, h.scopes, Scopes.pass, Scopes.pass, h.kind_eq]
  generalize s.scopes.pass s.current opens = result at hpass ⊢
  generalize t.scopes.pass t.current opens = result' at hpass ⊢
  cases result with
  | error error =>
    cases result' with
    | error error' =>
      cases hpass
      exact .inl ⟨error, rfl, rfl⟩
    | ok scopes' => cases hpass
  | ok scopes =>
    cases result' with
    | error error' => cases hpass
    | ok scopes' => exact .inr ⟨scopes, scopes', rfl, rfl, Except.ok.inj hpass⟩

/-- A function may be declared on both sides or on neither. -/
theorem allowsFunction_eq (h : Alike pairing keeps s t) (name : String) :
    s.allowsFunction name = t.allowsFunction name := by
  rw [State.allowsFunction, State.allowsFunction, ← Scopes.hasFunction_bare, h.scopes, h.scope_eq,
    Scopes.hasFunction_bare]

/-- A loop has its mark on both sides or on neither. -/
theorem hasUntil_eq (h : Alike pairing keeps s t) (id : Nat) :
    s.scopes.hasUntil id = t.scopes.hasUntil id := by
  rw [← Scopes.hasUntil_bare, h.scopes, Scopes.hasUntil_bare]

/-- The states after their tokens have been read and have left scopes that go together. -/
theorem read (h : Alike pairing keeps s t) {scopes scopes' : Scopes}
    (hscopes : scopes.bare = scopes'.bare) (hkept : keeps scopes) :
    Alike pairing keeps (s.read scopes) (t.read scopes') where
  rest := h.tail
  position := congrArg (· + 1) h.position
  endToken := h.endToken
  scopes := hscopes
  reporter := h.reporter
  kept := hkept

/-- The states after a change of scopes. -/
theorem settled (h : Alike pairing keeps s t) {scopes scopes' : Scopes}
    (hscopes : scopes.bare = scopes'.bare) (hkept : keeps scopes) :
    Alike pairing keeps { s with scopes } { t with scopes := scopes' } where
  rest := h.rest
  position := h.position
  endToken := h.endToken
  scopes := hscopes
  reporter := h.reporter
  kept := hkept

end Alike

/-! ## Steps one after the other -/

section

variable {values : α → β → Prop} {values' : γ → δ → Prop}

theorem Ends.mono {result : EStateM.Result Error State α} {result' : EStateM.Result Error State β}
    {wider : α → β → Prop} (h : Ends pairing keeps values result result')
    (hwider : ∀ a b, values a b → wider a b) : Ends pairing keeps wider result result' := by
  cases h with
  | ok value state => exact .ok (hwider _ _ value) state
  | error failure state => exact .error failure state

theorem Ends.bind {x : Rule α} {y : Rule β} {f : α → Rule γ} {g : β → Rule δ}
    (hx : Ends pairing keeps values (x.run s) (y.run t))
    (hf : ∀ a b, values a b → Parallel pairing keeps values' (f a) (g b)) :
    Ends pairing keeps values' ((x >>= f).run s) ((y >>= g).run t) := by
  rw [EStateM.run_bind, EStateM.run_bind]
  generalize x.run s = result at hx ⊢
  generalize y.run t = result' at hx ⊢
  cases hx with
  | ok value state => exact hf _ _ value _ _ state
  | error failure state => exact .error failure state

namespace Parallel

theorem bind {x : Rule α} {y : Rule β} {f : α → Rule γ} {g : β → Rule δ}
    (hx : Parallel pairing keeps values x y)
    (hf : ∀ a b, values a b → Parallel pairing keeps values' (f a) (g b)) :
    Parallel pairing keeps values' (x >>= f) (y >>= g) :=
  fun s t h => (hx s t h).bind hf

theorem pure {a : α} {b : β} (h : values a b) :
    Parallel pairing keeps values (pure a) (pure b) :=
  fun _ _ hstate => .ok h hstate

theorem map {x : Rule α} {y : Rule β} {f : α → γ} {g : β → δ}
    (hx : Parallel pairing keeps values x y)
    (hf : ∀ a b, values a b → values' (f a) (g b)) :
    Parallel pairing keeps values' (f <$> x) (g <$> y) := by
  rw [← bind_pure_comp, ← bind_pure_comp]
  exact hx.bind fun a b h => .pure (hf a b h)

theorem discard {x : Rule α} {y : Rule β} (hx : Parallel pairing keeps values x y) :
    Parallel pairing keeps (fun _ _ => True) (discard x) (discard y) :=
  hx.map fun _ _ _ => trivial

/-- Both states are looked at. -/
theorem observe {view : State → α} {f : α → Rule γ} {g : α → Rule δ}
    (hview : ∀ s t, Alike pairing keeps s t → view s = view t)
    (hf : ∀ a, Parallel pairing keeps values' (f a) (g a)) :
    Parallel pairing keeps values' (observe view >>= f) (observe view >>= g) := by
  intro s t h
  rw [run_observe_bind, run_observe_bind, hview s t h]
  exact hf _ _ _ h

/-- The current tokens are looked at. -/
theorem observeCurrent {f : Token → Rule γ} {g : Token → Rule δ}
    (hf : ∀ a b, pairing.token a b → Parallel pairing keeps values' (f a) (g b)) :
    Parallel pairing keeps values' (Grammar.observe State.current >>= f)
      (Grammar.observe State.current >>= g) := by
  intro s t h
  rw [run_observe_bind, run_observe_bind]
  exact hf _ _ h.current _ _ h

theorem reject {a b : Token} (h : pairing.token a b) (violation : Violation) :
    Parallel pairing keeps values (reject a violation) (reject b violation) :=
  fun _ _ hstate => .error (.violation h violation .error) hstate

theorem require {a b : Token} (h : pairing.token a b) (condition : Bool) (violation : Violation) :
    Parallel pairing keeps (fun _ _ => True) (require condition a violation)
      (require condition b violation) := by
  cases condition with
  | false => exact .reject h violation
  | true => exact .pure trivial

theorem ite {condition : Prop} [Decidable condition] {x x' : Rule α} {y y' : Rule β}
    (h : Parallel pairing keeps values x y) (h' : Parallel pairing keeps values x' y') :
    Parallel pairing keeps values (if condition then x else x') (if condition then y else y') := by
  split
  · exact h
  · exact h'

end Parallel

end

/-! ## One run -/

/-- A rule that runs beside itself keeps what is carried along, whether it reads a value or fails.
-/
theorem Parallel.kept {values : α → α → Prop} {rule : Rule α}
    (h : Parallel .same keeps values rule rule) (hs : keeps s.scopes) :
    (∀ a s', rule.run s = .ok a s' → keeps s'.scopes) ∧
      ∀ e s', rule.run s = .error e s' → keeps s'.scopes := by
  have hends := h s s (.refl hs)
  constructor
  · intro a s' hrun
    rw [hrun] at hends
    cases hends with
    | ok _ state => exact state.kept
  · intro e s' hrun
    rw [hrun] at hends
    cases hends with
    | error _ state => exact state.kept

/-! ## Tokens -/

/-- Nothing but the text of a newline is left open, and no rule asks for that. -/
theorem refusal?_eq {a b : Token} (h : pairing.token a b) {kind : Option Kind}
    {text : Option String} (htext : text ≠ none → kind = some .keyword) :
    a.refusal? kind text = b.refusal? kind text := by
  have hkind := pairing.kind_eq h
  unfold Token.refusal?
  rw [hkind]
  cases text with
  | none => rfl
  | some text =>
    rw [htext (Option.some_ne_none text)]
    by_cases hkeyword : b.kind = .keyword
    · rw [pairing.text_eq h (by rw [hkind, hkeyword]; decide)]
    · rw [Option.filter_some_pos (by simpa using Ne.symm hkeyword)]

/-- A token is read on both sides if it leads to scopes with the property on the first. -/
theorem advance_ends {kind : Option Kind} {text : Option String} {opens : Option ScopeKind}
    (h : Alike pairing keeps s t) (htext : text ≠ none → kind = some .keyword)
    (hkept : ∀ scopes, s.current.refusal? kind text = none →
      s.scopes.pass s.current opens = .ok scopes → keeps scopes) :
    Ends pairing keeps (fun a b => pairing.token a b ∧ s.current = a ∧ a.refusal? kind text = none)
      ((advance kind text opens).run s) ((advance kind text opens).run t) := by
  rw [run_advance, run_advance, ← refusal?_eq h.current htext]
  cases hrefusal : s.current.refusal? kind text with
  | some violation => exact .error (.violation h.current violation .error) h
  | none =>
    rcases h.pass_cases opens with ⟨error, hs, ht⟩ | ⟨scopes, scopes', hs, ht, hscopes⟩
    · rw [hs, ht]
      exact .error (.scope error) h
    · rw [hs, ht]
      exact .ok ⟨h.current, rfl, hrefusal⟩ (h.read hscopes (hkept scopes hrefusal hs))

section

variable {kind : Kind}

/-- A token that is not a brace leads to the same scopes. -/
theorem kept_of_isPlain (h : Alike pairing keeps s t) (hplain : s.current.kind.isPlain = true)
    (opens : Option ScopeKind) (scopes : Scopes)
    (hpass : s.scopes.pass s.current opens = .ok scopes) : keeps scopes := by
  rw [Scopes.pass_of_isPlain hplain, Except.ok.injEq] at hpass
  exact hpass ▸ h.kept

/-- Tokens that are asked for by their kind go together. -/
theorem expect_parallel (hplain : kind.isPlain = true) :
    Parallel pairing keeps (fun a b => pairing.token a b ∧ a.kind = kind) (expect kind)
      (expect kind) := by
  intro s t h
  refine (advance_ends h (by simp) fun scopes hrefusal hpass => ?_).mono ?_
  · have hkind := (Token.refusal?_eq_none_iff.mp hrefusal).1 kind rfl
    exact kept_of_isPlain h (hkind ▸ hplain) none scopes hpass
  · rintro a b ⟨htoken, _, hrefusal⟩
    exact ⟨htoken, (Token.refusal?_eq_none_iff.mp hrefusal).1 kind rfl⟩

theorem skip_parallel (hplain : kind.isPlain = true) :
    Parallel pairing keeps (fun _ _ => True) (skip kind) (skip kind) :=
  (expect_parallel hplain).discard

/-- Keywords that are asked for go together. -/
theorem expectKeyword_parallel (text : String) :
    Parallel pairing keeps (fun a b => pairing.token a b ∧ a.kind = .keyword) (expectKeyword text)
      (expectKeyword text) := by
  intro s t h
  refine (advance_ends h (fun _ => rfl) fun scopes hrefusal hpass => ?_).mono ?_
  · have hkind := (Token.refusal?_eq_none_iff.mp hrefusal).1 .keyword rfl
    exact kept_of_isPlain h (hkind ▸ rfl) none scopes hpass
  · rintro a b ⟨htoken, _, hrefusal⟩
    exact ⟨htoken, (Token.refusal?_eq_none_iff.mp hrefusal).1 .keyword rfl⟩

theorem skipKeyword_parallel (text : String) :
    Parallel pairing keeps (fun _ _ => True) (skipKeyword text) (skipKeyword text) :=
  (expectKeyword_parallel text).discard

/-- The current tokens are taken side by side. -/
theorem take_ends (h : Alike pairing keeps s t) (hplain : s.current.kind.isPlain = true) :
    Ends pairing keeps (fun a b => pairing.token a b ∧ s.current = a) (take.run s) (take.run t) :=
  (advance_ends h (by simp) fun scopes _ hpass => kept_of_isPlain h hplain none scopes hpass).mono
    fun _ _ ⟨htoken, hcurrent, _⟩ => ⟨htoken, hcurrent⟩

end

/-! ## Loops -/

section

variable {values : α → β → Prop} {continues : State → Bool}

/-- Loops with one bound run side by side if their rounds do. -/
theorem iterate_parallel {step : α → Rule α} {step' : β → Rule β}
    (hcontinues : ∀ s t, Alike pairing keeps s t → continues s = continues t)
    (hstep : ∀ a b, values a b → ∀ s t, Alike pairing keeps s t → continues s = true →
      Ends pairing keeps values ((step a).run s) ((step' b).run t)) (bound : Nat) :
    ∀ a b, values a b → Parallel pairing keeps values (iterate continues step bound a)
      (iterate continues step' bound b) := by
  induction bound with
  | zero => exact fun a b h => .pure h
  | succ bound ih =>
    intro a b hvalue s t h
    rw [iterate, iterate, run_observe_bind, run_observe_bind, ← hcontinues s t h]
    by_cases hc : continues s = true
    · rw [if_pos hc, if_pos hc]
      exact (hstep a b hvalue s t h hc).bind ih
    · rw [if_neg hc, if_neg hc]
      exact .ok hvalue h

/-- Loops run side by side if their rounds do, since as many tokens are left on both sides. -/
theorem whilst_parallel {step : α → Rule α} {step' : β → Rule β}
    (hcontinues : ∀ s t, Alike pairing keeps s t → continues s = continues t)
    (hstep : ∀ a b, values a b → ∀ s t, Alike pairing keeps s t → continues s = true →
      Ends pairing keeps values ((step a).run s) ((step' b).run t)) {a : α} {b : β}
    (hvalue : values a b) :
    Parallel pairing keeps values (whilst continues step a) (whilst continues step' b) :=
  .observe (fun _ _ h => congrArg (· + 1) h.length_eq)
    fun bound => iterate_parallel hcontinues hstep bound a b hvalue

variable {item : Rule α} {item' : Rule β}

/-- Lists are read side by side if their items are. -/
theorem collect_parallel
    (hcontinues : ∀ s t, Alike pairing keeps s t → continues s = continues t)
    (hitem : Parallel pairing keeps values item item') {items : List α} {items' : List β}
    (hitems : List.Forall₂ values items items') :
    Parallel pairing keeps (List.Forall₂ values) (collect continues item items)
      (collect continues item' items') := by
  refine whilst_parallel hcontinues ?_ hitems
  intro items items' hitems s t h _
  exact (hitem s t h).bind fun a b hvalue => .pure (List.rel_append hitems (.cons hvalue .nil))

/-- A list is missing on both sides or on neither. -/
theorem unlessAt_parallel {rule : Rule (List α)} {rule' : Rule (List β)} (stop : Kind)
    (h : Parallel pairing keeps (List.Forall₂ values) rule rule') :
    Parallel pairing keeps (List.Forall₂ values) (unlessAt stop rule) (unlessAt stop rule') :=
  .observe (fun _ _ h => h.sees_eq stop) fun _ => .ite (.pure .nil) h

/-- Lists with commas are read side by side if their items are. -/
theorem commaSeparated_parallel (hitem : Parallel pairing keeps values item item') :
    Parallel pairing keeps (List.Forall₂ values) (commaSeparated item) (commaSeparated item') :=
  hitem.bind fun _ _ hfirst =>
    collect_parallel (fun _ _ h => h.sees_eq .comma)
      ((skip_parallel rfl).bind fun _ _ _ => hitem) (.cons hfirst .nil)

end

end Grammar

end Tranquility
