import Tranquility.Proofs.Grammar.Outcome

/-!
# Bounds of loops

A loop has at most as many rounds as there are tokens left. If every round reads a token, the bound
is never what ends the loop, and the loop is equal to itself without it. For this two rules are
compared where only so many tokens are left, and each token that both read makes room for one more.
-/

namespace Tranquility.Grammar

variable {α β : Type} {n : Nat}

/-- Where fewer than `n` tokens are left, the rules do the same and leave no more tokens. -/
structure Agree (n : Nat) (rule other : Rule α) : Prop where
  run_eq : ∀ s, s.rest.length < n → rule.run s = other.run s
  length_le : ∀ s a s', s.rest.length < n → other.run s = .ok a s' →
    s'.rest.length ≤ s.rest.length

/-- Where at most `n` tokens are left, the rules do the same and read at least one token. -/
structure AgreeAfter (n : Nat) (rule other : Rule α) : Prop where
  run_eq : ∀ s, s.rest.length ≤ n → rule.run s = other.run s
  length_lt : ∀ s a s', s.rest.length ≤ n → other.run s = .ok a s' →
    s'.rest.length < s.rest.length

/-- Rules are equal if they do the same wherever they start. -/
theorem rule_ext {rule other : Rule α} (h : ∀ s, rule.run s = other.run s) : rule = other :=
  funext h

/-- The rule yields nothing without a token read. -/
def Eats (rule : Rule α) : Prop :=
  ∀ s a s', rule.run s = .ok a s' → s'.rest.length < s.rest.length

/-! ## Steps -/

namespace Agree

variable {x y : Rule α} {f g : α → Rule β}

/-- There is no place with fewer than no tokens left. -/
theorem zero : Agree 0 x y :=
  ⟨fun _ hs => absurd hs (Nat.not_lt_zero _), fun _ _ _ hs => absurd hs (Nat.not_lt_zero _)⟩

/-- A rule that agrees with another is one that leaves no more tokens. -/
theorem right (h : Agree n x y) : Agree n y y :=
  ⟨fun _ _ => rfl, h.length_le⟩

theorem mono {m : Nat} (h : Agree n x y) (hm : m ≤ n) : Agree m x y :=
  ⟨fun s hs => h.run_eq s (Nat.lt_of_lt_of_le hs hm),
    fun s a s' hs => h.length_le s a s' (Nat.lt_of_lt_of_le hs hm)⟩

theorem bind (h : Agree n x y) (hf : ∀ a, Agree n (f a) (g a)) : Agree n (x >>= f) (y >>= g) where
  run_eq s hs := by
    rw [EStateM.run_bind, EStateM.run_bind, h.run_eq s hs]
    cases hy : y.run s with
    | ok a s₁ => exact (hf a).run_eq s₁ (Nat.lt_of_le_of_lt (h.length_le s a s₁ hs hy) hs)
    | error e s₁ => rfl
  length_le s b s' hs hrun := by
    obtain ⟨a, s₁, hy, hg⟩ := run_bind_ok.mp hrun
    have hle := h.length_le s a s₁ hs hy
    exact Nat.le_trans ((hf a).length_le s₁ b s' (Nat.lt_of_le_of_lt hle hs) hg) hle

theorem pure (a : α) : Agree n (Pure.pure a) (Pure.pure a) where
  run_eq _ _ := rfl
  length_le s b s' _ h := by
    obtain ⟨_, rfl⟩ := run_pure_ok.mp h
    exact Nat.le_refl _

theorem reject (token : Token) (violation : Violation) :
    Agree n (Grammar.reject token violation : Rule α) (Grammar.reject token violation) where
  run_eq _ _ := rfl
  length_le _ _ _ _ h := absurd h run_reject_ok

theorem require (condition : Bool) (token : Token) (violation : Violation) :
    Agree n (Grammar.require condition token violation)
      (Grammar.require condition token violation) where
  run_eq _ _ := rfl
  length_le s u s' _ h := by
    obtain ⟨_, rfl⟩ := run_require_ok.mp h
    exact Nat.le_refl _

theorem observe (view : State → α) (hf : ∀ a, Agree n (f a) (g a)) :
    Agree n (Grammar.observe view >>= f) (Grammar.observe view >>= g) where
  run_eq s hs := (hf (view s)).run_eq s hs
  length_le s b s' hs h := (hf (view s)).length_le s b s' hs h

theorem ite {condition : Prop} [Decidable condition] {x' y' : Rule α} (h : Agree n x y)
    (h' : Agree n x' y') :
    Agree n (if condition then x else x') (if condition then y else y') := by
  by_cases hc : condition
  · rw [if_pos hc, if_pos hc]
    exact h
  · rw [if_neg hc, if_neg hc]
    exact h'

/-- A change of the scopes and of the diagnostics leaves the tokens. -/
theorem modified {change : State → State} (h : ∀ s, (change s).rest = s.rest) :
    Agree n (modify change : Rule Unit) (modify change) where
  run_eq _ _ := rfl
  length_le s u s' _ hrun := by
    cases hrun
    exact Nat.le_of_eq (congrArg List.length (h s))

/-- What reads a token leaves no more tokens. -/
theorem of_eats (hx : Eats x) : Agree n x x where
  run_eq _ _ := rfl
  length_le s a s' _ h := Nat.le_of_lt (hx s a s' h)

end Agree

namespace AgreeAfter

variable {x y : Rule α} {f g : α → Rule β}

/-- Reading a token leaves fewer of them. -/
theorem agree (h : AgreeAfter n x y) : Agree (n + 1) x y :=
  ⟨fun s hs => h.run_eq s (Nat.le_of_lt_succ hs),
    fun s a s' hs hrun => Nat.le_of_lt (h.length_lt s a s' (Nat.le_of_lt_succ hs) hrun)⟩

/-- A rule that agrees with another one wherever it is used reads a token. -/
theorem eats (h : ∀ n, AgreeAfter n x y) : Eats y :=
  fun s a s' hrun => (h s.rest.length).length_lt s a s' (Nat.le_refl _) hrun

/-- Rules that start with a token agree if they do with a token less. -/
theorem bind (hx : Eats x) (hf : ∀ a, Agree n (f a) (g a)) :
    AgreeAfter n (x >>= f) (x >>= g) where
  run_eq s hs := by
    rw [EStateM.run_bind, EStateM.run_bind]
    cases hrun : x.run s with
    | ok a s₁ => exact (hf a).run_eq s₁ (Nat.lt_of_lt_of_le (hx s a s₁ hrun) hs)
    | error e s₁ => rfl
  length_lt s b s' hs hrun := by
    obtain ⟨a, s₁, hrun, hg⟩ := run_bind_ok.mp hrun
    have hlt := hx s a s₁ hrun
    exact Nat.lt_of_le_of_lt ((hf a).length_le s₁ b s' (Nat.lt_of_lt_of_le hlt hs) hg) hlt

theorem map (φ : α → β) (h : AgreeAfter n x y) : AgreeAfter n (φ <$> x) (φ <$> y) where
  run_eq s hs := by
    rw [← bind_pure_comp, ← bind_pure_comp, EStateM.run_bind, EStateM.run_bind, h.run_eq s hs]
  length_lt s b s' hs hrun := by
    obtain ⟨a, hrun, _⟩ := run_map_ok.mp hrun
    exact h.length_lt s a s' hs hrun

theorem reject (token : Token) (violation : Violation) :
    AgreeAfter n (Grammar.reject token violation : Rule α) (Grammar.reject token violation) where
  run_eq _ _ := rfl
  length_lt _ _ _ _ h := absurd h run_reject_ok

theorem observe (view : State → α) (hf : ∀ a, AgreeAfter n (f a) (g a)) :
    AgreeAfter n (Grammar.observe view >>= f) (Grammar.observe view >>= g) where
  run_eq s hs := (hf (view s)).run_eq s hs
  length_lt s b s' hs h := (hf (view s)).length_lt s b s' hs h

theorem ite {condition : Prop} [Decidable condition] {x' y' : Rule α} (h : AgreeAfter n x y)
    (h' : AgreeAfter n x' y') :
    AgreeAfter n (if condition then x else x') (if condition then y else y') := by
  by_cases hc : condition
  · rw [if_pos hc, if_pos hc]
    exact h
  · rw [if_neg hc, if_neg hc]
    exact h'

end AgreeAfter

/-! ## Tokens -/

/-- A step takes a token, or else it fails. -/
theorem eats_advance (kind : Option Kind) (text : Option String) (opens : Option ScopeKind) :
    Eats (advance kind text opens) := by
  intro s token s' h
  obtain ⟨rfl, hrefusal, scopes, _, rfl⟩ := run_advance_ok.mp h
  have hend := (Token.refusal?_eq_none_iff.mp hrefusal).2.2
  rw [State.rest_eq_cons hend]
  exact Nat.lt_succ_self _

theorem eats_discard {x : Rule α} (h : Eats x) : Eats (discard x) := by
  intro s u s' hrun
  obtain ⟨a, hrun⟩ := run_discard_ok.mp hrun
  exact h s a s' hrun

theorem eats_expect (kind : Kind) : Eats (expect kind) :=
  eats_advance _ _ _

theorem eats_skip (kind : Kind) : Eats (skip kind) :=
  eats_discard (eats_expect kind)

theorem eats_expectKeyword (text : String) : Eats (expectKeyword text) :=
  eats_advance _ _ _

theorem eats_skipKeyword (text : String) : Eats (skipKeyword text) :=
  eats_discard (eats_expectKeyword text)

theorem eats_openScope (kind : ScopeKind) : Eats (openScope kind) :=
  eats_discard (eats_advance _ _ _)

/-- A rule that starts with a token reads one. -/
theorem Eats.bind {x : Rule α} {f : α → Rule β} (hx : Eats x)
    (hf : ∀ a n, Agree n (f a) (f a)) : Eats (x >>= f) := by
  intro s b s' h
  obtain ⟨a, s₁, hrun, h⟩ := run_bind_ok.mp h
  have hle := (hf a _).length_le s₁ b s' (Nat.lt_succ_self _) h
  exact Nat.lt_of_le_of_lt hle (hx s a s₁ hrun)

/-- A rule reads a token if what comes after its start does. -/
theorem Eats.of_next {x : Rule α} {f : α → Rule β} (hx : ∀ n, Agree n x x)
    (hf : ∀ a, Eats (f a)) : Eats (x >>= f) := by
  intro s b s' h
  obtain ⟨a, s₁, hrun, h⟩ := run_bind_ok.mp h
  exact Nat.lt_of_lt_of_le (hf a s₁ b s' h) ((hx _).length_le s a s₁ (Nat.lt_succ_self _) hrun)

/-! ## Loops -/

section

variable {continues : State → Bool} {step step' : α → Rule α}

/-- Loops with one bound agree if their rounds do. -/
theorem Agree.iterate (h : ∀ a, Agree n (step a) (step' a)) (bound : Nat) (a : α) :
    Agree n (Grammar.iterate continues step bound a) (Grammar.iterate continues step' bound a) := by
  induction bound generalizing a with
  | zero => exact .pure a
  | succ bound ih => exact .observe _ fun _ => .ite ((h a).bind ih) (.pure a)

/-- Loops agree if their rounds do: where they start, both are bounded by the tokens left. -/
theorem Agree.whilst (h : ∀ a, Agree n (step a) (step' a)) (a : α) :
    Agree n (Grammar.whilst continues step a) (Grammar.whilst continues step' a) :=
  .observe _ fun bound => .iterate h bound a

/-- Lists agree if their items do. -/
theorem Agree.collect {item item' : Rule α} (h : Agree n item item') (items : List α) :
    Agree n (Grammar.collect continues item items) (Grammar.collect continues item' items) :=
  .whilst (fun _ => h.bind fun _ => .pure _) items

theorem Agree.unlessAt (stop : Kind) {items items' : Rule (List α)} (h : Agree n items items') :
    Agree n (Grammar.unlessAt stop items) (Grammar.unlessAt stop items') :=
  .observe _ fun _ => .ite (.pure []) h

theorem Agree.commaSeparated {item item' : Rule α} (h : Agree n item item') :
    Agree n (Grammar.commaSeparated item) (Grammar.commaSeparated item') :=
  h.bind fun first => .collect ((Agree.of_eats (eats_skip .comma)).bind fun _ => h) [first]

/-- Bounds above the number of tokens left come to the same. -/
theorem run_iterate_eq (hstep : ∀ a, Eats (step a)) {bound bound' : Nat} {a : α} {s : State}
    (h : s.rest.length < bound) (h' : s.rest.length < bound') :
    (iterate continues step bound a).run s = (iterate continues step bound' a).run s := by
  induction bound generalizing bound' a s with
  | zero => exact absurd h (Nat.not_lt_zero _)
  | succ bound ih =>
    cases bound' with
    | zero => exact absurd h' (Nat.not_lt_zero _)
    | succ bound' =>
      rw [iterate, iterate, run_observe_bind, run_observe_bind]
      split
      case isTrue =>
        rw [EStateM.run_bind, EStateM.run_bind]
        cases hrun : (step a).run s with
        | ok b s₁ =>
          have hlt := hstep a s b s₁ hrun
          exact ih (Nat.lt_of_lt_of_le hlt (Nat.le_of_lt_succ h))
            (Nat.lt_of_lt_of_le hlt (Nat.le_of_lt_succ h'))
        | error e s₁ => rfl
      case isFalse => rfl

/-- A loop whose rounds read a token goes on for as long as the state asks for it. -/
theorem whilst_eq (hstep : ∀ a, Eats (step a)) (a : α) : whilst continues step a = (do
    if ← observe continues then
      let b ← step a
      whilst continues step b
    else
      return a) := by
  refine rule_ext fun s => ?_
  rw [whilst, run_observe_bind, run_observe_bind, iterate, run_observe_bind]
  split
  case isTrue =>
    rw [EStateM.run_bind, EStateM.run_bind]
    cases hrun : (step a).run s with
    | ok b s₁ => exact run_iterate_eq hstep (hstep a s b s₁ hrun) (Nat.lt_succ_self _)
    | error e s₁ => rfl
  case isFalse => rfl

/-- A loop whose rounds read a token ends where the state asks for no other round. -/
theorem continues_eq_false (hstep : ∀ a, Eats (step a)) {a b : α} {s s' : State}
    (h : (whilst continues step a).run s = .ok b s') : continues s' = false := by
  induction hn : s.rest.length using Nat.strongRecOn generalizing a s with
  | ind n ih =>
    rw [whilst_eq hstep, run_observe_bind] at h
    split at h
    case isTrue =>
      obtain ⟨c, s₁, hrun, h⟩ := run_bind_ok.mp h
      exact ih _ (hn ▸ hstep a s c s₁ hrun) h rfl
    case isFalse hc =>
      obtain ⟨_, rfl⟩ := run_pure_ok.mp h
      exact Bool.eq_false_iff.mpr hc

/-- A list is an item and the list behind it, up to where no other item is asked for. -/
theorem collect_eq {item : Rule α} (hitem : Eats item) (items : List α) :
    collect continues item items = (do
      if ← observe continues then
        let a ← item
        collect continues item (items ++ [a])
      else
        return items) := by
  refine (whilst_eq (fun _ => hitem.bind fun _ _ => .pure _) items).trans ?_
  simp only [collect, bind_assoc, pure_bind]

end

end Tranquility.Grammar
