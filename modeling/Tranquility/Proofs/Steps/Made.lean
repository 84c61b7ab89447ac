import Tranquility.Proofs.Bounds.Nesting

/-!
# Rules made of steps

A rule takes a few kinds of steps: it looks at the token in front of it, at the one after a name or
at the scopes, reads a token, declares a name, marks a loop, warns, or ends in an error. Braces are
read in pairs, with a rule between them. What holds of every step holds of every rule that is made
of them, by one induction on how the rule is made.

Some steps are taken only where the current token is of a kind that has been looked at. So a rule is
made of steps with regard to what is known of the token where it starts. Only some rules declare
names, and which do is said along with the steps.
-/

namespace Tranquility.Grammar

/-- Nothing is known of the current token. -/
abbrev Anything : Token → Prop :=
  fun _ => True

/-- The rule is made of steps, where the current token is one of those known. Declarations are among
the steps only if the rule `declares`. -/
inductive Made (declares : Prop) : {α : Type} → (Token → Prop) → Rule α → Prop where
  | pure {α : Type} {known : Token → Prop} (a : α) : Made declares known (pure a)
  /-- After a step nothing is known of the current token. -/
  | bind {α β : Type} {known : Token → Prop} {x : Rule α} {f : α → Rule β}
    (first : Made declares known x) (next : ∀ a, Made declares Anything (f a)) :
    Made declares known (x >>= f)
  /-- What is seen of the current token is known of it from then on. -/
  | current {α β : Type} {known : Token → Prop} (view : Token → α) {f : α → Rule β}
    (next : ∀ a, Made declares (fun token => known token ∧ view token = a) (f a)) :
    Made declares known (observe (fun s => view s.current) >>= f)
  /-- The token after the current one is looked at only if the current one is a name. -/
  | following {α : Type} {known : Token → Prop} (kind : Kind) {f : Bool → Rule α}
    (named : ∀ token, known token → token.kind = .identifier)
    (next : ∀ b, Made declares known (f b)) :
    Made declares known (observe (·.seesNext kind) >>= f)
  | scopes {α β : Type} {known : Token → Prop} (view : Scopes → α) {f : α → Rule β}
    (next : ∀ a, Made declares known (f a)) :
    Made declares known (observe (fun s => view s.scopes) >>= f)
  /-- A bound that comes from the number of tokens left is as good as any above that number. -/
  | bounded {α : Type} {known : Token → Prop} {within : Nat → Rule α}
    (each : ∀ bound, Made declares known (within bound))
    (same : ∀ (s : State) (bound bound' : Nat), s.rest.length < bound → s.rest.length < bound' →
      (within bound).run s = (within bound').run s) :
    Made declares known (observe (·.rest.length + 1) >>= within)
  | throw {α : Type} {known : Token → Prop} {e : Error} (noScope : ∀ error, e ≠ .scope error) :
    Made declares known (throw e : Rule α)
  /-- Alone no brace is read. -/
  | advance {known : Token → Prop} {kind : Option Kind} {text : Option String}
    {opens : Option ScopeKind} (plain : ∀ token, known token → token.refusal? kind text = none →
      token.kind.isPlain = true) : Made declares known (advance kind text opens)
  | warn {known : Token → Prop} (token : Token) (message : String) :
    Made declares known (warn token message)
  | declareVariable {known : Token → Prop} (allowed : declares) (token : Token) (type : Ty) :
    Made declares known (declareVariable token type)
  | declareFunction {known : Token → Prop} (allowed : declares) (symbol : FunctionSymbol)
    (id : Nat) : Made declares known (declareFunction symbol id)
  | markLoop {known : Token → Prop} : Made declares known markLoop
  /-- The right brace closes the scope that the left one has opened. -/
  | block {α β : Type} {known : Token → Prop} {kind : ScopeKind} {x : Rule α} {f : α → Rule β}
    (opens : kind.opens = true) (inside : Made declares Anything x)
    (next : ∀ a, Made declares Anything (f a)) :
    Made declares known (do openScope kind; let a ← x; skip .rightBrace; f a)

namespace Made

variable {declares : Prop} {α β : Type} {known : Token → Prop} {kind : Kind}

/-- What is made of steps with less knowledge is made of steps with more. -/
theorem mono {rule : Rule α} (h : Made declares known rule) {more : Token → Prop}
    (hmore : ∀ token, more token → known token) : Made declares more rule := by
  induction h generalizing more with
  | pure a => exact .pure a
  | bind _ next ih => exact .bind (ih hmore) next
  | current view _ ih =>
    exact .current view fun a => ih a fun token h => ⟨hmore token h.1, h.2⟩
  | following kind named _ ih =>
    exact .following kind (fun token h => named token (hmore token h)) fun b => ih b hmore
  | scopes view _ ih => exact .scopes view fun a => ih a hmore
  | bounded _ same ih => exact .bounded (fun bound => ih bound hmore) same
  | throw noScope => exact .throw noScope
  | advance plain => exact .advance fun token h => plain token (hmore token h)
  | warn token message => exact .warn token message
  | declareVariable allowed token type => exact .declareVariable allowed token type
  | declareFunction allowed symbol id => exact .declareFunction allowed symbol id
  | markLoop => exact .markLoop
  | block opens inside next => exact .block opens inside next

/-- What is made of steps with nothing known is so with something known. -/
theorem anywhere {rule : Rule α} (h : Made declares Anything rule) : Made declares known rule :=
  h.mono fun _ _ => trivial

theorem map {x : Rule α} (f : α → β) (h : Made declares known x) :
    Made declares known (f <$> x) := by
  rw [← bind_pure_comp]
  exact h.bind fun a => .pure (f a)

theorem discard {x : Rule α} (h : Made declares known x) : Made declares known (discard x) :=
  h.map _

theorem ite {condition : Prop} [Decidable condition] {x y : Rule α} (hx : Made declares known x)
    (hy : Made declares known y) : Made declares known (if condition then x else y) := by
  split
  · exact hx
  · exact hy

theorem reject (token : Token) (violation : Violation) :
    Made declares known (Grammar.reject token violation : Rule α) :=
  .throw fun _ h => nomatch h

theorem require (condition : Bool) (token : Token) (violation : Violation) :
    Made declares known (Grammar.require condition token violation) :=
  .ite (.pure ()) (.reject token violation)

/-! ## Tokens -/

theorem expect (hplain : kind.isPlain = true) : Made declares known (expect kind) := by
  refine .advance fun token _ hrefusal => ?_
  rw [(Token.refusal?_eq_none_iff.mp hrefusal).1 kind rfl]
  exact hplain

theorem skip (hplain : kind.isPlain = true) : Made declares known (skip kind) :=
  (Made.expect hplain).discard

theorem expectKeyword (text : String) : Made declares known (expectKeyword text) := by
  refine .advance fun token _ hrefusal => ?_
  rw [(Token.refusal?_eq_none_iff.mp hrefusal).1 .keyword rfl]
  rfl

theorem skipKeyword (text : String) : Made declares known (skipKeyword text) :=
  (Made.expectKeyword text).discard

/-- To look for a kind is to look at the current token. -/
theorem sees (kind : Kind) {f : Bool → Rule α} (next : ∀ b, Made declares Anything (f b)) :
    Made declares known (observe (·.sees kind) >>= f) :=
  .current (fun token => decide (token.kind = kind)) fun b => (next b).anywhere

/-- To look for a keyword is to look at the current token. -/
theorem seesKeyword (text : String) {f : Bool → Rule α}
    (next : ∀ b, Made declares Anything (f b)) :
    Made declares known (observe (·.seesKeyword text) >>= f) :=
  .current (·.isKeyword text) fun b => (next b).anywhere

/-- Declarations are steps for a rule that may declare. -/
theorem declareVariables (allowed : declares) (tokens : List Token) :
    Made declares known (declareVariables tokens) := by
  induction tokens generalizing known with
  | nil => exact .pure ()
  | cons token tokens ih => exact (Made.declareVariable allowed token .any).bind fun _ => ih

/-! ## Loops -/

section

variable (test : Token → Bool) {step : α → Rule α}

/-- A loop is made of its rounds, each of which knows what has let it start. -/
theorem iterate (hstep : ∀ a, Made declares (fun token => test token = true) (step a))
    (bound : Nat) (a : α) :
    Made declares known (iterate (fun s => test s.current) step bound a) := by
  induction bound generalizing known a with
  | zero => exact .pure a
  | succ bound ih =>
    refine .current test fun continues => ?_
    cases continues with
    | false => exact .pure a
    | true => exact ((hstep a).mono fun token h => h.2).bind fun b => ih b

/-- A loop that looks at the current token is made of steps if its rounds are, and if each of them
reads a token. -/
theorem whilst (hstep : ∀ a, Made declares (fun token => test token = true) (step a))
    (heats : ∀ a, Eats (step a)) (a : α) :
    Made declares known (whilst (fun s => test s.current) step a) :=
  .bounded (fun bound => iterate test hstep bound a) fun _ _ _ h h' => run_iterate_eq heats h h'

/-- A list is made of its items, which take tokens, so that the bound suffices. -/
theorem collect {item : Rule α} (hitem : Made declares Anything item) (heats : Eats item)
    (items : List α) : Made declares known (collect (fun s => test s.current) item items) :=
  .whilst test (fun _ => hitem.anywhere.bind fun _ => .pure _)
    (fun _ => heats.bind fun _ _ => .pure _) items

end

variable {item : Rule α}

/-- A list that may be missing is made of a look at the current token and the list. -/
theorem unlessAt (stop : Kind) {items : Rule (List α)} (hitems : Made declares Anything items) :
    Made declares known (unlessAt stop items) :=
  .sees stop fun _ => .ite (.pure []) hitems

/-- A list with commas is made of its items and the commas. -/
theorem commaSeparated (hitem : Made declares Anything item) (heats : Eats item) :
    Made declares known (commaSeparated item) := by
  have hnext : Eats (do Grammar.skip .comma; item) :=
    (eats_skip .comma).bind fun _ _ => .of_eats heats
  exact hitem.anywhere.bind fun first =>
    .collect (fun token => decide (token.kind = .comma))
      ((Made.skip rfl).bind fun _ => hitem) hnext [first]

end Made

end Tranquility.Grammar
