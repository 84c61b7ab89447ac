import Tranquility.Proofs.Grammar.Step

/-!
# Accepting what is written

Where the tokens left start with the pieces of a tree, a rule reads these pieces and yields the
tree. The laws here say so of the steps that a rule is made of; a loop goes on as long as there are
items left to be read, and every item takes a token.
-/

namespace Tranquility.Grammar

variable {α β : Type} {s s' : State}

/-- The tokens left start with the pieces of a trace. -/
def Leads (s : State) (trace : Trace) : Prop :=
  Piece.Lead trace.pieces s.rest

/-- A rule reads a trace and yields a value. -/
def Accepts (rule : Rule α) (s : State) (a : α) (trace : Trace) : Prop :=
  rule.run s = .ok a (s.after trace)

/-- A trace comes first and another one behind it if the tokens left start with both, one after the
other. -/
theorem leads_append {first second : Trace} :
    Leads s (first ++ second) ↔ Leads s first ∧ Leads (s.after first) second :=
  Piece.lead_append

/-- The token to be read fits the first piece. -/
theorem Leads.fits {trace : Trace} (h : Leads s trace) {piece : Piece} {pieces : List Piece}
    (hpieces : trace.pieces = piece :: pieces) : piece.Fits s.current := by
  rw [Leads, hpieces] at h
  unfold State.current
  cases hrest : s.rest with
  | nil =>
    rw [hrest] at h
    exact h.elim
  | cons token rest =>
    rw [hrest] at h
    exact h.1

/-- The current token is of the kind of the first piece. -/
theorem Leads.sees {trace : Trace} (h : Leads s trace) {piece : Piece} {pieces : List Piece}
    (hpieces : trace.pieces = piece :: pieces) {kind : Kind} (hkind : piece.kind = kind) :
    s.sees kind = true := by
  rw [State.sees, (h.fits hpieces).kind, hkind, decide_eq_true rfl]

/-- A first piece of one kind is not seen as another kind. -/
theorem Leads.not_sees {trace : Trace} (h : Leads s trace) {piece : Piece} {pieces : List Piece}
    (hpieces : trace.pieces = piece :: pieces) {kind : Kind} (hkind : piece.kind ≠ kind) :
    ¬ s.sees kind = true := by
  rw [State.sees, (h.fits hpieces).kind, decide_eq_true_eq]
  exact hkind

/-- The current token is the keyword that the first piece calls for. -/
theorem Leads.seesKeyword {trace : Trace} (h : Leads s trace) {piece : Piece}
    {pieces : List Piece} (hpieces : trace.pieces = piece :: pieces) {text : String}
    (hword : piece.word = some text) : s.seesKeyword text = true := by
  have hfits := h.fits hpieces
  rw [State.seesKeyword, Token.isKeyword, hfits.kind, piece.kind_of_word text hword,
    hfits.word text hword]
  simp

/-- To read a piece takes a token. -/
theorem Leads.length_lt {trace : Trace} (h : Leads s trace) (hne : trace.pieces ≠ []) :
    (s.after trace).rest.length < s.rest.length := by
  have hle := Piece.Lead.length_le h
  have hpos := List.length_pos_of_ne_nil hne
  rw [State.after, List.length_drop]
  omega

/-! ## Sequences -/

theorem Accepts.bind {rule : Rule α} {next : α → Rule β} {a : α} {b : β} {first second : Trace}
    (h : Accepts rule s a first) (h' : Accepts (next a) (s.after first) b second) :
    Accepts (rule >>= next) s b (first ++ second) := by
  rw [Accepts, State.after_append]
  exact run_bind_ok.mpr ⟨a, _, h, h'⟩

/-- A value made from the last one takes no more tokens. -/
theorem Accepts.bind_pure {rule : Rule α} {a : α} {trace : Trace} (h : Accepts rule s a trace)
    (f : α → β) : Accepts (rule >>= fun a => pure (f a)) s (f a) trace :=
  run_bind_ok.mpr ⟨a, _, h, run_pure_ok.mpr ⟨rfl, rfl⟩⟩

theorem Accepts.discard {rule : Rule α} {a : α} {trace : Trace} (h : Accepts rule s a trace) :
    Accepts (discard rule) s () trace :=
  run_discard_ok.mpr ⟨a, h⟩

/-! ## Tokens -/

/-- A token that a piece calls for is read. -/
theorem accepts_advance {piece : Piece} (h : Leads s (.ofPiece piece))
    (hplain : piece.kind.isPlain = true) {expected : Option Kind} {text : Option String}
    {opens : Option ScopeKind} (hexpected : ∀ kind ∈ expected, piece.kind = kind)
    (htext : text = none ∨ text = piece.word) :
    Accepts (advance expected text opens) s s.current (.ofPiece piece) := by
  have hfits := h.fits rfl
  have hcurrent : s.current.kind.isPlain = true := hfits.kind ▸ hplain
  refine run_advance_ok.mpr ⟨rfl, Token.refusal?_eq_none_iff.mpr ⟨?_, ?_, ?_⟩,
    s.scopes, Scopes.pass_of_isPlain hcurrent _ _, ?_⟩
  · intro kind hkind
    rw [hfits.kind, hexpected kind hkind]
  · intro word hword
    rcases htext with rfl | rfl
    · cases hword
    · exact hfits.word word hword
  · exact (Kind.isPlain_iff.mp hcurrent).2.2.2.1
  · simp [State.read, State.after, Trace.ofPiece, Reporter.warnAll]

/-- A token of the kind asked for is read and kept. -/
theorem accepts_expect {kind : Kind} {token : Token} (hplain : kind.isPlain = true)
    (h : Leads s (.ofPiece (.keep kind token))) :
    Accepts (expect kind) s token (.ofPiece (.keep kind token)) := by
  have hkept : s.current = token := (h.fits rfl).kept token rfl
  have haccepts : Accepts (expect kind) s s.current (.ofPiece (.keep kind token)) :=
    accepts_advance h hplain (by simp [Piece.keep]) (.inl rfl)
  rwa [hkept] at haccepts

theorem accepts_skip {kind : Kind} (hmark : kind.isMark = true) (hplain : kind.isPlain = true)
    (h : Leads s (.ofPiece (.mark kind hmark))) :
    Accepts (skip kind) s () (.ofPiece (.mark kind hmark)) :=
  (accepts_advance h hplain (by simp [Piece.mark]) (.inl rfl)).discard

theorem accepts_expectKeyword {text : String} {token : Token}
    (h : Leads s (.ofPiece (.keepKeyword text token))) :
    Accepts (expectKeyword text) s token (.ofPiece (.keepKeyword text token)) := by
  have hkept : s.current = token := (h.fits rfl).kept token rfl
  have haccepts : Accepts (expectKeyword text) s s.current (.ofPiece (.keepKeyword text token)) :=
    accepts_advance h rfl (by simp [Piece.keepKeyword]) (.inr rfl)
  rwa [hkept] at haccepts

theorem accepts_skipKeyword {text : String} (h : Leads s (.ofPiece (.keyword text))) :
    Accepts (skipKeyword text) s () (.ofPiece (.keyword text)) :=
  (accepts_advance h rfl (by simp [Piece.keyword]) (.inr rfl)).discard

/-- Any token is read that moves between no scopes. -/
theorem accepts_take {token : Token} (hplain : token.kind.isPlain = true)
    (h : Leads s (.ofPiece (.keep token.kind token))) :
    Accepts take s token (.ofPiece (.keep token.kind token)) := by
  have hkept : s.current = token := (h.fits rfl).kept token rfl
  have haccepts : Accepts take s s.current (.ofPiece (.keep token.kind token)) :=
    accepts_advance h hplain (by simp) (.inl rfl)
  rwa [hkept] at haccepts

/-- A left brace is read, and its scope is opened. -/
theorem accepts_openScope {opened : ScopeKind} (hopens : opened.opens = true)
    (h : Leads s (.opened opened)) : Accepts (openScope opened) s () (.opened opened) := by
  have hkind : s.current.kind = .leftBrace := (h.fits rfl).kind
  have hpass : s.scopes.pass s.current (some opened) = .ok (s.scopes.opened opened) := by
    rw [Scopes.pass, hkind]
    exact Scopes.enter_some hopens s.scopes
  refine run_discard_ok.mpr ⟨s.current, run_advance_ok.mpr ⟨rfl,
    Token.refusal?_eq_none_iff.mpr ⟨?_, by simp, by simp [hkind]⟩, _, hpass, ?_⟩⟩
  · intro kind hexpected
    rw [hkind, Option.some.inj hexpected]
  · simp [State.read, State.after, Trace.opened, Reporter.warnAll]

/-- A scope with one around it is closed by a right brace. -/
theorem accepts_closeScope (houter : s.scopes.outer s.scopes.current ≠ [])
    (h : Leads s .closed) : Accepts (skip .rightBrace) s () .closed := by
  have hkind : s.current.kind = .rightBrace := (h.fits rfl).kind
  have hpass : s.scopes.pass s.current none = .ok s.scopes.closed := by
    rw [Scopes.pass, hkind]
    exact Scopes.leave_of_outer_ne_nil houter
  refine run_discard_ok.mpr ⟨s.current, run_advance_ok.mpr ⟨rfl,
    Token.refusal?_eq_none_iff.mpr ⟨?_, by simp, by simp [hkind]⟩, _, hpass, ?_⟩⟩
  · intro kind hexpected
    rw [hkind, Option.some.inj hexpected]
  · simp [State.read, State.after, Trace.closed, Reporter.warnAll]

/-! ## Loops -/

section

variable {continues : State → Bool} {step : α → Rule α}

/-- The rounds of a loop lead from one value and state to others, and there the loop ends. Every
round takes a token. -/
inductive Loops (continues : State → Bool) (step : α → Rule α) : α → State → α → State → Prop
  | done {a : α} {s : State} : continues s = false → Loops continues step a s a s
  | round {a b c : α} {s s₁ s' : State} : continues s = true → (step a).run s = .ok b s₁ →
      s₁.rest.length < s.rest.length → Loops continues step b s₁ c s' →
        Loops continues step a s c s'

/-- A loop runs through its rounds, since each of them takes a token and the bound counts tokens. -/
theorem run_whilst_of_loops {a b : α} (h : Loops continues step a s b s') :
    (whilst continues step a).run s = .ok b s' := by
  have hiterate : ∀ bound, s.rest.length < bound →
      (iterate continues step bound a).run s = .ok b s' := by
    induction h with
    | done hdone =>
      intro bound hbound
      obtain ⟨bound, rfl⟩ := Nat.exists_eq_succ_of_ne_zero (Nat.ne_of_gt (Nat.zero_lt_of_lt hbound))
      rw [iterate, run_observe_bind, hdone]
      rfl
    | round hcontinues hstep hlt _ ih =>
      intro bound hbound
      obtain ⟨bound, rfl⟩ := Nat.exists_eq_succ_of_ne_zero (Nat.ne_of_gt (Nat.zero_lt_of_lt hbound))
      rw [iterate, run_observe_bind, hcontinues]
      exact run_bind_ok.mpr ⟨_, _, hstep, ih bound (by omega)⟩
  rw [whilst, run_observe_bind]
  exact hiterate _ (Nat.lt_succ_self _)

/-- Items are collected one by one while some are left to be read: `good` relates those left to the
state, and none are left exactly where the loop ends. -/
theorem run_collect_of_good {item : Rule α} (good : List α → State → Prop)
    (hitem : ∀ a todo s, good (a :: todo) s → continues s = true ∧
      ∃ s₁, item.run s = .ok a s₁ ∧ s₁.rest.length < s.rest.length ∧ good todo s₁)
    (hend : ∀ s, good [] s → continues s = false) {items todo : List α} (h : good todo s) :
    ∃ s', (collect continues item items).run s = .ok (items ++ todo) s' ∧ good [] s' := by
  have hloops : ∃ s', Loops continues (fun items => return items ++ [← item]) items s
      (items ++ todo) s' ∧ good [] s' := by
    induction todo generalizing items s with
    | nil =>
      rw [List.append_nil]
      exact ⟨s, .done (hend s h), h⟩
    | cons a todo ih =>
      obtain ⟨hcontinues, s₁, hrun, hlt, hgood⟩ := hitem a todo s h
      obtain ⟨s', hloops, hgood'⟩ := @ih s₁ (items ++ [a]) hgood
      rw [List.append_assoc] at hloops
      exact ⟨s', .round hcontinues (run_bind_ok.mpr ⟨a, s₁, hrun, rfl⟩) hlt hloops, hgood'⟩
  obtain ⟨s', hloops, hgood⟩ := hloops
  exact ⟨s', run_whilst_of_loops hloops, hgood⟩

end

/-! ## Items with commas between them -/

/-- Items are left to be read, each after a comma, in the scopes of one state and up to another. -/
structure Pending (trace : α → Trace) (items : List α) (start final : State) (todo : List α)
    (s : State) : Prop where
  mem : ∀ a ∈ todo, a ∈ items
  scopes : s.scopes = start.scopes
  length_le : s.rest.length ≤ start.rest.length
  leads : Leads s (.following (todo.map trace))
  after : s.after (.following (todo.map trace)) = final

namespace Pending

variable {trace : α → Trace} {items todo : List α} {start final : State}

/-- Without items left the end has come. -/
theorem eq_final (h : Pending trace items start final [] s) : s = final :=
  h.after

/-- What follows an item is another comma, or what follows all items. -/
theorem follows {follow : State → Prop} (hcomma : ∀ s, s.sees .comma = true → follow s)
    (hfinal : follow final) (h : Pending trace items start final todo s) : follow s := by
  cases todo with
  | nil =>
    rw [h.eq_final]
    exact hfinal
  | cons a todo => exact hcomma s (h.leads.sees rfl rfl)

/-- The first of the items left stands after a comma, and the others are left after it. -/
theorem step (hsettle : ∀ a, (trace a).settle = id) {a : α}
    (h : Pending trace items start final (a :: todo) s) :
    Leads s (.ofPiece (.mark .comma)) ∧ Leads (s.after (.ofPiece (.mark .comma))) (trace a) ∧
      (s.after (.ofPiece (.mark .comma) ++ trace a)).rest.length < s.rest.length ∧
        Pending trace items start final todo (s.after (.ofPiece (.mark .comma) ++ trace a)) := by
  obtain ⟨hmem, hscopes, hlength, hleads, hafter⟩ := h
  rw [List.map_cons, Trace.following_cons (hsettle a)] at hleads hafter
  obtain ⟨hleads, hrest⟩ := leads_append.mp hleads
  obtain ⟨hskip, hitem⟩ := leads_append.mp hleads
  have hlt := hleads.length_lt (by simp [Trace.ofPiece])
  refine ⟨hskip, hitem, hlt, fun b hb => hmem b (List.mem_cons_of_mem a hb), ?_, by omega,
    hrest, ?_⟩
  · rw [State.after_append]
    exact (congrFun (hsettle a) _).trans hscopes
  · rw [← State.after_append, hafter]

end Pending

/-- Items with commas between them are read if each of them is read where another comma follows it,
or what follows the last. -/
theorem accepts_commaSeparated {item : Rule α} (trace : α → Trace) (follow : State → Prop)
    (hsettle : ∀ a, (trace a).settle = id) (hcomma : ∀ s, s.sees .comma = true → follow s)
    {items : List α} (hne : items ≠ [])
    (hitem : ∀ a ∈ items, ∀ s₁, s₁.scopes = s.scopes → s₁.rest.length ≤ s.rest.length →
      Leads s₁ (trace a) → follow (s₁.after (trace a)) → Accepts item s₁ a (trace a))
    (h : Leads s (.separated (items.map trace)))
    (hfollow : follow (s.after (.separated (items.map trace))))
    (hstop : (s.after (.separated (items.map trace))).sees .comma = false) :
    Accepts (commaSeparated item) s items (.separated (items.map trace)) := by
  obtain ⟨first, todo, rfl⟩ := List.exists_cons_of_ne_nil hne
  rw [List.map_cons, Trace.separated_cons (hsettle first)] at h hfollow hstop ⊢
  obtain ⟨hfirst, htodo⟩ := leads_append.mp h
  generalize hfinal : s.after (trace first ++ .following (todo.map trace)) = final at hfollow hstop
  have hround : ∀ a rest s₁, Pending trace (first :: todo) s final (a :: rest) s₁ →
      s₁.sees .comma = true ∧ ∃ s₂, (do skip .comma; item : Rule α).run s₁ = .ok a s₂ ∧
        s₂.rest.length < s₁.rest.length ∧ Pending trace (first :: todo) s final rest s₂ := by
    intro a rest s₁ h
    obtain ⟨hskip, hleads, hlt, hpending⟩ := h.step hsettle
    have hlt' := hskip.length_lt (by simp [Trace.ofPiece])
    have hlength := h.length_le
    have hscopes : (s₁.after (.ofPiece (.mark .comma))).scopes = s.scopes := h.scopes
    have hfollows := hpending.follows hcomma hfollow
    rw [State.after_append] at hfollows
    have haccepts := hitem a (h.mem a List.mem_cons_self) _ hscopes (by omega) hleads hfollows
    exact ⟨hskip.sees rfl rfl, _, (accepts_skip rfl rfl hskip).bind haccepts, hlt, hpending⟩
  have hend : ∀ s₁, Pending trace (first :: todo) s final [] s₁ → s₁.sees .comma = false := by
    intro s₁ hpending
    rw [hpending.eq_final]
    exact hstop
  have hpending : Pending trace (first :: todo) s final todo (s.after (trace first)) := by
    refine ⟨fun a => List.mem_cons_of_mem first, ?_, s.length_after_le _, htodo, ?_⟩
    · exact congrFun (hsettle first) s.scopes
    · rw [← State.after_append, hfinal]
  obtain ⟨s', hrun, hpending'⟩ := run_collect_of_good _ hround hend hpending
  have hhead := hitem first List.mem_cons_self s rfl (Nat.le_refl _) hfirst
    (hpending.follows hcomma hfollow)
  rw [Accepts, hfinal, ← hpending'.eq_final]
  exact run_bind_ok.mpr ⟨first, _, hhead, hrun⟩

end Tranquility.Grammar
