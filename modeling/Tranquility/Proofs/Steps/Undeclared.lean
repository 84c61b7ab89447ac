import Tranquility.Proofs.Parallel.Expression
import Tranquility.Proofs.Steps.Lookahead

/-!
# What statements leave of the scopes

Only the rules for variables and functions declare names. An expression leaves the scopes as they
are. A statement opens scopes, which stay empty, and may mark the loop in whose body it stands; the
records that there were are kept. All this holds from whatever state and whether the run fails or
not, so nothing is asked of the scopes at the start.
-/

namespace Tranquility

namespace Scopes

/-- Nothing has been declared between the scopes before and after: each record is kept but for an
`until` statement in the current scope if that is a loop, and the records that have been added hold
no names. -/
structure Undeclared (before after : Scopes) : Prop where
  kept : ∀ (id : Nat) (scope : Scope), before.arena[id]? = some scope →
    after.arena[id]? = some scope ∨
      id = before.current ∧ scope.kind = .loop ∧ after.arena[id]? = some scope.markUntil
  added : ∀ (id : Nat) (scope : Scope), before.arena[id]? = none →
    after.arena[id]? = some scope → scope.functions = [] ∧ scope.vars = []

namespace Undeclared

variable {before middle after : Scopes} {kind : ScopeKind}

theorem refl (scopes : Scopes) : Undeclared scopes scopes where
  kept _ _ h := .inl h
  added id scope hnone hsome := by
    rw [hnone] at hsome
    cases hsome

/-- A mark leaves a record its names. -/
theorem names_eq (h : Undeclared before after) {id : Nat} {scope new : Scope}
    (hscope : before.arena[id]? = some scope) (hnew : after.arena[id]? = some new) :
    new.functions = scope.functions ∧ new.vars = scope.vars := by
  rcases h.kept id scope hscope with hafter | ⟨_, _, hafter⟩
  · obtain rfl := Option.some.inj (hafter.symm.trans hnew)
    exact ⟨rfl, rfl⟩
  · obtain rfl := Option.some.inj (hafter.symm.trans hnew)
    exact ⟨rfl, rfl⟩

/-- The marks before and after the middle are on one scope if the same one is current. -/
theorem trans (hcurrent : middle.current = before.current) (h : Undeclared before middle)
    (h' : Undeclared middle after) : Undeclared before after where
  kept id scope hscope := by
    rcases h.kept id scope hscope with hmiddle | ⟨hid, hloop, hmiddle⟩
    · rw [← hcurrent]
      exact h'.kept id scope hmiddle
    · rcases h'.kept id _ hmiddle with hafter | ⟨_, _, hafter⟩
      · exact .inr ⟨hid, hloop, hafter⟩
      · exact .inr ⟨hid, hloop, hafter⟩
  added id scope hnone hscope := by
    cases hmiddle : middle.arena[id]? with
    | none => exact h'.added id scope hmiddle hscope
    | some new =>
      obtain ⟨hfunctions, hvars⟩ := h'.names_eq hmiddle hscope
      rw [hfunctions, hvars]
      exact h.added id new hnone hmiddle

/-- The mark on a loop declares nothing. -/
theorem markLoop (scopes : Scopes) : Undeclared scopes scopes.markLoop := by
  unfold Scopes.markLoop
  split
  case isFalse => exact .refl scopes
  case isTrue hloop =>
    have hget : ∀ id : Nat, scopes.markUntil.arena[id]? =
        if scopes.current = id then (scopes.arena[id]?).map Scope.markUntil
        else scopes.arena[id]? := fun id => Array.getElem?_modify
    refine ⟨fun id scope hscope => ?_, fun id scope hnone hscope => ?_⟩
    · rw [hget]
      split
      case isTrue hid =>
        rw [hid, Scopes.kind?, hscope] at hloop
        exact .inr ⟨hid.symm, Option.some.inj hloop, by rw [hscope]; rfl⟩
      case isFalse => exact .inl hscope
    · rw [hget, hnone] at hscope
      split at hscope
      · cases hscope
      · cases hscope

/-- A scope that is opened is empty, and a mark on it is on none of those that there were. -/
theorem block (h : Undeclared (before.opened kind) after) : Undeclared before after where
  kept id scope hscope := by
    have hlt : id < before.arena.size := (Array.getElem?_eq_some_iff.mp hscope).1
    rw [← arena_opened_of_lt hlt kind] at hscope
    rcases h.kept id scope hscope with hafter | ⟨hid, _⟩
    · exact .inl hafter
    · exact absurd hid (Nat.ne_of_lt hlt)
  added id scope hnone hscope := by
    rcases Nat.eq_or_lt_of_le (Array.getElem?_eq_none_iff.mp hnone) with rfl | hgt
    · exact h.names_eq (arena_opened_size kind before) hscope
    · refine h.added id scope (Array.getElem?_eq_none ?_) hscope
      rw [size_opened]
      exact hgt

/-- To close a scope declares nothing. -/
theorem closed (h : Undeclared before after) : Undeclared before after.closed :=
  ⟨h.kept, h.added⟩

/-- Around a scope that has been opened stands the one where it was. -/
theorem outer_block (h : Undeclared (before.opened kind) after) :
    after.outer before.arena.size = before.chain before.current := by
  rcases h.kept _ _ (arena_opened_size kind before) with hafter | ⟨_, _, hafter⟩
  · rw [outer, hafter]
  · rw [outer, hafter]
    rfl

end Undeclared

end Scopes

namespace Grammar

variable {α β : Type} {s s₁ : State} {known : Token → Prop}

/-- However the run ends, nothing has been declared; where it ends well, the same scope is current
as at the start. -/
def Undeclares (s : State) : EStateM.Result Error State α → Prop
  | .ok _ s' => s.scopes.Undeclared s'.scopes ∧ s'.scopes.current = s.scopes.current
  | .error _ s' => s.scopes.Undeclared s'.scopes

theorem Undeclares.ending {result : EStateM.Result Error State α} (h : Undeclares s result) :
    s.scopes.Undeclared (ending result).scopes := by
  cases result with
  | ok a s' => exact h.1
  | error e s' => exact h

/-- Where nothing has been declared and the same scope is current, the run goes on as from there. -/
theorem Undeclares.after {result : EStateM.Result Error State α}
    (h : s.scopes.Undeclared s₁.scopes) (hcurrent : s₁.scopes.current = s.scopes.current)
    (h' : Undeclares s₁ result) : Undeclares s result := by
  cases result with
  | ok a s' => exact ⟨h.trans hcurrent h'.1, h'.2.trans hcurrent⟩
  | error e s' => exact h.trans hcurrent h'

theorem Undeclares.bind {x : Rule α} {f : α → Rule β} (h : Undeclares s (x.run s))
    (hf : ∀ a s₁, Undeclares s₁ ((f a).run s₁)) : Undeclares s ((x >>= f).run s) := by
  rw [EStateM.run_bind]
  cases hrun : x.run s with
  | ok a s₁ =>
    rw [hrun] at h
    exact .after h.1 h.2 (hf a s₁)
  | error e s₁ =>
    rw [hrun] at h
    exact h

/-- What declares nothing inside braces declares nothing with them. -/
theorem Undeclares.block {kind : ScopeKind} (hopens : kind.opens = true) {x : Rule α}
    {f : α → Rule β} (hx : ∀ s₁, Undeclares s₁ (x.run s₁))
    (hf : ∀ a s₁, Undeclares s₁ ((f a).run s₁)) :
    Undeclares s ((do openScope kind; let a ← x; skip .rightBrace; f a).run s) := by
  rcases run_openScope hopens s with ⟨violation, hopen⟩ | ⟨_, hopen⟩
  · rw [EStateM.run_bind, hopen]
    exact .refl s.scopes
  have hinside := hx (s.read (s.scopes.opened kind))
  rw [EStateM.run_bind, hopen]
  simp only [EStateM.run_bind]
  cases hrun : x.run (s.read (s.scopes.opened kind)) with
  | error e s₂ =>
    rw [hrun] at hinside
    exact Scopes.Undeclared.block hinside
  | ok a s₂ =>
    rw [hrun] at hinside
    obtain ⟨hinside, hcurrent⟩ := hinside
    -- The scope of the block is current again, so the right brace leaves it for the one around.
    have houter : s₂.scopes.outer s₂.scopes.current = s.scopes.chain s.scopes.current := by
      rw [hcurrent]
      exact hinside.outer_block
    have hne : s₂.scopes.outer s₂.scopes.current ≠ [] := by
      rw [houter]
      exact List.cons_ne_nil _ _
    simp only
    rcases run_closeScope hne with ⟨violation, hclose⟩ | ⟨_, hclose⟩
    · rw [hclose]
      exact Scopes.Undeclared.block hinside
    · rw [hclose]
      refine .after hinside.block.closed ?_ (hf a (s₂.read s₂.scopes.closed))
      show s₂.scopes.closed.current = _
      rw [Scopes.closed, houter]
      rfl

/-- What is made of steps without declarations declares nothing, whether it fails or not. -/
theorem Made.undeclares {rule : Rule α} (h : Made False known rule) (hknown : known s.current) :
    Undeclares s (rule.run s) := by
  induction h generalizing s with
  | pure a => exact ⟨.refl _, rfl⟩
  | bind _ _ ih ihNext => exact .bind (ih hknown) fun a s₁ => ihNext a trivial
  | current view _ ih => exact ih (view s.current) ⟨hknown, rfl⟩
  | following kind _ _ ih => exact ih (s.seesNext kind) hknown
  | scopes view _ ih => exact ih (view s.scopes) hknown
  | bounded _ _ ih => exact ih (s.rest.length + 1) hknown
  | throw => exact .refl s.scopes
  | @advance _ kind text opens plain =>
    rw [run_advance]
    split
    case h_1 => exact .refl s.scopes
    case h_2 => exact .refl s.scopes
    case h_3 hrefusal hpass =>
      rw [Scopes.pass_of_isPlain (plain _ hknown hrefusal), Except.ok.injEq] at hpass
      subst hpass
      exact ⟨.refl s.scopes, rfl⟩
  | warn => exact ⟨.refl s.scopes, rfl⟩
  | declareVariable allowed => exact allowed.elim
  | declareFunction allowed => exact allowed.elim
  | markLoop =>
    refine ⟨.markLoop s.scopes, ?_⟩
    show s.scopes.markLoop.current = _
    unfold Scopes.markLoop
    split
    · rfl
    · rfl
  | block opens _ _ ih ihNext =>
    exact .block opens (fun _ => ih trivial) fun a _ => ihNext a trivial

/-! ## Expressions -/

/-- A rule that runs beside itself whatever property of the scopes is carried along leaves the
scopes as they are. -/
theorem Parallel.scopes_eq {values : α → α → Prop} {rule : Rule α}
    (h : ∀ keeps, Parallel .same keeps values rule rule) (s : State) :
    (ending (rule.run s)).scopes = s.scopes := by
  obtain ⟨hok, herror⟩ := (h (· = s.scopes)).kept rfl
  cases hrun : rule.run s with
  | ok a s' => exact hok a s' hrun
  | error e s' => exact herror e s' hrun

namespace Nonterminal

/-- The rules for expressions, down to literals. -/
def isExpression : Nonterminal → Prop
  | expressions | expression _ | operand | literal => True
  | program | functions | function | variableLines | identifiers | body | statement | conditional
  | untilStatement | loop | resultStatement => False

/-- The rules for expressions leave the scopes alone, whether they fail or not. -/
theorem scopes_eq_of_isExpression {part : Nonterminal} (h : part.isExpression) (s : State) :
    (ending (part.rule.run s)).scopes = s.scopes := by
  cases part with
  | expressions => exact Parallel.scopes_eq (fun _ => commaSeparated_parallel expression_parallel) s
  | expression level =>
    exact Parallel.scopes_eq (fun _ => climb_parallel operand_parallel level.andTighter) s
  | operand => exact Parallel.scopes_eq (fun _ => operand_parallel) s
  | literal => exact Parallel.scopes_eq (fun _ => literal_parallel) s
  | _ => exact h.elim

/-- Statements and expressions declare nothing, whether they are read or fail, and whatever the
state where they start: an expression leaves the scopes as they are, and after a statement each
record is kept, apart from the mark of a loop that was current, and every new one is empty. -/
theorem declares_nothing (part : Nonterminal) (s : State) :
    (part.isExpression → (ending (part.rule.run s)).scopes = s.scopes) ∧
      (¬ part.declares → s.scopes.Undeclared (ending (part.rule.run s)).scopes) := by
  refine ⟨fun h => scopes_eq_of_isExpression h s, fun h => ?_⟩
  have hmade : Made False Anything part.rule := eq_false h ▸ part.made
  exact (hmade.undeclares trivial).ending

/-- In the body of a loop, statements mark that loop and open another one, in which they fail at a
name that is not visible. Where they stop an expression fails too, and leaves both loops open. -/
theorem declares_nothing_nested_loop : ∃ tokens s error s',
    tokenize "until 1\nloop \x7b\nuntil lost\n\x7d\n" = .ok tokens ∧ s.rest = tokens ∧
      s.scopes = Scopes.initial.opened .loop ∧ ¬ body.declares ∧
        body.rule.run s = .error (.violation error) s' ∧ s.scopes.Undeclared s'.scopes ∧
          s.scopes.hasUntil 1 = false ∧ s'.scopes.hasUntil 1 = true ∧ s'.scopes.arena.size = 3 ∧
            operand.isExpression ∧ (ending (operand.rule.run s')).scopes = s'.scopes := by
  have htokens := tokenize_eq "until 1\nloop \x7b\nuntil lost\n\x7d\n"
  obtain ⟨s, hrest, hscopes, hrefused⟩ : ∃ s : State,
      s.rest = Token.significant (scan "until 1\nloop \x7b\nuntil lost\n\x7d\n").tokens ∧
        s.scopes = Scopes.initial.opened .loop ∧
          refuses (fun _ s' => decide (s'.scopes.hasUntil 1 = true ∧ s'.scopes.arena.size = 3))
            (body.rule.run s) = true :=
    ⟨⟨_, 0, .endOf [], Token.kind_endOf [], _, .empty⟩, rfl, rfl, by decide +kernel⟩
  obtain ⟨error, s', hrun, htest⟩ := exists_violation_of_refuses hrefused
  obtain ⟨hmarked, hsize⟩ := of_decide_eq_true htest
  have hbody := (declares_nothing body s).2 id
  rw [hrun] at hbody
  exact ⟨_, s, error, s', htokens, hrest, hscopes, id, hrun, hbody, by rw [hscopes]; decide,
    hmarked, hsize, trivial, (declares_nothing operand s').1 trivial⟩

end Nonterminal

end Grammar

end Tranquility
