import Tranquility.Grammar.State
import Tranquility.Proofs.Scope.Stack

/-!
# Depth

The depth of the current scope is the number of links from it up to the global one. A left brace
adds a link, a right brace takes one away, and no other token changes the way up. A right brace is
refused where there is no link to take away, and a left one where no block can be opened.
-/

namespace Tranquility

/-- How much deeper the current scope is after the token has been read. -/
def Token.deepening (token : Token) : Int :=
  match token.kind with
  | .leftBrace => 1
  | .rightBrace => -1
  | _ => 0

namespace Scopes

variable {scopes after : Scopes} {token : Token} {opens : Option ScopeKind}

/-! ## The way up -/

/-- From a scope up to the global one, link by link, these scopes are met. -/
inductive Climbs (scopes : Scopes) : Nat → List Nat → Prop where
  | top {id : Nat} {scope : Scope} (record : scopes.arena[id]? = some scope)
    (alone : scope.parent? = none) : Climbs scopes id [id]
  | up {id parent : Nat} {scope : Scope} {path : List Nat}
    (record : scopes.arena[id]? = some scope) (link : scope.parent? = some parent)
    (further : Climbs scopes parent path) : Climbs scopes id (id :: path)

namespace Linked

/-- The way up from a scope leads through the scopes around it. -/
theorem climbs_chain (h : scopes.Linked) {id : Nat} (hid : id < scopes.arena.size) :
    scopes.Climbs id (scopes.chain id) := by
  induction id using Nat.strongRecOn with
  | ind id ih =>
    have hrecord : scopes.arena[id]? = some scopes.arena[id] := Array.getElem?_eq_getElem hid
    have houter := outer_of_getElem? hrecord
    cases hparent : scopes.arena[id].parent? with
    | none =>
      rw [chain, houter, List.head?_eq_none_iff.mp hparent]
      exact .top hrecord hparent
    | some parent =>
      have hlt := h.parent_lt id _ hrecord parent hparent
      rw [chain, houter, h.outer_eq id _ hrecord parent hparent]
      exact .up hrecord hparent (ih parent hlt (Nat.lt_trans hlt hid))

/-- Only around the global scope there is nothing. -/
theorem outer_current_eq_nil_iff (h : scopes.Linked) :
    scopes.outer scopes.current = [] ↔ scopes.current = 0 := by
  obtain ⟨scope, hscope⟩ : ∃ scope, scopes.arena[scopes.current]? = some scope :=
    ⟨_, Array.getElem?_eq_getElem h.current_lt⟩
  rw [outer_of_getElem? hscope, ← h.parent?_eq_none_iff scopes.current scope hscope]
  exact List.head?_eq_none_iff.symm

/-- The scope that is current after another has been closed is one link higher. -/
theorem depth_closed (h : scopes.Linked) (houter : scopes.outer scopes.current ≠ []) :
    scopes.closed.depth + 1 = scopes.depth := by
  rw [depth, depth, h.outer_current_eq houter]
  rfl

end Linked

/-- A scope that is opened is one link lower. -/
theorem depth_opened (kind : ScopeKind) : (scopes.opened kind).depth = scopes.depth + 1 := by
  rw [depth, current_opened, outer_opened_size]
  rfl

/-! ## Tokens -/

/-- The token is a brace that asks for a move between scopes that does not exist: out of the global
scope, or into a scope of another kind than those of blocks. -/
def Bars (scopes : Scopes) (token : Token) (opens : Option ScopeKind) : Prop :=
  (token.kind = .rightBrace ∧ scopes.current = 0) ∨
    (token.kind = .leftBrace ∧ ∀ block ∈ opens, block ∉ ScopeKind.blocks)

/-- A token that passes opens a scope of the kind given, closes the current scope, or changes
nothing. -/
theorem cases_of_pass (hpass : scopes.pass token opens = .ok after) :
    (token.kind = .leftBrace ∧ ∃ kind ∈ opens, kind.opens = true ∧ scopes.opened kind = after) ∨
    (token.kind = .rightBrace ∧ scopes.outer scopes.current ≠ [] ∧ scopes.closed = after) ∨
    (token.kind ≠ .leftBrace ∧ token.kind ≠ .rightBrace ∧ scopes = after) := by
  unfold pass at hpass
  split at hpass
  case h_1 hleft =>
    cases opens with
    | none => cases hpass
    | some kind => exact .inl ⟨hleft, kind, rfl, enter_eq_ok_iff.mp hpass⟩
  case h_2 hright => exact .inr (.inl ⟨hright, leave_eq_ok_iff.mp hpass⟩)
  case h_3 hleft hright => exact .inr (.inr ⟨hleft, hright, Except.ok.inj hpass⟩)

namespace Linked

/-- A brace does not pass exactly if it is barred. -/
theorem pass_eq_error_iff (h : scopes.Linked) :
    (∃ error, scopes.pass token opens = .error error) ↔ scopes.Bars token opens := by
  unfold Scopes.pass Bars
  split
  case h_1 hleft => simp [hleft, enter_eq_error_iff]
  case h_2 hright => simp [hright, leave_eq_error_iff, h.outer_current_eq_nil_iff]
  case h_3 hleft hright =>
    refine iff_of_false (fun ⟨error, herror⟩ => nomatch herror) ?_
    rintro (⟨hkind, _⟩ | ⟨hkind, _⟩)
    · exact hright hkind
    · exact hleft hkind

/-- A token that passes keeps the links. -/
theorem pass (h : scopes.Linked) (hpass : scopes.pass token opens = .ok after) :
    after.Linked := by
  obtain ⟨_, kind, _, _, rfl⟩ | ⟨_, _, rfl⟩ | ⟨_, _, rfl⟩ := cases_of_pass hpass
  · exact h.opened kind
  · exact h.closed
  · exact h

/-- The depth changes as the kind of the token says. -/
theorem depth_pass (h : scopes.Linked) (hpass : scopes.pass token opens = .ok after) :
    (after.depth : Int) = scopes.depth + token.deepening := by
  obtain ⟨hkind, kind, _, _, rfl⟩ | ⟨hkind, houter, rfl⟩ | ⟨hleft, hright, rfl⟩ :=
    cases_of_pass hpass
  · have hdeepening : token.deepening = 1 := by rw [Token.deepening, hkind]
    rw [hdeepening, depth_opened]
    rfl
  · have hdeepening : token.deepening = -1 := by rw [Token.deepening, hkind]
    have hdepth := h.depth_closed houter
    omega
  · have hdeepening : token.deepening = 0 := by
      unfold Token.deepening
      split
      · exact absurd ‹_› hleft
      · exact absurd ‹_› hright
      · rfl
    rw [hdeepening, Int.add_zero]

/-! ## Operations by hand -/

/-- Whatever the scopes, some stack shows what is seen in the current one. -/
theorem exists_mirrors (h : scopes.Linked) : ∃ stack, scopes.Mirrors stack := by
  obtain ⟨scope, hscope⟩ : ∃ scope, scopes.arena[scopes.current]? = some scope :=
    ⟨_, Array.getElem?_eq_getElem h.current_lt⟩
  refine ⟨⟨scope.frame,
    ((scopes.outer scopes.current).filterMap (scopes.arena[·]?)).map Scope.frame⟩, h, ?_⟩
  rw [visible, chain, List.filterMap_cons, hscope]
  rfl

/-- An operation keeps the links, whether it fails or not. -/
theorem step (h : scopes.Linked) (move : Move) : (scopes.step move).Linked := by
  obtain ⟨stack, hmirrors⟩ := h.exists_mirrors
  exact (hmirrors.step move).1.linked

end Linked

end Scopes

end Tranquility
