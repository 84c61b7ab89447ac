import Tranquility.Proofs.Scope.Distinct

/-!
# Links between scopes

Scopes are known by their places in the arena. Every scope but the global one comes after the scope
directly around it, so that the scopes around a scope stand in front of it, one after the other down
to the global scope. Opening a scope, closing one and declaring names keep this, and they touch no
record but those of the current scope and of the scopes around it.
-/

namespace Tranquility.Scopes

/-! ## Links -/

/-- Scopes are known by their places in the arena, and their links lead towards its front: a scope
comes after the one directly around it, and what is around that one is around it as well. Only the
global scope, at the very front, has none around it. -/
structure Linked (scopes : Scopes) : Prop where
  current_lt : scopes.current < scopes.arena.size
  parent?_eq_none_iff : ∀ (id : Nat) (scope : Scope), scopes.arena[id]? = some scope →
    (scope.parent? = none ↔ id = 0)
  parent_lt : ∀ (id : Nat) (scope : Scope), scopes.arena[id]? = some scope →
    ∀ parent ∈ scope.parent?, parent < id
  outer_eq : ∀ (id : Nat) (scope : Scope), scopes.arena[id]? = some scope →
    ∀ parent ∈ scope.parent?, scope.outer = scopes.chain parent

variable {scopes : Scopes}

/-- What is around a scope stands in its record. -/
theorem outer_of_getElem? {id : Nat} {scope : Scope} (h : scopes.arena[id]? = some scope) :
    scopes.outer id = scope.outer := by
  rw [outer, h]

namespace Linked

/-- Around a scope there is its parent and what is around that, or nothing at all. -/
theorem outer_cases (h : scopes.Linked) (id : Nat) :
    scopes.outer id = [] ∨ ∃ parent < id, scopes.outer id = scopes.chain parent := by
  cases hscope : scopes.arena[id]? with
  | none => exact .inl (by rw [outer, hscope])
  | some scope =>
    rw [outer_of_getElem? hscope]
    cases hparent : scope.parent? with
    | none => exact .inl (List.head?_eq_none_iff.mp hparent)
    | some parent =>
      exact .inr ⟨parent, h.parent_lt id scope hscope parent hparent,
        h.outer_eq id scope hscope parent hparent⟩

/-- Around the current scope there is the one that is current after it has been closed, and what is
around that. -/
theorem outer_current_eq (h : scopes.Linked) (houter : scopes.outer scopes.current ≠ []) :
    scopes.outer scopes.current = scopes.chain scopes.closed.current := by
  rcases h.outer_cases scopes.current with hnil | ⟨parent, _, hparent⟩
  · exact absurd hnil houter
  · have hcurrent : scopes.closed.current = parent := by
      rw [Scopes.closed, hparent]
      rfl
    rw [hcurrent, hparent]

/-- The places of a scope and of those around it go down to the front of the arena. -/
theorem chain_pairwise (h : scopes.Linked) (id : Nat) : (scopes.chain id).Pairwise (· > ·) := by
  induction id using Nat.strongRecOn with
  | ind id ih =>
    rcases h.outer_cases id with houter | ⟨parent, hlt, houter⟩
    · rw [chain, houter]
      exact List.pairwise_singleton _ id
    · rw [chain, houter]
      have hparent := ih parent hlt
      refine List.pairwise_cons.mpr ⟨fun other hother => ?_, hparent⟩
      rcases List.mem_cons.mp hother with rfl | hother
      · exact hlt
      · exact Nat.lt_trans ((List.pairwise_cons.mp hparent).1 other hother) hlt

/-- No scope is met twice on the way out. -/
theorem chain_nodup (h : scopes.Linked) (id : Nat) : (scopes.chain id).Nodup :=
  (h.chain_pairwise id).imp fun hlt => Nat.ne_of_gt hlt

/-- What is around a scope comes before it in the arena. -/
theorem lt_of_mem_outer (h : scopes.Linked) {id outer : Nat} (hmem : outer ∈ scopes.outer id) :
    outer < id :=
  (List.pairwise_cons.mp (h.chain_pairwise id)).1 outer hmem

/-- Linked scopes hold together. -/
theorem valid (h : scopes.Linked) : scopes.Valid where
  current_lt := h.current_lt
  outer_lt id outer hmem := by
    have hlt := h.lt_of_mem_outer hmem
    by_cases hid : id < scopes.arena.size
    · exact Nat.lt_trans hlt hid
    · rw [outer_of_size_le (Nat.le_of_not_lt hid)] at hmem
      exact absurd hmem List.not_mem_nil

/-- At first there is the global scope alone. -/
theorem initial : Linked initial := by
  have hrecord : ∀ (id : Nat) (scope : Scope), Scopes.initial.arena[id]? = some scope →
      id = 0 ∧ scope.parent? = none := by
    intro id scope hscope
    cases id with
    | zero =>
      obtain rfl := Option.some.inj hscope
      exact ⟨rfl, rfl⟩
    | succ id => simp [Scopes.initial] at hscope
  refine ⟨Nat.zero_lt_one, fun id scope hscope => ?_, fun id scope hscope parent hparent => ?_,
    fun id scope hscope parent hparent => ?_⟩
  all_goals obtain ⟨rfl, hnone⟩ := hrecord id scope hscope
  · exact iff_of_true hnone rfl
  · rw [hnone] at hparent
    cases hparent
  · rw [hnone] at hparent
    cases hparent

/-- A new scope is linked to the current one. -/
theorem opened (h : scopes.Linked) (kind : ScopeKind) : (scopes.opened kind).Linked := by
  have hchain : ∀ id < scopes.arena.size, (scopes.opened kind).chain id = scopes.chain id :=
    fun id hid => congrArg _ (outer_opened_of_lt hid kind)
  have hrecord : ∀ (id : Nat) (scope : Scope), (scopes.opened kind).arena[id]? = some scope →
      scopes.arena[id]? = some scope ∧ id < scopes.arena.size ∨ id = scopes.arena.size ∧
        scope = ⟨kind, scopes.chain scopes.current, [], [], false⟩ := by
    intro id scope hscope
    rcases Nat.lt_trichotomy id scopes.arena.size with hlt | rfl | hgt
    · rw [arena_opened_of_lt hlt] at hscope
      exact .inl ⟨hscope, hlt⟩
    · rw [arena_opened_size, Option.some.injEq] at hscope
      exact .inr ⟨rfl, hscope.symm⟩
    · rw [Array.getElem?_eq_none (by rw [size_opened]; omega)] at hscope
      cases hscope
  refine ⟨by simp, fun id scope hscope => ?_, fun id scope hscope parent hparent => ?_,
    fun id scope hscope parent hparent => ?_⟩
  all_goals rcases hrecord id scope hscope with ⟨hold, hid⟩ | ⟨rfl, rfl⟩
  · exact h.parent?_eq_none_iff id scope hold
  · have hpos : scopes.arena.size ≠ 0 := Nat.ne_of_gt (Nat.zero_lt_of_lt h.current_lt)
    simp [Scope.parent?, chain, hpos]
  · exact h.parent_lt id scope hold parent hparent
  · obtain rfl : scopes.current = parent := Option.some.inj hparent
    exact h.current_lt
  · rw [hchain parent (Nat.lt_trans (h.parent_lt id scope hold parent hparent) hid)]
    exact h.outer_eq id scope hold parent hparent
  · obtain rfl : scopes.current = parent := Option.some.inj hparent
    exact (hchain scopes.current h.current_lt).symm

/-- The links do not depend on which scope is current. -/
theorem closed (h : scopes.Linked) : scopes.closed.Linked where
  current_lt := h.valid.closed.current_lt
  parent?_eq_none_iff := h.parent?_eq_none_iff
  parent_lt := h.parent_lt
  outer_eq := h.outer_eq

/-- A declaration changes no link. -/
theorem modify (h : scopes.Linked) (change : Scope → Scope)
    (houter : ∀ scope, (change scope).outer = scope.outer) (id : Nat) :
    Scopes.Linked { scopes with arena := scopes.arena.modify id change } := by
  have hrecord : ∀ (other : Nat) (scope : Scope),
      (scopes.arena.modify id change)[other]? = some scope → ∃ before,
        scopes.arena[other]? = some before ∧ scope.outer = before.outer := by
    intro other scope hscope
    rw [Array.getElem?_modify] at hscope
    by_cases hid : id = other
    · rw [if_pos hid] at hscope
      obtain ⟨before, hbefore, rfl⟩ := Option.map_eq_some_iff.mp hscope
      exact ⟨before, hbefore, houter before⟩
    · rw [if_neg hid] at hscope
      exact ⟨scope, hscope, rfl⟩
  refine ⟨by simpa using h.current_lt, fun other scope hscope => ?_,
    fun other scope hscope parent hparent => ?_, fun other scope hscope parent hparent => ?_⟩
  all_goals obtain ⟨before, hbefore, heq⟩ := hrecord other scope hscope
  · rw [Scope.parent?, heq]
    exact h.parent?_eq_none_iff other before hbefore
  · rw [Scope.parent?, heq] at hparent
    exact h.parent_lt other before hbefore parent hparent
  · rw [Scope.parent?, heq] at hparent
    rw [heq, chain, outer_modify change houter]
    exact h.outer_eq other before hbefore parent hparent

end Linked

/-! ## Records that are kept -/

/-- From one point of a run to a later one every scope keeps its place in the arena, its kind and
what is around it. One that is neither current nor around the current one keeps its record as it is,
and stays so. -/
structure Keeps (before after : Scopes) : Prop where
  size_le : before.arena.size ≤ after.arena.size
  kind?_eq : ∀ id < before.arena.size, after.kind? id = before.kind? id
  outer_eq : ∀ id < before.arena.size, after.outer id = before.outer id
  record_eq : ∀ id < before.arena.size, id ∉ before.chain before.current →
    after.arena[id]? = before.arena[id]? ∧ id ∉ after.chain after.current

namespace Keeps

theorem refl (scopes : Scopes) : Keeps scopes scopes :=
  ⟨Nat.le_refl _, fun _ _ => rfl, fun _ _ => rfl, fun _ _ hid => ⟨rfl, hid⟩⟩

theorem trans {before middle after : Scopes} (h : Keeps before middle)
    (h' : Keeps middle after) : Keeps before after := by
  have hlt : ∀ {id}, id < before.arena.size → id < middle.arena.size :=
    fun hid => Nat.lt_of_lt_of_le hid h.size_le
  refine ⟨Nat.le_trans h.size_le h'.size_le, fun id hid => ?_, fun id hid => ?_,
    fun id hid hclosed => ?_⟩
  · rw [h'.kind?_eq id (hlt hid), h.kind?_eq id hid]
  · rw [h'.outer_eq id (hlt hid), h.outer_eq id hid]
  · obtain ⟨hrecord, hmiddle⟩ := h.record_eq id hid hclosed
    obtain ⟨hrecord', hafter⟩ := h'.record_eq id (hlt hid) hmiddle
    exact ⟨hrecord'.trans hrecord, hafter⟩

/-- A scope that is opened comes behind all others. -/
theorem opened (scopes : Scopes) (kind : ScopeKind) : Keeps scopes (scopes.opened kind) where
  size_le := by
    rw [size_opened]
    exact Nat.le_succ _
  kind?_eq id hid := by rw [kind?, arena_opened_of_lt hid, kind?]
  outer_eq id hid := outer_opened_of_lt hid kind
  record_eq id hid hclosed := by
    refine ⟨arena_opened_of_lt hid kind, ?_⟩
    rw [chain, current_opened, outer_opened_size, List.mem_cons, not_or]
    exact ⟨Nat.ne_of_lt hid, hclosed⟩

/-- The scope that is closed is around none that stays open. -/
theorem closed (h : scopes.Linked) (houter : scopes.outer scopes.current ≠ []) :
    Keeps scopes scopes.closed where
  size_le := Nat.le_refl _
  kind?_eq _ _ := rfl
  outer_eq _ _ := rfl
  record_eq id _ hclosed := by
    refine ⟨rfl, fun hmem => hclosed ?_⟩
    rw [chain, h.outer_current_eq houter]
    exact List.mem_cons_of_mem _ hmem

/-- Only the current scope and those around it are changed by a declaration. -/
theorem modify {id : Nat} (hid : id ∈ scopes.chain scopes.current) {change : Scope → Scope}
    (hkind : ∀ scope, (change scope).kind = scope.kind)
    (houter : ∀ scope, (change scope).outer = scope.outer) :
    Keeps scopes { scopes with arena := scopes.arena.modify id change } where
  size_le := Nat.le_of_eq Array.size_modify.symm
  kind?_eq other _ := by
    rw [kind?, kind?, Array.getElem?_modify]
    by_cases heq : id = other
    · rw [if_pos heq, Option.map_map]
      exact congrArg (Option.map · _) (funext hkind)
    · rw [if_neg heq]
  outer_eq other _ := outer_modify change houter id other
  record_eq other _ hclosed := by
    have hne : id ≠ other := fun heq => hclosed (heq ▸ hid)
    refine ⟨?_, ?_⟩
    · rw [Array.getElem?_modify, if_neg hne]
    · rwa [chain, outer_modify change houter]

end Keeps

end Tranquility.Scopes
