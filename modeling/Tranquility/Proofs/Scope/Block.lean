import Tranquility.Proofs.Tree.Legal

/-!
# Scopes of blocks

A block opens a scope in the current one and closes it at its end. Whatever stands in the block, the
scope around it is current again afterwards, all scopes that there were keep their records, and
nothing new is visible. Only an `until` statement leaves a trace, in the scope that is current where
it stands and in no other.
-/

namespace Tranquility

/-- The record of a scope apart from its `until` statements. -/
def Scope.unmarked (scope : Scope) : Scope :=
  { scope with hasUntil := false }

namespace Scopes

/-- The current scope and all scopes around a scope are in the arena. -/
structure Valid (scopes : Scopes) : Prop where
  current_lt : scopes.current < scopes.arena.size
  outer_lt : ∀ id, ∀ outer ∈ scopes.outer id, outer < scopes.arena.size

/-- The scopes after a left brace has opened one of a kind. -/
def opened (kind : ScopeKind) (scopes : Scopes) : Scopes where
  arena := scopes.arena.push ⟨kind, scopes.chain scopes.current, [], [], false⟩
  current := scopes.arena.size

/-- The scopes after a right brace has closed the current one. -/
def closed (scopes : Scopes) : Scopes :=
  { scopes with current := (scopes.outer scopes.current).headD scopes.current }

/-- The names that may be used in the current scope. -/
def seen (scopes : Scopes) : Visible where
  hasVariable name := scopes.hasVariable name scopes.current
  arity? name := (scopes.findFunction? name scopes.current).map (·.arity)

/-- A scope of a kind that opens is opened. -/
theorem enter_some {kind : ScopeKind} (h : kind.opens = true) (scopes : Scopes) :
    scopes.enter (some kind) = .ok (scopes.opened kind) := by
  rw [enter, Option.filter_some_pos h]
  rfl

/-- A scope is opened if it is of a kind that a left brace opens. -/
theorem enter_eq_ok_iff {kind : ScopeKind} {scopes after : Scopes} :
    scopes.enter (some kind) = .ok after ↔ kind.opens = true ∧ scopes.opened kind = after := by
  cases hopens : kind.opens with
  | true => simp [enter_some hopens]
  | false =>
    have hnone : (some kind).filter (·.opens) = none := Option.filter_some_neg hopens
    simp [enter, hnone]

/-- A scope is left if there is one around it, which then is the current one. -/
theorem leave_eq_ok_iff {scopes after : Scopes} :
    scopes.leave = .ok after ↔ scopes.outer scopes.current ≠ [] ∧ scopes.closed = after := by
  unfold leave closed
  split
  case h_1 outer rest h => simp [h]
  case h_2 h => simp [h]

/-- Only the global scope cannot be left. -/
theorem leave_of_outer_ne_nil {scopes : Scopes} (h : scopes.outer scopes.current ≠ []) :
    scopes.leave = .ok scopes.closed :=
  leave_eq_ok_iff.mpr ⟨h, rfl⟩

/-! ## Opening a scope -/

@[simp] theorem current_opened (kind : ScopeKind) (scopes : Scopes) :
    (scopes.opened kind).current = scopes.arena.size := rfl

@[simp] theorem size_opened (kind : ScopeKind) (scopes : Scopes) :
    (scopes.opened kind).arena.size = scopes.arena.size + 1 := by
  simp [opened]

/-- The scopes that there were stay as they were. -/
theorem arena_opened_of_lt {scopes : Scopes} {id : Nat} (h : id < scopes.arena.size)
    (kind : ScopeKind) : (scopes.opened kind).arena[id]? = scopes.arena[id]? := by
  simp [opened, Array.getElem?_push, Nat.ne_of_lt h]

/-- The new scope comes after all others. -/
theorem arena_opened_size (kind : ScopeKind) (scopes : Scopes) :
    (scopes.opened kind).arena[scopes.arena.size]? =
      some ⟨kind, scopes.chain scopes.current, [], [], false⟩ := by
  simp [opened]

/-- The chain of the scope where a block stands is around the block. -/
theorem outer_opened_size (kind : ScopeKind) (scopes : Scopes) :
    (scopes.opened kind).outer scopes.arena.size = scopes.chain scopes.current := by
  rw [outer, arena_opened_size]

/-- What is around a scope stays when another one is opened. -/
theorem outer_opened_of_lt {scopes : Scopes} {id : Nat} (h : id < scopes.arena.size)
    (kind : ScopeKind) : (scopes.opened kind).outer id = scopes.outer id := by
  simp only [outer, arena_opened_of_lt h]

/-- A scope that is not in the arena has nothing around it. -/
theorem outer_of_size_le {scopes : Scopes} {id : Nat} (h : scopes.arena.size ≤ id) :
    scopes.outer id = [] := by
  simp [outer, Array.getElem?_eq_none h]

/-- The current scope and those around it are in the arena. -/
theorem Valid.chain_lt {scopes : Scopes} (h : scopes.Valid) :
    ∀ id ∈ scopes.chain scopes.current, id < scopes.arena.size := by
  intro id hid
  rcases List.mem_cons.mp hid with rfl | hid
  · exact h.current_lt
  · exact h.outer_lt _ id hid

/-- The scope that is opened is in the arena, and so is what is around it. -/
theorem Valid.opened {scopes : Scopes} (h : scopes.Valid) (kind : ScopeKind) :
    (scopes.opened kind).Valid where
  current_lt := by simp
  outer_lt := by
    intro id outer hmem
    rw [size_opened]
    rcases Nat.lt_trichotomy id scopes.arena.size with hlt | rfl | hgt
    · rw [outer_opened_of_lt hlt] at hmem
      exact Nat.lt_succ_of_lt (h.outer_lt id outer hmem)
    · rw [outer_opened_size] at hmem
      exact Nat.lt_succ_of_lt (h.chain_lt outer hmem)
    · rw [outer_of_size_le (by rw [size_opened]; omega)] at hmem
      exact absurd hmem List.not_mem_nil

/-- A new scope sees what the scope around it sees. -/
theorem visible_opened {scopes : Scopes} (h : scopes.Valid) (kind : ScopeKind) :
    (scopes.opened kind).visible scopes.arena.size =
      ⟨kind, scopes.chain scopes.current, [], [], false⟩ :: scopes.visible scopes.current := by
  have hold : ∀ id ∈ scopes.chain scopes.current,
      (scopes.opened kind).arena[id]? = scopes.arena[id]? :=
    fun id hid => arena_opened_of_lt (h.chain_lt id hid) kind
  rw [visible, chain, outer_opened_size, List.filterMap_cons, arena_opened_size,
    List.filterMap_congr hold]
  rfl

/-- In a new scope a name means the function that it means around it. -/
theorem findFunction?_opened {scopes : Scopes} (h : scopes.Valid) (kind : ScopeKind)
    (name : String) : (scopes.opened kind).findFunction? name scopes.arena.size =
      scopes.findFunction? name scopes.current := by
  rw [findFunction?, visible_opened h, List.findSome?_cons]
  rfl

/-- A scope that is opened sees what is seen around it. -/
theorem seen_opened {scopes : Scopes} (h : scopes.Valid) (kind : ScopeKind) :
    (scopes.opened kind).seen = scopes.seen := by
  simp only [seen, current_opened, hasVariable, allVariables, visible_opened h,
    findFunction?_opened h, List.flatMap_cons, List.nil_append]

/-! ## Changing a record -/

/-- The scopes around a scope do not depend on what is declared. -/
theorem outer_modify {scopes : Scopes} (change : Scope → Scope)
    (hchange : ∀ scope, (change scope).outer = scope.outer) (id other : Nat) :
    Scopes.outer { scopes with arena := scopes.arena.modify id change } other =
      scopes.outer other := by
  simp only [outer, Array.getElem?_modify]
  by_cases hid : id = other
  · rw [if_pos hid]
    cases scopes.arena[other]? with
    | none => rfl
    | some scope => exact hchange scope
  · rw [if_neg hid]

/-- A change of a record keeps the scopes together if it keeps what is around the scope. -/
theorem Valid.modify {scopes : Scopes} (h : scopes.Valid) (change : Scope → Scope)
    (hchange : ∀ scope, (change scope).outer = scope.outer) (id : Nat) :
    Scopes.Valid { scopes with arena := scopes.arena.modify id change } where
  current_lt := by
    rw [Array.size_modify]
    exact h.current_lt
  outer_lt := by
    intro other outer hmem
    rw [outer_modify change hchange] at hmem
    rw [Array.size_modify]
    exact h.outer_lt other outer hmem

/-! ## What a statement leaves of the scopes -/

/-- The scopes before and after statements that have an `until` among them or not: the same scope is
current, the records of all scopes are kept, and a loop that is current has got its mark. -/
structure Passes (marks : Bool) (before after : Scopes) : Prop where
  valid : after.Valid
  current : after.current = before.current
  size_le : before.arena.size ≤ after.arena.size
  record : ∀ id < before.arena.size,
    (after.arena[id]?).map Scope.unmarked = (before.arena[id]?).map Scope.unmarked
  hasUntil_of_ne : ∀ id < before.arena.size, id ≠ before.current →
    after.hasUntil id = before.hasUntil id
  hasUntil_current : after.hasUntil before.current =
    (before.hasUntil before.current || (marks && before.kind? before.current = some .loop))

namespace Passes

variable {before middle after : Scopes} {marks marks' : Bool}

/-- Without a statement nothing changes. -/
theorem refl (h : before.Valid) : Passes false before before where
  valid := h
  current := rfl
  size_le := Nat.le_refl _
  record _ _ := rfl
  hasUntil_of_ne _ _ _ := rfl
  hasUntil_current := by simp

/-- Statements do not change what is around a scope. -/
theorem outer (h : Passes marks before after) {id : Nat} (hid : id < before.arena.size) :
    after.outer id = before.outer id := by
  have hr := h.record id hid
  unfold Scopes.outer
  cases ha : after.arena[id]? <;> cases hb : before.arena[id]? <;>
    simp_all [Scope.unmarked]

/-- Statements do not change the kind of a scope. -/
theorem kind? (h : Passes marks before after) {id : Nat} (hid : id < before.arena.size) :
    after.kind? id = before.kind? id := by
  have hr := h.record id hid
  unfold Scopes.kind?
  cases ha : after.arena[id]? <;> cases hb : before.arena[id]? <;>
    simp_all [Scope.unmarked]

/-- Statements follow each other. -/
theorem trans (hv : before.Valid) (h : Passes marks before middle)
    (h' : Passes marks' middle after) : Passes (marks || marks') before after where
  valid := h'.valid
  current := h'.current.trans h.current
  size_le := Nat.le_trans h.size_le h'.size_le
  record id hid := (h'.record id (Nat.lt_of_lt_of_le hid h.size_le)).trans (h.record id hid)
  hasUntil_of_ne id hid hne := by
    rw [h'.hasUntil_of_ne id (Nat.lt_of_lt_of_le hid h.size_le) (by rwa [h.current]),
      h.hasUntil_of_ne id hid hne]
  hasUntil_current := by
    have hsecond := h'.hasUntil_current
    rw [h.current, h.kind? hv.current_lt] at hsecond
    rw [hsecond, h.hasUntil_current]
    cases before.hasUntil before.current <;> cases marks <;> cases marks' <;> simp

/-- An `until` statement marks the loop that is current. -/
theorem markLoop (h : before.Valid) : Passes true before before.markLoop := by
  unfold Scopes.markLoop
  split
  case isTrue hloop =>
    have hget : ∀ id : Nat, before.markUntil.arena[id]? =
        if before.current = id then (before.arena[id]?).map Scope.markUntil
        else before.arena[id]? := fun id => Array.getElem?_modify
    have hrecord : ∀ id : Nat, (before.markUntil.arena[id]?).map Scope.unmarked =
        (before.arena[id]?).map Scope.unmarked := by
      intro id
      rw [hget]
      split
      · rw [Option.map_map]
        rfl
      · rfl
    have hsize : before.markUntil.arena.size = before.arena.size := Array.size_modify
    refine ⟨h.modify Scope.markUntil (fun _ => rfl) _, rfl, Nat.le_of_eq hsize.symm,
      fun id _ => hrecord id, fun id _ hne => ?_, ?_⟩
    · rw [Scopes.hasUntil, hget, if_neg (Ne.symm hne), Scopes.hasUntil]
    · rw [Scopes.hasUntil, hget, if_pos rfl]
      obtain ⟨scope, hs⟩ : ∃ scope, before.arena[before.current]? = some scope :=
        ⟨_, Array.getElem?_eq_getElem h.current_lt⟩
      simp [hloop, hs, Scope.markUntil]
  case isFalse hloop =>
    refine ⟨h, rfl, Nat.le_refl _, fun _ _ => rfl, fun _ _ _ => rfl, ?_⟩
    simp [hloop]

/-- The scope where a block stands is around the block to its end. -/
theorem outer_block {kind : ScopeKind} (h : Passes marks (before.opened kind) after) :
    after.outer after.current = before.chain before.current := by
  rw [h.current, current_opened, h.outer (by simp), outer_opened_size]

/-- A block can be left. -/
theorem outer_block_ne_nil {kind : ScopeKind} (h : Passes marks (before.opened kind) after) :
    after.outer after.current ≠ [] := by
  rw [h.outer_block]
  exact List.cons_ne_nil _ _

/-- After a block the scope where it stands is current again. -/
theorem current_closed {kind : ScopeKind} (h : Passes marks (before.opened kind) after) :
    after.closed.current = before.current := by
  rw [closed, h.outer_block]
  rfl

/-- A loop's body has its mark in the end if an `until` statement stands in the body itself. -/
theorem hasUntil_block (h : Passes marks (before.opened .loop) after) :
    after.hasUntil before.arena.size = marks := by
  have hnew := h.hasUntil_current
  simp only [current_opened, Scopes.hasUntil, Scopes.kind?, arena_opened_size] at hnew
  simpa [Scopes.hasUntil] using hnew

/-- A block leaves no mark outside. -/
theorem block {kind : ScopeKind} (hv : before.Valid)
    (h : Passes marks (before.opened kind) after) : Passes false before after.closed := by
  have hsize : before.arena.size < after.arena.size := by
    have := h.size_le
    rw [size_opened] at this
    omega
  have hlt : ∀ {id}, id < before.arena.size → id < (before.opened kind).arena.size := by
    intro id hid
    rw [size_opened]
    omega
  have hne : ∀ {id}, id < before.arena.size → id ≠ (before.opened kind).current := by
    intro id hid
    exact Nat.ne_of_lt hid
  have huntil : ∀ id < before.arena.size, after.closed.hasUntil id = before.hasUntil id := by
    intro id hid
    have hsame := h.hasUntil_of_ne id (hlt hid) (hne hid)
    rwa [Scopes.hasUntil, Scopes.hasUntil, arena_opened_of_lt hid] at hsame
  refine ⟨⟨?_, h.valid.outer_lt⟩, h.current_closed, Nat.le_of_lt hsize, fun id hid => ?_,
    fun id hid _ => huntil id hid, ?_⟩
  · rw [h.current_closed]
    exact Nat.lt_trans hv.current_lt hsize
  · have hrecord := h.record id (hlt hid)
    rwa [arena_opened_of_lt hid] at hrecord
  · rw [huntil _ hv.current_lt]
    simp

/-- The records visible from a scope are kept. -/
theorem visible (hv : before.Valid) (h : Passes marks before after) :
    (after.visible before.current).map Scope.unmarked =
      (before.visible before.current).map Scope.unmarked := by
  rw [Scopes.visible, Scopes.visible, Scopes.chain, Scopes.chain, h.outer hv.current_lt,
    List.map_filterMap, List.map_filterMap]
  exact List.filterMap_congr fun id hid => h.record id (hv.chain_lt id hid)

/-- Statements leave the functions that names mean. -/
theorem findFunction? (hv : before.Valid) (h : Passes marks before after) (name : String) :
    after.findFunction? name before.current = before.findFunction? name before.current := by
  have hfind := congrArg (List.findSome? (·.findFunction? name)) (h.visible hv)
  rwa [List.findSome?_map, List.findSome?_map] at hfind

/-- Statements declare nothing. -/
theorem seen (hv : before.Valid) (h : Passes marks before after) : after.seen = before.seen := by
  have hvars : after.allVariables before.current = before.allVariables before.current := by
    have hflat := congrArg (List.flatMap (·.vars)) (h.visible hv)
    rwa [List.flatMap_map, List.flatMap_map] at hflat
  simp only [Scopes.seen, hasVariable, h.findFunction? hv, h.current, hvars]

end Passes

end Scopes

end Tranquility
