import Tranquility.Proofs.Scope.Declared

/-!
# Distinct names

A variable is declared where its name is not visible, so no scope sees two variables of one name. A
declaration would break this for the scopes inside the current one, since they see it too. There are
none where declarations stand: in front of the first function the global scope is alone, and the
scope of a function has only just been opened.
-/

namespace Tranquility.Scopes

variable {scopes : Scopes}

/-- No scope sees two variables of one name, be it closed or not. -/
def Distinct (scopes : Scopes) : Prop :=
  ∀ id, ((scopes.allVariables id).map (·.name)).Nodup

/-- The scopes hang together, and no scope sees two variables of one name. -/
structure Tidy (scopes : Scopes) : Prop where
  valid : scopes.Valid
  distinct : scopes.Distinct

/-- In addition no scope is inside the current one. -/
structure Innermost (scopes : Scopes) : Prop where
  tidy : scopes.Tidy
  not_mem_outer : ∀ id, scopes.current ∉ scopes.outer id

/-! ## Braces -/

/-- No scope has a number beyond the arena. -/
theorem allVariables_of_size_le {id : Nat} (h : scopes.arena.size ≤ id) :
    scopes.allVariables id = [] := by
  simp [allVariables, visible, chain, outer_of_size_le h, Array.getElem?_eq_none h]

/-- The new scope sees what the one around it sees, and for the others nothing is new. -/
theorem allVariables_opened (hv : scopes.Valid) (kind : ScopeKind) (id : Nat) :
    (scopes.opened kind).allVariables id =
      scopes.allVariables (if id = scopes.arena.size then scopes.current else id) := by
  by_cases hid : id = scopes.arena.size
  · rw [if_pos hid, hid, allVariables, visible_opened hv]
    rfl
  rw [if_neg hid]
  by_cases hlt : id < scopes.arena.size
  · have hchain : (scopes.opened kind).chain id = scopes.chain id :=
      congrArg _ (outer_opened_of_lt hlt kind)
    have hold : ∀ inner ∈ scopes.chain id,
        (scopes.opened kind).arena[inner]? = scopes.arena[inner]? := by
      intro inner hinner
      refine arena_opened_of_lt ?_ kind
      rcases List.mem_cons.mp hinner with rfl | hinner
      · exact hlt
      · exact hv.outer_lt id inner hinner
    rw [allVariables, allVariables, visible, visible, hchain, List.filterMap_congr hold]
  · have hsize : (scopes.opened kind).arena.size ≤ id := by
      rw [size_opened]
      omega
    rw [allVariables_of_size_le hsize, allVariables_of_size_le (Nat.le_of_not_lt hlt)]

/-- Where the current scope is closed, the one around it is in the arena. -/
theorem Valid.closed (hv : scopes.Valid) : scopes.closed.Valid where
  current_lt := by
    show (scopes.outer scopes.current).headD scopes.current < scopes.arena.size
    cases houter : scopes.outer scopes.current with
    | nil => exact hv.current_lt
    | cons outer rest => exact hv.outer_lt scopes.current outer (houter ▸ List.mem_cons_self)
  outer_lt := hv.outer_lt

/-- A scope that is opened sees the variables that are seen around it. -/
theorem Tidy.opened (h : scopes.Tidy) (kind : ScopeKind) : (scopes.opened kind).Tidy where
  valid := h.valid.opened kind
  distinct id := by
    rw [allVariables_opened h.valid]
    exact h.distinct _

/-- Closing a scope changes no record. -/
theorem Tidy.closed (h : scopes.Tidy) : scopes.closed.Tidy where
  valid := h.valid.closed
  distinct := h.distinct

/-- Nothing is inside a scope that has just been opened. -/
theorem Tidy.innermost_opened (h : scopes.Tidy) (kind : ScopeKind) :
    (scopes.opened kind).Innermost where
  tidy := h.opened kind
  not_mem_outer id hmem := by
    rw [current_opened] at hmem
    rcases Nat.lt_trichotomy id scopes.arena.size with hid | rfl | hid
    · rw [outer_opened_of_lt hid] at hmem
      exact Nat.lt_irrefl _ (h.valid.outer_lt id _ hmem)
    · rw [outer_opened_size] at hmem
      exact Nat.lt_irrefl _ (h.valid.chain_lt _ hmem)
    · rw [outer_of_size_le (by rw [size_opened]; omega)] at hmem
      exact List.not_mem_nil hmem

/-! ## Records -/

/-- A change of a record that leaves its variables alone is not seen by those who see variables. -/
theorem allVariables_modify {change : Scope → Scope}
    (houter : ∀ scope, (change scope).outer = scope.outer)
    (hvars : ∀ scope, (change scope).vars = scope.vars) (id other : Nat) :
    Scopes.allVariables { scopes with arena := scopes.arena.modify id change } other =
      scopes.allVariables other := by
  have hvisible : ∀ ids : List Nat,
      (ids.filterMap ((scopes.arena.modify id change)[·]?)).flatMap (·.vars) =
        (ids.filterMap (scopes.arena[·]?)).flatMap (·.vars) := by
    intro ids
    induction ids with
    | nil => rfl
    | cons inner ids ih =>
      rw [List.filterMap_cons, List.filterMap_cons, Array.getElem?_modify]
      cases scopes.arena[inner]? with
      | none => simpa using ih
      | some scope =>
        by_cases hid : id = inner
        · simp [hid, hvars, ← ih]
        · simp [hid, ← ih]
  rw [allVariables, allVariables, visible, visible, chain, chain, outer_modify change houter]
  exact hvisible _

/-- A change that keeps variables and links keeps the names distinct. -/
theorem Tidy.modify (h : scopes.Tidy) (change : Scope → Scope)
    (houter : ∀ scope, (change scope).outer = scope.outer)
    (hvars : ∀ scope, (change scope).vars = scope.vars) (id : Nat) :
    Scopes.Tidy { scopes with arena := scopes.arena.modify id change } where
  valid := h.valid.modify change houter id
  distinct other := by
    rw [allVariables_modify houter hvars]
    exact h.distinct other

/-- A mark on a loop keeps the names distinct. -/
theorem Tidy.markLoop (h : scopes.Tidy) : scopes.markLoop.Tidy := by
  unfold Scopes.markLoop
  split
  case isTrue => exact h.modify Scope.markUntil (fun _ => rfl) (fun _ => rfl) _
  case isFalse => exact h

/-- A function that is declared changes no variable. -/
theorem Innermost.declareFunction (h : scopes.Innermost) (symbol : FunctionSymbol) (id : Nat) :
    (scopes.declareFunction symbol id).Innermost where
  tidy := h.tidy.modify (Scope.addFunction symbol) (fun _ => rfl) (fun _ => rfl) id
  not_mem_outer other := by
    rw [Scopes.declareFunction, outer_modify (Scope.addFunction symbol) (fun _ => rfl)]
    exact h.not_mem_outer other

/-- Only the current scope sees a new variable, and it comes among those that it sees already. -/
theorem allVariables_declared (h : scopes.Innermost) (token : Token) (id : Nat) :
    (id ≠ scopes.current ∧ (scopes.declared [token]).allVariables id = scopes.allVariables id) ∨
      (id = scopes.current ∧ ∃ own others, scopes.allVariables id = own ++ others ∧
        (scopes.declared [token]).allVariables id = own ++ token.variable :: others) := by
  have hget : ∀ other : Nat, (scopes.declared [token]).arena[other]? =
      if scopes.current = other then (scopes.arena[other]?).map (Scope.addVariables [token])
      else scopes.arena[other]? :=
    fun other => Array.getElem?_modify
  have hchain : (scopes.declared [token]).chain id = scopes.chain id :=
    congrArg _ (outer_modify (Scope.addVariables [token]) (fun _ => rfl) _ _)
  have hrest : (scopes.outer id).filterMap ((scopes.declared [token]).arena[·]?) =
      (scopes.outer id).filterMap (scopes.arena[·]?) := by
    refine List.filterMap_congr fun outer houter => ?_
    -- The current scope is around no other, so the records of outer scopes stay as they are.
    have hne : scopes.current ≠ outer := fun heq => h.not_mem_outer id (heq ▸ houter)
    rw [hget, if_neg hne]
  by_cases hid : id = scopes.current
  · refine .inr ⟨hid, ?_⟩
    obtain ⟨scope, hscope⟩ : ∃ scope, scopes.arena[id]? = some scope :=
      ⟨_, Array.getElem?_eq_getElem (hid ▸ h.tidy.valid.current_lt)⟩
    refine ⟨scope.vars, ((scopes.outer id).filterMap (scopes.arena[·]?)).flatMap (·.vars), ?_, ?_⟩
    · simp [allVariables, visible, chain, hscope]
    · rw [allVariables, visible, hchain, chain, List.filterMap_cons, hget, if_pos hid.symm, hscope,
        Option.map_some, List.flatMap_cons, hrest]
      simp [Scope.addVariables]
  · refine .inl ⟨hid, ?_⟩
    rw [allVariables, visible, hchain, chain, List.filterMap_cons, hget,
      if_neg (Ne.symm hid), hrest]
    rfl

/-- A variable of a name that is not visible can be declared where nothing is inside. -/
theorem Innermost.declared (h : scopes.Innermost) {token : Token}
    (hnew : scopes.hasVariable token.text scopes.current = false) :
    (scopes.declared [token]).Innermost where
  tidy := by
    refine ⟨h.tidy.valid.declared [token], fun id => ?_⟩
    have hold := h.tidy.distinct id
    rcases allVariables_declared h token id with ⟨_, heq⟩ | ⟨rfl, own, others, heq, heq'⟩
    · rw [heq]
      exact hold
    · rw [hasVariable, heq, List.any_eq_false] at hnew
      rw [heq, List.map_append] at hold
      rw [heq', List.map_append, List.map_cons, List.nodup_middle]
      refine List.nodup_cons.mpr ⟨fun hmem => ?_, hold⟩
      rw [← List.map_append] at hmem
      obtain ⟨symbol, hsymbol, hname⟩ := List.mem_map.mp hmem
      exact hnew symbol hsymbol (decide_eq_true hname)
  not_mem_outer id := by
    rw [Scopes.declared, outer_modify (Scope.addVariables [token]) (fun _ => rfl)]
    exact h.not_mem_outer id

/-- Nothing has been declared at first. -/
theorem innermost_initial : initial.Innermost where
  tidy := by
    refine ⟨atTop_initial.valid, fun id => ?_⟩
    cases id with
    | zero => exact List.nodup_nil
    | succ id =>
      rw [allVariables_of_size_le (by simp [initial])]
      exact List.nodup_nil
  not_mem_outer id hmem := by
    cases id with
    | zero => exact List.not_mem_nil hmem
    | succ id => simp [outer, initial] at hmem

end Tranquility.Scopes
