import Tranquility.Proofs.Scope.Declared
import Tranquility.Proofs.Tree.Bare

/-!
# Scopes without places

What scopes make visible, and how tokens lead from one to the other, depends on names, kinds and the
scopes around them. The places of the tokens that have been declared do not matter.
-/

namespace Tranquility

/-- The entry of a function without the place of its token. -/
def FunctionSymbol.bare (symbol : FunctionSymbol) : FunctionSymbol :=
  { symbol with token := symbol.token.map Token.bare }

/-- A variable without the place of its token. -/
def VariableSymbol.bare (symbol : VariableSymbol) : VariableSymbol :=
  { symbol with token := symbol.token.bare }

/-- A scope without the places of the tokens declared in it. -/
def Scope.bare (scope : Scope) : Scope :=
  { scope with
    functions := scope.functions.map FunctionSymbol.bare
    vars := scope.vars.map VariableSymbol.bare }

/-- Scopes without the places of the tokens declared in them. -/
def Scopes.bare (scopes : Scopes) : Scopes :=
  { scopes with arena := scopes.arena.map Scope.bare }

namespace Scope

/-- A scope has variables of the same names without the places. -/
theorem any_vars_bare (scope : Scope) (name : String) :
    scope.bare.vars.any (·.name = name) = scope.vars.any (·.name = name) :=
  List.any_map

theorem any_functions_bare (scope : Scope) (name : String) :
    scope.bare.functions.any (·.name = name) = scope.functions.any (·.name = name) :=
  List.any_map

/-- The function that a name means is the same without the places. -/
theorem findFunction?_bare (scope : Scope) (name : String) :
    scope.bare.findFunction? name = (scope.findFunction? name).map FunctionSymbol.bare := by
  rw [findFunction?, bare, ← List.map_reverse, List.find?_map]
  rfl

theorem addFunction_bare (symbol : FunctionSymbol) (scope : Scope) :
    (scope.addFunction symbol).bare = scope.bare.addFunction symbol.bare := by
  simp [addFunction, bare]

theorem addVariables_bare (tokens : List Token) (scope : Scope) :
    (scope.addVariables tokens).bare = scope.bare.addVariables (tokens.map Token.bare) := by
  have hvariable : ∀ token : Token, token.variable.bare = token.bare.variable := fun _ => rfl
  simp [addVariables, bare, hvariable]

end Scope

namespace Scopes

variable {scopes scopes' : Scopes}

/-- The records of scopes lose their places one by one. -/
theorem getElem?_bare (id : Nat) : scopes.bare.arena[id]? = (scopes.arena[id]?).map Scope.bare := by
  simp [bare]

@[simp] theorem current_bare : scopes.bare.current = scopes.current := rfl

@[simp] theorem size_bare : scopes.bare.arena.size = scopes.arena.size := by
  simp [bare]

@[simp] theorem outer_bare (id : Nat) : scopes.bare.outer id = scopes.outer id := by
  rw [outer, outer, getElem?_bare]
  cases scopes.arena[id]? <;> rfl

@[simp] theorem chain_bare (id : Nat) : scopes.bare.chain id = scopes.chain id := by
  rw [chain, chain, outer_bare]

@[simp] theorem kind?_bare (id : Nat) : scopes.bare.kind? id = scopes.kind? id := by
  rw [kind?, kind?, getElem?_bare]
  cases scopes.arena[id]? <;> rfl

@[simp] theorem hasUntil_bare (id : Nat) : scopes.bare.hasUntil id = scopes.hasUntil id := by
  rw [hasUntil, hasUntil, getElem?_bare]
  cases scopes.arena[id]? <;> rfl

/-- The visible scopes are the same ones without places. -/
theorem visible_bare (id : Nat) : scopes.bare.visible id = (scopes.visible id).map Scope.bare := by
  rw [visible, visible, chain_bare, List.map_filterMap]
  exact List.filterMap_congr fun inner _ => getElem?_bare inner

@[simp] theorem hasVariable_bare (name : String) (id : Nat) :
    scopes.bare.hasVariable name id = scopes.hasVariable name id := by
  simp only [hasVariable, allVariables, visible_bare, List.any_flatMap, List.any_map,
    Function.comp_def, Scope.any_vars_bare]

@[simp] theorem hasFunction_bare (name : String) (id : Nat) :
    scopes.bare.hasFunction name id = scopes.hasFunction name id := by
  simp only [hasFunction, allFunctions, visible_bare, List.any_flatMap, List.any_map,
    Function.comp_def, Scope.any_functions_bare]

/-- A name means the same function without its place. -/
theorem findFunction?_bare (name : String) (id : Nat) :
    scopes.bare.findFunction? name id = (scopes.findFunction? name id).map FunctionSymbol.bare := by
  rw [findFunction?, findFunction?, visible_bare, List.findSome?_map]
  simp only [Function.comp_def, Scope.findFunction?_bare]
  induction scopes.visible id with
  | nil => rfl
  | cons scope visible ih =>
    rw [List.findSome?_cons, List.findSome?_cons]
    cases scope.findFunction? name with
    | none => exact ih
    | some symbol => rfl

/-! ## Steps -/

/-- A change that does not look at places may be made without them. -/
theorem modify_bare {change change' : Scope → Scope}
    (h : ∀ scope, (change scope).bare = change' scope.bare) (id : Nat) :
    (scopes.arena.modify id change).map Scope.bare = scopes.bare.arena.modify id change' := by
  refine Array.ext_getElem? fun other => ?_
  rw [Array.getElem?_map, Array.getElem?_modify, Array.getElem?_modify, getElem?_bare]
  by_cases hid : id = other
  · rw [if_pos hid, if_pos hid, Option.map_map, Option.map_map]
    exact congrArg (Option.map · _) (funext h)
  · rw [if_neg hid, if_neg hid]

theorem opened_bare (kind : ScopeKind) : (scopes.opened kind).bare = scopes.bare.opened kind := by
  have harena : (scopes.arena.push ⟨kind, scopes.chain scopes.current, [], [], false⟩).map
      Scope.bare = (scopes.arena.map Scope.bare).push
        ⟨kind, scopes.chain scopes.current, [], [], false⟩ := Array.map_push
  rw [opened, opened, current_bare, chain_bare, size_bare, bare, harena]
  rfl

theorem markLoop_bare : scopes.markLoop.bare = scopes.bare.markLoop := by
  have hmark : ∀ scope : Scope, scope.markUntil.bare = scope.bare.markUntil := fun _ => rfl
  unfold markLoop
  rw [current_bare, kind?_bare]
  split
  case isTrue => exact congrArg (Scopes.mk · _) (modify_bare hmark _)
  case isFalse => rfl

theorem declareFunction_bare (symbol : FunctionSymbol) (id : Nat) :
    (scopes.declareFunction symbol id).bare = scopes.bare.declareFunction symbol.bare id :=
  congrArg (Scopes.mk · _) (modify_bare (Scope.addFunction_bare symbol) id)

theorem declared_bare (tokens : List Token) :
    (scopes.declared tokens).bare = scopes.bare.declared (tokens.map Token.bare) :=
  congrArg (Scopes.mk · _) (modify_bare (Scope.addVariables_bare tokens) _)

/-- What a token does to scopes is the same without the places. -/
theorem pass_bare (token : Token) (opens : Option ScopeKind) :
    (scopes.pass token opens).map bare = scopes.bare.pass token opens := by
  unfold pass
  split
  case h_1 =>
    unfold enter
    split
    case h_1 opened _ => exact congrArg Except.ok (opened_bare opened)
    case h_2 => rfl
  case h_2 =>
    unfold leave
    rw [current_bare, outer_bare]
    split <;> rfl
  case h_3 => rfl

end Scopes

end Tranquility
