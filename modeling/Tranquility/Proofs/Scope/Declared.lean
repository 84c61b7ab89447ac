import Tranquility.Proofs.Scope.Settled
import Mathlib.Data.List.Nodup

/-!
# Scopes of programs

Between its functions a program is in the global scope, which holds the built-in functions, the
functions so far and the global variables; in a function it is in a scope of that function's
variables inside the global one. Declarations and statements lead from the one to the other and
back, so that what is visible anywhere is what the tree says is declared there.
-/

namespace Tranquility

/-- The variable that a declaration of a name brings about. -/
def Token.variable (token : Token) : VariableSymbol :=
  ⟨token, .any⟩

/-- The entry of a function in its scope. -/
def FunctionDecl.symbol (function : FunctionDecl) : FunctionSymbol :=
  ⟨function.name, function.arity, some function.token⟩

/-- The entry of a built-in function in the global scope. -/
def BuiltinFunction.symbol (function : BuiltinFunction) : FunctionSymbol :=
  ⟨function.name, function.parameterCount, none⟩

/-- What a name means as a function after some declarations: the last of them decides, or else the
language itself. -/
def FunctionDecl.symbolAmong? (functions : List FunctionDecl) (name : String) :
    Option FunctionSymbol :=
  match functions.reverse.find? (·.name = name) with
  | some function => some function.symbol
  | none => (Builtin.find? name).map (·.symbol)

/-- The function that a name means has the number of arguments that the declarations give it. -/
theorem FunctionDecl.arity_symbolAmong? (functions : List FunctionDecl) (name : String) :
    (symbolAmong? functions name).map (·.arity) = arityAmong? functions name := by
  unfold symbolAmong? arityAmong?
  cases functions.reverse.find? (·.name = name) with
  | none => rw [Option.map_map]; rfl
  | some function => rfl

/-- Where no two elements are of a kind it does not matter from which end one is looked up. -/
theorem find?_reverse_of_pairwise {α : Type} {p : α → Bool} {as : List α}
    (h : as.Pairwise fun a b => p a = true → p b = false) : as.reverse.find? p = as.find? p := by
  induction as with
  | nil => rfl
  | cons a as ih =>
    obtain ⟨hfirst, hrest⟩ := List.pairwise_cons.mp h
    rw [List.reverse_cons, List.find?_append, ih hrest, List.find?_cons]
    by_cases ha : p a = true
    · have hnone : as.find? p = none := by
        rw [List.find?_eq_none]
        intro b hb
        simp [hfirst b hb ha]
      simp [ha, hnone]
    · simp [ha]

/-- What is found from the end of a list is the last of its kind. -/
theorem find?_reverse_eq_some_iff {α : Type} {p : α → Bool} {as : List α} {a : α} :
    as.reverse.find? p = some a ↔
      p a = true ∧ ∃ earlier later, as = earlier ++ a :: later ∧ ∀ b ∈ later, p b = false := by
  rw [List.find?_eq_some_iff_append]
  refine and_congr_right fun _ => ⟨?_, ?_⟩
  · rintro ⟨later, earlier, hsplit, hlater⟩
    refine ⟨earlier.reverse, later.reverse, ?_, fun b hb => ?_⟩
    · simpa using List.reverse_eq_iff.mp hsplit
    · simpa using hlater b (List.mem_reverse.mp hb)
  · rintro ⟨earlier, later, rfl, hlater⟩
    refine ⟨later.reverse, earlier.reverse, by simp, fun b hb => ?_⟩
    simpa using hlater b (List.mem_reverse.mp hb)

namespace Scope

/-- The scope with variables after those it holds. -/
def addVariables (tokens : List Token) (scope : Scope) : Scope :=
  { scope with vars := scope.vars ++ tokens.map Token.variable }

/-- The global scope after the declarations of variables and functions. -/
def program (globals : List Token) (functions : List FunctionDecl) : Scope where
  kind := .global
  outer := []
  functions := Builtin.functions.map (fun function =>
    ⟨function.name, function.parameterCount, none⟩) ++ functions.map FunctionDecl.symbol
  vars := globals.map Token.variable
  hasUntil := false

/-- The scope of a function after the declarations of variables. -/
def function (vars : List Token) : Scope :=
  ⟨.function, [0], [], vars.map Token.variable, false⟩

/-- Global variables come after those that there were. -/
theorem addVariables_program (globals tokens : List Token) (functions : List FunctionDecl) :
    (program globals functions).addVariables tokens = program (globals ++ tokens) functions := by
  simp [program, addVariables]

/-- Variables of a function come after those that there were. -/
theorem addVariables_function (vars tokens : List Token) :
    (function vars).addVariables tokens = function (vars ++ tokens) := by
  simp [function, addVariables]

/-- A function comes after those that there were. -/
theorem addFunction_program (globals : List Token) (functions : List FunctionDecl)
    (decl : FunctionDecl) : (program globals functions).addFunction decl.symbol =
      program globals (functions ++ [decl]) := by
  simp [program, addFunction]

/-- Among built-in functions it does not matter from which end a name is looked up. -/
theorem find?_reverse_builtin (name : String) :
    Builtin.functions.reverse.find? (·.name = name) = Builtin.find? name := by
  apply find?_reverse_of_pairwise
  apply (List.pairwise_map.mp Builtin.nodup_names).imp
  intro function other hne hname
  rw [decide_eq_true_iff] at hname
  exact decide_eq_false fun hother => hne (hname.trans hother.symm)

/-- What a name means as a function in the global scope. -/
theorem findFunction?_program (globals : List Token) (functions : List FunctionDecl)
    (name : String) : (program globals functions).findFunction? name =
      FunctionDecl.symbolAmong? functions name := by
  rw [findFunction?, program, List.reverse_append, List.find?_append, ← List.map_reverse,
    ← List.map_reverse, List.find?_map, List.find?_map]
  have hdeclared : functions.reverse.find? ((fun symbol => decide (symbol.name = name)) ∘
      FunctionDecl.symbol) = functions.reverse.find? (·.name = name) := rfl
  have hbuiltin := find?_reverse_builtin name
  rw [hdeclared]
  unfold FunctionDecl.symbolAmong?
  split
  case h_1 function hfunction => simp [hfunction]
  case h_2 hnone =>
    rw [hnone, ← hbuiltin]
    rfl

end Scope

/-! ## Declarations -/

namespace Scopes

/-- The scopes after variables have been declared in the current one. -/
def declared (tokens : List Token) (scopes : Scopes) : Scopes :=
  { scopes with arena := scopes.arena.modify scopes.current (Scope.addVariables tokens) }

/-- Variables may be declared one part after the other. -/
theorem declared_append (tokens tokens' : List Token) (scopes : Scopes) :
    scopes.declared (tokens ++ tokens') = (scopes.declared tokens).declared tokens' := by
  have harena : scopes.arena.modify scopes.current (Scope.addVariables (tokens ++ tokens')) =
      (scopes.arena.modify scopes.current (Scope.addVariables tokens)).modify scopes.current
        (Scope.addVariables tokens') := by
    refine Array.ext_getElem? fun id => ?_
    simp only [Array.getElem?_modify]
    by_cases hid : scopes.current = id
    · simp only [if_pos hid, Option.map_map]
      congr 1
      funext scope
      simp [Scope.addVariables]
    · simp only [if_neg hid]
  rw [declared, harena]
  rfl

theorem declared_nil (scopes : Scopes) : scopes.declared [] = scopes := by
  have harena : scopes.arena.modify scopes.current (Scope.addVariables []) = scopes.arena := by
    refine Array.ext_getElem? fun id => ?_
    rw [Array.getElem?_modify]
    by_cases hid : scopes.current = id
    · rw [if_pos hid]
      cases scopes.arena[id]? with
      | none => rfl
      | some scope => simp [Scope.addVariables]
    · rw [if_neg hid]
  rw [declared, harena]

/-- A variable is visible if its name has a record in the scope or around it. -/
theorem hasVariable_iff {scopes : Scopes} {name : String} {id : Nat} :
    scopes.hasVariable name id = true ↔ ∃ inner ∈ scopes.chain id, ∃ scope,
      scopes.arena[inner]? = some scope ∧ ∃ symbol ∈ scope.vars, symbol.name = name := by
  simp only [hasVariable, allVariables, List.any_eq_true, decide_eq_true_eq, List.mem_flatMap,
    visible, List.mem_filterMap]
  constructor
  · rintro ⟨symbol, ⟨scope, ⟨inner, hinner, hscope⟩, hsymbol⟩, hname⟩
    exact ⟨inner, hinner, scope, hscope, symbol, hsymbol, hname⟩
  · rintro ⟨inner, hinner, scope, hscope, symbol, hsymbol, hname⟩
    exact ⟨symbol, ⟨scope, ⟨inner, hinner, hscope⟩, hsymbol⟩, hname⟩

/-- Declared variables are visible besides those that were. -/
theorem hasVariable_declared {scopes : Scopes} (h : scopes.Valid) {tokens : List Token}
    {name : String} : (scopes.declared tokens).hasVariable name scopes.current = true ↔
      scopes.hasVariable name scopes.current = true ∨ name ∈ Token.names tokens := by
  have hchain : (scopes.declared tokens).chain scopes.current = scopes.chain scopes.current :=
    congrArg _ (outer_modify (Scope.addVariables tokens) (fun _ => rfl) _ _)
  have hget : ∀ id : Nat, (scopes.declared tokens).arena[id]? = if scopes.current = id then
      (scopes.arena[id]?).map (Scope.addVariables tokens) else scopes.arena[id]? :=
    fun id => Array.getElem?_modify
  rw [hasVariable_iff, hasVariable_iff, hchain]
  constructor
  · rintro ⟨id, hid, scope, hscope, symbol, hsymbol, hname⟩
    rw [hget] at hscope
    split at hscope
    case isTrue =>
      obtain ⟨before, hbefore, rfl⟩ := Option.map_eq_some_iff.mp hscope
      rcases List.mem_append.mp hsymbol with hsymbol | hsymbol
      · exact .inl ⟨id, hid, before, hbefore, symbol, hsymbol, hname⟩
      · obtain ⟨token, htoken, rfl⟩ := List.mem_map.mp hsymbol
        exact .inr (List.mem_map.mpr ⟨token, htoken, hname⟩)
    case isFalse => exact .inl ⟨id, hid, scope, hscope, symbol, hsymbol, hname⟩
  · rintro (⟨id, hid, scope, hscope, symbol, hsymbol, hname⟩ | hname)
    · by_cases hcurrent : scopes.current = id
      · refine ⟨id, hid, scope.addVariables tokens, ?_, symbol, ?_, hname⟩
        · rw [hget, if_pos hcurrent, hscope, Option.map_some]
        · exact List.mem_append_left _ hsymbol
      · refine ⟨id, hid, scope, ?_, symbol, hsymbol, hname⟩
        rw [hget, if_neg hcurrent, hscope]
    · obtain ⟨token, htoken, hname⟩ := List.mem_map.mp hname
      obtain ⟨scope, hscope⟩ : ∃ scope, scopes.arena[scopes.current]? = some scope :=
        ⟨_, Array.getElem?_eq_getElem h.current_lt⟩
      refine ⟨scopes.current, List.mem_cons_self, scope.addVariables tokens, ?_, token.variable,
        List.mem_append_right _ (List.mem_map_of_mem htoken), hname⟩
      rw [hget, if_pos rfl, hscope, Option.map_some]

/-- Declarations keep the scopes together. -/
theorem Valid.declared {scopes : Scopes} (h : scopes.Valid) (tokens : List Token) :
    (scopes.declared tokens).Valid :=
  h.modify (Scope.addVariables tokens) (fun _ => rfl) _

/-- The names may be declared in the current scope, one after the other. -/
structure Fresh (tokens : List Token) (scopes : Scopes) : Prop where
  nodup : (Token.names tokens).Nodup
  unseen : ∀ name ∈ Token.names tokens, scopes.hasVariable name scopes.current = false

theorem fresh_nil (scopes : Scopes) : Fresh [] scopes where
  nodup := List.nodup_nil
  unseen _ h := absurd h List.not_mem_nil

/-- Names are fresh if the first ones are, and the others once these have been declared. -/
theorem fresh_append {scopes : Scopes} (h : scopes.Valid) {tokens tokens' : List Token} :
    Fresh (tokens ++ tokens') scopes ↔
      Fresh tokens scopes ∧ Fresh tokens' (scopes.declared tokens) := by
  have hunseen : ∀ name, (scopes.declared tokens).hasVariable name scopes.current = false ↔
      scopes.hasVariable name scopes.current = false ∧ name ∉ Token.names tokens := by
    intro name
    rw [← Bool.not_eq_true, ← Bool.not_eq_true, hasVariable_declared h, not_or]
  have hnames : Token.names (tokens ++ tokens') = Token.names tokens ++ Token.names tokens' :=
    List.map_append
  constructor
  · rintro ⟨hnodup, hall⟩
    rw [hnames] at hnodup hall
    obtain ⟨hfirst, hsecond, hdisjoint⟩ := List.nodup_append.mp hnodup
    refine ⟨⟨hfirst, fun name hname => hall name (List.mem_append_left _ hname)⟩, hsecond, ?_⟩
    intro name hname
    refine (hunseen name).mpr ⟨hall name (List.mem_append_right _ hname), fun hmem => ?_⟩
    exact hdisjoint name hmem name hname rfl
  · rintro ⟨⟨hfirst, hall⟩, hsecond, hall'⟩
    refine ⟨?_, ?_⟩
    · rw [hnames]
      refine List.nodup_append.mpr ⟨hfirst, hsecond, ?_⟩
      rintro name hname _ hname' rfl
      exact ((hunseen name).mp (hall' name hname')).2 hname
    · intro name hname
      rw [hnames] at hname
      rcases List.mem_append.mp hname with hname | hname
      · exact hall name hname
      · exact ((hunseen name).mp (hall' name hname)).1

/-- Where these names are visible and no others, names may be declared that are different. -/
theorem fresh_iff {scopes : Scopes} {seen tokens : List Token}
    (hseen : ∀ name, scopes.hasVariable name scopes.current = true ↔ name ∈ Token.names seen)
    (hnodup : (Token.names seen).Nodup) :
    Fresh tokens scopes ↔ (Token.names (seen ++ tokens)).Nodup := by
  have hnames : Token.names (seen ++ tokens) = Token.names seen ++ Token.names tokens :=
    List.map_append
  rw [hnames, List.nodup_append]
  constructor
  · rintro ⟨hfresh, hunseen⟩
    refine ⟨hnodup, hfresh, ?_⟩
    rintro name hname _ hname' rfl
    have hvisible := (hseen name).mpr hname
    rw [hunseen name hname'] at hvisible
    cases hvisible
  · rintro ⟨_, hfresh, hdisjoint⟩
    refine ⟨hfresh, fun name hname => ?_⟩
    rw [← Bool.not_eq_true, hseen]
    exact fun hmem => hdisjoint name hmem name hname rfl

/-- The global scope is current, and holds the declarations so far. -/
structure AtTop (globals : List Token) (functions : List FunctionDecl) (scopes : Scopes) :
    Prop where
  valid : scopes.Valid
  current : scopes.current = 0
  top : scopes.arena[0]? = some (.program globals functions)

/-- The scope of a function is current, inside the global one. -/
structure InFunction (globals : List Token) (functions : List FunctionDecl) (vars : List Token)
    (scopes : Scopes) : Prop where
  valid : scopes.Valid
  top : scopes.arena[0]? = some (.program globals functions)
  own : scopes.arena[scopes.current]? = some (.function vars)

variable {globals vars : List Token} {functions : List FunctionDecl} {scopes : Scopes}

/-- At the start nothing has been declared at the top. -/
theorem atTop_initial : AtTop [] [] initial where
  valid := ⟨Nat.zero_lt_one, by
    intro id outer hmem
    cases id with
    | zero => exact absurd hmem List.not_mem_nil
    | succ id => simp [Scopes.outer, initial] at hmem⟩
  current := rfl
  top := rfl

namespace AtTop

/-- Global variables are declared at the top. -/
theorem declared (h : AtTop globals functions scopes) (tokens : List Token) :
    AtTop (globals ++ tokens) functions (scopes.declared tokens) where
  valid := h.valid.declared tokens
  current := h.current
  top := by
    simp [Scopes.declared, Array.getElem?_modify, h.current, h.top, Scope.addVariables_program]

/-- A left brace leads into a function without variables. -/
theorem opened (h : AtTop globals functions scopes) :
    InFunction globals functions [] (scopes.opened .function) where
  valid := h.valid.opened .function
  top := by
    rw [arena_opened_of_lt (h.current ▸ h.valid.current_lt), h.top]
  own := by
    rw [current_opened, arena_opened_size, chain, h.current, Scopes.outer, h.top]
    rfl

/-- At the top the global scope alone is visible. -/
theorem visible_eq (h : AtTop globals functions scopes) :
    scopes.visible scopes.current = [.program globals functions] := by
  simp [visible, chain, Scopes.outer, h.current, h.top, Scope.program]

/-- The variables visible between functions are the global ones. -/
theorem hasVariable_iff (h : AtTop globals functions scopes) {name : String} :
    scopes.hasVariable name scopes.current = true ↔ name ∈ Token.names globals := by
  simp only [hasVariable, allVariables, h.visible_eq, List.any_eq_true, decide_eq_true_eq]
  simp [Scope.program, Token.names, VariableSymbol.name, Token.variable]

/-- Between functions a name means what the declarations so far make it. -/
theorem findFunction?_eq (h : AtTop globals functions scopes) (name : String) :
    scopes.findFunction? name scopes.current = FunctionDecl.symbolAmong? functions name := by
  rw [findFunction?, h.visible_eq, ← Scope.findFunction?_program globals]
  simp only [List.findSome?_cons, List.findSome?_nil]
  cases (Scope.program globals functions).findFunction? name <;> rfl

/-- The functions visible between functions are the built-in ones and those declared so far. -/
theorem hasFunction_iff (h : AtTop globals functions scopes) {name : String} :
    scopes.hasFunction name scopes.current = true ↔
      name ∈ Builtin.functions.map (·.name) ∨ name ∈ functions.map (·.name) := by
  simp only [hasFunction, allFunctions, h.visible_eq, List.any_eq_true, decide_eq_true_eq]
  simp [Scope.program, FunctionDecl.symbol, or_and_right, exists_or]

end AtTop

namespace InFunction

/-- The scope of a function is not the global one. -/
theorem current_ne (h : InFunction globals functions vars scopes) : scopes.current ≠ 0 := by
  intro hcurrent
  have hown := h.own
  rw [hcurrent, h.top] at hown
  cases hown

/-- Variables of a function are declared in its scope. -/
theorem declared (h : InFunction globals functions vars scopes) (tokens : List Token) :
    InFunction globals functions (vars ++ tokens) (scopes.declared tokens) where
  valid := h.valid.declared tokens
  top := by simp [Scopes.declared, Array.getElem?_modify, h.current_ne, h.top]
  own := by
    simp [Scopes.declared, Array.getElem?_modify, h.own, Scope.addVariables_function]

/-- A function is declared in the global scope when its own is current. -/
theorem declareFunction (h : InFunction globals functions vars scopes) (decl : FunctionDecl) :
    InFunction globals (functions ++ [decl]) vars (scopes.declareFunction decl.symbol 0) where
  valid := h.valid.modify (Scope.addFunction decl.symbol) (fun _ => rfl) 0
  top := by
    simp [Scopes.declareFunction, Array.getElem?_modify, h.top, Scope.addFunction_program]
  own := by
    simp [Scopes.declareFunction, Array.getElem?_modify, h.current_ne.symm, h.own]

/-- Around the scope of a function there is the global one alone. -/
theorem outer_current (h : InFunction globals functions vars scopes) :
    scopes.outer scopes.current = [0] := by
  rw [Scopes.outer, h.own]
  rfl

/-- The scope of a function can be left. -/
theorem outer_ne_nil (h : InFunction globals functions vars scopes) :
    scopes.outer scopes.current ≠ [] := by
  rw [h.outer_current]
  exact List.cons_ne_nil _ _

/-- Statements lead to the same place of the program. -/
theorem passes {marks : Bool} {after : Scopes} (h : InFunction globals functions vars scopes)
    (hpasses : Passes marks scopes after) : InFunction globals functions vars after := by
  have hzero : 0 < scopes.arena.size := Nat.zero_lt_of_lt h.valid.current_lt
  -- A record is the same with its mark as without it, as long as the mark is the same.
  have hsame : ∀ {id : Nat} {scope : Scope}, id < scopes.arena.size →
      scopes.arena[id]? = some scope → after.hasUntil id = scope.hasUntil →
        after.arena[id]? = some scope := by
    intro id scope hid hscope huntil
    have hrecord := hpasses.record id hid
    rw [hscope, Option.map_some, Option.map_eq_some_iff] at hrecord
    obtain ⟨other, hother, heq⟩ := hrecord
    rw [Scopes.hasUntil, hother] at huntil
    rw [hother, Option.some.injEq]
    obtain ⟨kind, outer, functions, vars, mark⟩ := other
    obtain ⟨rfl, rfl, rfl, rfl⟩ : kind = scope.kind ∧ outer = scope.outer ∧
        functions = scope.functions ∧ vars = scope.vars := by
      simpa [Scope.unmarked] using heq
    obtain rfl : mark = scope.hasUntil := huntil
    rfl
  refine ⟨hpasses.valid, hsame hzero h.top ?_, ?_⟩
  · rw [hpasses.hasUntil_of_ne 0 hzero h.current_ne.symm, Scopes.hasUntil, h.top]
    rfl
  · rw [hpasses.current]
    refine hsame h.valid.current_lt h.own ?_
    rw [hpasses.hasUntil_current, Scopes.hasUntil, Scopes.kind?, h.own]
    simp [Scope.function]

/-- A right brace leads back to the global scope. -/
theorem closed (h : InFunction globals functions vars scopes) :
    AtTop globals functions scopes.closed where
  valid := by
    refine ⟨?_, h.valid.outer_lt⟩
    rw [Scopes.closed, h.outer_current]
    exact Nat.zero_lt_of_lt h.valid.current_lt
  current := by
    rw [Scopes.closed, h.outer_current]
    rfl
  top := h.top

/-- In a function its own scope and the global one are visible. -/
theorem visible_eq (h : InFunction globals functions vars scopes) :
    scopes.visible scopes.current = [.function vars, .program globals functions] := by
  rw [visible, chain, h.outer_current]
  simp [h.own, h.top]

/-- In a function a name means what the declarations so far make it, as a function. -/
theorem findFunction?_eq (h : InFunction globals functions vars scopes) (name : String) :
    scopes.findFunction? name scopes.current = FunctionDecl.symbolAmong? functions name := by
  have hown : (Scope.function vars).findFunction? name = none := rfl
  rw [findFunction?, h.visible_eq, ← Scope.findFunction?_program globals]
  simp only [List.findSome?_cons, hown, List.findSome?_nil]
  cases (Scope.program globals functions).findFunction? name <;> rfl

/-- What a function sees: its variables, the global ones, and the functions so far. -/
theorem seen_eq (h : InFunction globals functions vars scopes) : scopes.seen =
    ⟨fun name => (Token.names (globals ++ vars)).contains name,
      FunctionDecl.arityAmong? functions⟩ := by
  rw [seen, Visible.mk.injEq]
  constructor
  · funext name
    rw [Bool.eq_iff_iff]
    simp only [hasVariable, allVariables, h.visible_eq, List.any_eq_true, decide_eq_true_eq]
    simp [Scope.program, Scope.function, Token.names, VariableSymbol.name, Token.variable,
      or_and_right, exists_or, or_comm]
  · funext name
    rw [← FunctionDecl.arity_symbolAmong?, h.findFunction?_eq]

/-- A function sees the global variables and its own. -/
theorem hasVariable_iff (h : InFunction globals functions vars scopes) {name : String} :
    scopes.hasVariable name scopes.current = true ↔ name ∈ Token.names (globals ++ vars) := by
  have hseen := congrFun (congrArg Visible.hasVariable h.seen_eq) name
  rw [show scopes.hasVariable name scopes.current = scopes.seen.hasVariable name from rfl, hseen]
  exact List.contains_iff_mem

end InFunction

end Scopes

/-! ## Functions -/

/-- The scopes in a function of the global scope after its name, its parameters and its
variables. -/
def FunctionDecl.entered (function : FunctionDecl) (scopes : Scopes) : Scopes :=
  (((scopes.opened .function).declareFunction function.symbol 0).declared
    function.parameters).declared function.locals.flatten

/-- The scopes that a function leaves. -/
def FunctionDecl.settle (function : FunctionDecl) (scopes : Scopes) : Scopes :=
  (Stmt.settleAll function.body (function.entered scopes)).closed

namespace Scopes.AtTop

variable {globals : List Token} {functions : List FunctionDecl} {scopes : Scopes}

/-- A function is entered from the top with its parameters and variables declared. -/
theorem entered (h : AtTop globals functions scopes) (function : FunctionDecl) :
    InFunction globals (functions ++ [function])
      (function.parameters ++ function.locals.flatten) (function.entered scopes) := by
  have hdeclared := (h.opened.declareFunction function).declared function.parameters
  exact hdeclared.declared function.locals.flatten

/-- A function leads back to the global scope, which holds it now. -/
theorem settle (h : AtTop globals functions scopes) (function : FunctionDecl) :
    AtTop globals (functions ++ [function]) (function.settle scopes) :=
  have hentered := h.entered function
  (hentered.passes (Stmt.passes_all function.body hentered.valid)).closed

/-- Functions one after the other lead back to the global scope, which holds all of them. -/
theorem settle_all (h : AtTop globals functions scopes) (further : List FunctionDecl) :
    AtTop globals (functions ++ further)
      (further.foldl (fun scopes function => function.settle scopes) scopes) := by
  induction further generalizing functions scopes with
  | nil =>
    rw [List.append_nil]
    exact h
  | cons function further ih =>
    rw [List.append_cons]
    exact ih (h.settle function)

end Scopes.AtTop

end Tranquility
