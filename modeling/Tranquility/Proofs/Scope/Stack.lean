import Tranquility.Proofs.Scope.Frames
import Tranquility.Proofs.Scope.Links

/-!
# Scopes as a stack

Every scope stays in the arena, but only the current one and those around it are seen. To whoever
opens and closes scopes, declares names in them and looks names up, they are a plain stack of
frames. The record that a closed scope leaves behind is never written again.
-/

namespace Tranquility

/-- What a stack shows of a scope. -/
def Scope.frame (scope : Scope) : Frame :=
  ⟨scope.kind, scope.functions, scope.vars⟩

namespace Scopes

/-- An operation on scopes, which may fail. -/
def perform (scopes : Scopes) : Move → Except Error Scopes
  | .enter kind => (scopes.enter kind).mapError .scope
  | .leave => scopes.leave.mapError .scope
  | .declareVariable token type => (scopes.declareVariable token type).mapError .violation
  | .declareFunction symbol outward =>
    match (scopes.chain scopes.current)[outward]? with
    | some id => .ok (scopes.declareFunction symbol id)
    | none => .ok scopes

/-- The scopes after an operation; there are no new ones after one that fails. -/
def step (scopes : Scopes) (move : Move) : Scopes :=
  match scopes.perform move with
  | .ok after => after
  | .error _ => scopes

/-- The scopes after some operations on the global scope alone. -/
def after (moves : List Move) : Scopes :=
  moves.foldl step initial

variable {scopes : Scopes} {stack : Stack}

/-! ## The arena against the stack -/

/-- The current scope and those around it hold what the frames hold. -/
structure Mirrors (scopes : Scopes) (stack : Stack) : Prop where
  linked : scopes.Linked
  frames_eq : (scopes.visible scopes.current).map Scope.frame = stack.frames

/-- To change the record of one scope among several is to change one of their records. -/
theorem filterMap_modify {arena : Array Scope} {ids : List Nat} (hnodup : ids.Nodup)
    (hlt : ∀ id ∈ ids, id < arena.size) {place id : Nat} (hplace : ids[place]? = some id)
    (change : Scope → Scope) : ids.filterMap ((arena.modify id change)[·]?) =
      (ids.filterMap (arena[·]?)).modify place change := by
  induction ids generalizing place with
  | nil => cases hplace
  | cons first ids ih =>
    obtain ⟨hfirst, hnodup⟩ := List.nodup_cons.mp hnodup
    obtain ⟨hfirstlt, hlt⟩ := List.forall_mem_cons.mp hlt
    obtain ⟨scope, hscope⟩ : ∃ scope, arena[first]? = some scope :=
      ⟨_, Array.getElem?_eq_getElem hfirstlt⟩
    cases place with
    | zero =>
      obtain rfl : first = id := Option.some.inj hplace
      have hrest : ∀ other ∈ ids, (arena.modify first change)[other]? = arena[other]? := by
        intro other hother
        have hne : first ≠ other := fun heq => hfirst (heq ▸ hother)
        rw [Array.getElem?_modify, if_neg hne]
      rw [List.filterMap_cons, List.filterMap_cons, Array.getElem?_modify, if_pos rfl, hscope,
        Option.map_some, List.filterMap_congr hrest]
      rfl
    | succ place =>
      rw [List.getElem?_cons_succ] at hplace
      have hne : id ≠ first := fun heq => hfirst (heq ▸ List.mem_of_getElem? hplace)
      rw [List.filterMap_cons, List.filterMap_cons, Array.getElem?_modify, if_neg hne, hscope,
        ih hnodup hlt hplace]
      rfl

namespace Mirrors

/-- At the start the stack shows the global scope. -/
theorem initial : Mirrors initial Stack.initial where
  linked := .initial
  frames_eq := rfl

/-- There are as many scopes on the way out as frames on the stack. -/
theorem chain_length (h : scopes.Mirrors stack) :
    (scopes.chain scopes.current).length = stack.frames.length := by
  have hall : ∀ id ∈ scopes.chain scopes.current, (scopes.arena[id]?).isSome = true := by
    intro id hid
    simpa using h.linked.valid.chain_lt id hid
  rw [← h.frames_eq, List.length_map, visible, List.length_filterMap_eq_countP,
    List.countP_eq_length.mpr hall]

/-- A scope that is opened is an empty frame on top. -/
theorem opened (h : scopes.Mirrors stack) (kind : ScopeKind) :
    (scopes.opened kind).Mirrors ⟨.empty kind, stack.frames⟩ where
  linked := h.linked.opened kind
  frames_eq := by
    rw [current_opened, visible_opened h.linked.valid, List.map_cons, h.frames_eq]
    rfl

/-- Where a scope is closed, the frame on top goes. -/
theorem closed (h : scopes.Mirrors stack) {frame : Frame} {below : List Frame}
    (hbelow : stack.below = frame :: below) : scopes.closed.Mirrors ⟨frame, below⟩ where
  linked := h.linked.closed
  frames_eq := by
    have hframes := h.frames_eq
    obtain ⟨scope, hscope⟩ : ∃ scope, scopes.arena[scopes.current]? = some scope :=
      ⟨_, Array.getElem?_eq_getElem h.linked.current_lt⟩
    rw [visible, chain, List.filterMap_cons, hscope, Stack.frames, hbelow] at hframes
    obtain ⟨_, hrest⟩ := List.cons.inj hframes
    have houter : scopes.outer scopes.current ≠ [] := by
      intro hnil
      rw [hnil] at hrest
      cases hrest
    rw [h.linked.outer_current_eq houter] at hrest
    exact hrest

/-- A change of a record is a change of the frame at the same height. -/
theorem modify (h : scopes.Mirrors stack) {change : Scope → Scope} {change' : Frame → Frame}
    (hframe : ∀ scope, (change scope).frame = change' scope.frame)
    (houter : ∀ scope, (change scope).outer = scope.outer) {place id : Nat}
    (hplace : (scopes.chain scopes.current)[place]? = some id) {stack' : Stack}
    (hstack : stack'.frames = stack.frames.modify place change') :
    Mirrors { scopes with arena := scopes.arena.modify id change } stack' where
  linked := h.linked.modify change houter id
  frames_eq := by
    have hchain : Scopes.chain { scopes with arena := scopes.arena.modify id change }
        scopes.current = scopes.chain scopes.current :=
      congrArg _ (outer_modify change houter id scopes.current)
    have hmodify := filterMap_modify (h.linked.chain_nodup scopes.current)
      h.linked.valid.chain_lt hplace change
    rw [visible, hchain, hmodify, hstack, ← h.frames_eq, ← visible]
    refine List.ext_getElem? fun i => ?_
    rw [List.getElem?_map, List.getElem?_modify, List.getElem?_modify, List.getElem?_map]
    cases (scopes.visible scopes.current)[i]? with
    | none => rfl
    | some scope =>
      by_cases hi : place = i
      · simpa [hi] using hframe scope
      · simp [hi]

/-! ### What is seen -/

/-- The depth is the number of frames below the top. -/
theorem depth_eq (h : scopes.Mirrors stack) : scopes.depth = stack.below.length :=
  Nat.succ.inj h.chain_length

/-- The variables that a scope sees are those on the stack. -/
theorem allVariables_eq (h : scopes.Mirrors stack) :
    scopes.allVariables scopes.current = stack.frames.flatMap (·.vars) := by
  rw [← h.frames_eq, List.flatMap_map]
  rfl

theorem allFunctions_eq (h : scopes.Mirrors stack) :
    scopes.allFunctions scopes.current = stack.frames.flatMap (·.functions) := by
  rw [← h.frames_eq, List.flatMap_map]
  rfl

theorem hasVariable_eq (h : scopes.Mirrors stack) (name : String) :
    scopes.hasVariable name scopes.current = stack.hasVariable name := by
  rw [hasVariable, h.allVariables_eq, List.any_flatMap]
  rfl

theorem hasFunction_eq (h : scopes.Mirrors stack) (name : String) :
    scopes.hasFunction name scopes.current = stack.hasFunction name := by
  rw [hasFunction, h.allFunctions_eq, List.any_flatMap]
  rfl

end Mirrors

end Scopes

/-- In a scope the latest declaration of a name is found. -/
theorem Scope.findFunction?_eq_some_iff {scope : Scope} {name : String} {symbol : FunctionSymbol} :
    scope.findFunction? name = some symbol ↔ scope.frame.Latest name symbol := by
  rw [findFunction?, find?_reverse_eq_some_iff, decide_eq_true_iff]
  simp only [decide_eq_false_iff_not]
  rfl

/-- A name that is not found in a scope is not in its frame. -/
theorem Scope.findFunction?_eq_none_iff {scope : Scope} {name : String} :
    scope.findFunction? name = none ↔ scope.frame.hasFunction name = false := by
  rw [findFunction?, List.find?_eq_none, Frame.hasFunction, List.any_eq_false]
  simp [Scope.frame]

namespace Scopes

variable {scopes : Scopes} {stack : Stack}

/-- A name means what the innermost frame that holds it says. -/
theorem Mirrors.findFunction?_eq_some_iff (h : scopes.Mirrors stack) {name : String}
    {symbol : FunctionSymbol} :
    scopes.findFunction? name scopes.current = some symbol ↔ stack.Finds name symbol := by
  rw [findFunction?, List.findSome?_eq_some_iff, Stack.Finds, ← h.frames_eq]
  constructor
  · rintro ⟨inner, scope, outer, hsplit, hfound, hinner⟩
    refine ⟨inner.map Scope.frame, scope.frame, outer.map Scope.frame, by simp [hsplit],
      fun frame hframe => ?_, Scope.findFunction?_eq_some_iff.mp hfound⟩
    obtain ⟨other, hother, rfl⟩ := List.mem_map.mp hframe
    exact Scope.findFunction?_eq_none_iff.mp (hinner other hother)
  · rintro ⟨inner, frame, outer, hsplit, hinner, hfound⟩
    obtain ⟨inner, rest, hvisible, rfl, hrest⟩ := List.map_eq_append_iff.mp hsplit
    obtain ⟨scope, outer, rfl, rfl, rfl⟩ := List.map_eq_cons_iff.mp hrest
    refine ⟨inner, scope, outer, hvisible, Scope.findFunction?_eq_some_iff.mpr hfound,
      fun other hother => ?_⟩
    exact Scope.findFunction?_eq_none_iff.mpr (hinner _ (List.mem_map_of_mem hother))

/-! ## Runs -/

/-- The declaration of a variable fails if its name is visible. -/
theorem declareVariable_eq_error_iff {token : Token} {type : Ty} {error : TokenError} :
    scopes.declareVariable token type = .error error ↔
      scopes.hasVariable token.text scopes.current = true ∧
        error = { token, violation := .duplicateVariable } := by
  unfold declareVariable
  split
  case isTrue hvisible =>
    rw [Except.error.injEq]
    exact ⟨fun heq => ⟨hvisible, heq.symm⟩, fun heq => heq.2.symm⟩
  case isFalse hvisible =>
    refine iff_of_false ?_ fun heq => hvisible heq.1
    rintro ⟨⟩

/-- No scope can be opened of another kind than those of blocks. -/
theorem enter_eq_error_iff {kind : Option ScopeKind} {error : ScopeError} :
    scopes.enter kind = .error error ↔
      (∀ block ∈ kind, block ∉ ScopeKind.blocks) ∧ error = .cannotOpen kind := by
  simp only [ScopeKind.mem_blocks_iff, Bool.not_eq_true]
  cases kind with
  | none => simp [enter, @eq_comm _ error]
  | some kind =>
    cases hopens : kind.opens with
    | true => simp [enter_some hopens, hopens]
    | false => simp [enter, Option.filter_some_neg, hopens, @eq_comm _ error]

/-- Only the global scope cannot be closed. -/
theorem leave_eq_error_iff {error : ScopeError} : scopes.leave = .error error ↔
    scopes.outer scopes.current = [] ∧ error = .noOuterScope := by
  unfold leave
  split
  case h_1 outer rest houter => simp [houter]
  case h_2 houter => simp [houter, @eq_comm _ error]

/-- An operation that does not fail leads where it says. -/
theorem step_of_ok {move : Move} {after : Scopes} (h : scopes.perform move = .ok after) :
    scopes.step move = after := by
  rw [step, h]

/-- A failing operation changes nothing. -/
theorem step_of_error {move : Move} {error : Error} (h : scopes.perform move = .error error) :
    scopes.step move = scopes := by
  rw [step, h]

/-- Something is opened in the same cases, and then it is a new frame. -/
theorem Mirrors.step_enter (h : scopes.Mirrors stack) (kind : Option ScopeKind) :
    (scopes.step (.enter kind)).Mirrors (stack.step (.enter kind)) ∧
      Keeps scopes (scopes.step (.enter kind)) := by
  cases kind with
  | none =>
    have herror : scopes.perform (.enter none) = .error (.scope (.cannotOpen none)) := rfl
    rw [step_of_error herror]
    exact ⟨h, .refl scopes⟩
  | some kind =>
    by_cases hblock : kind ∈ ScopeKind.blocks
    · have hok : scopes.perform (.enter (some kind)) = .ok (scopes.opened kind) := by
        rw [perform, enter_some (ScopeKind.mem_blocks_iff.mp hblock)]
        rfl
      rw [step_of_ok hok, Stack.step, if_pos hblock]
      exact ⟨h.opened kind, .opened scopes kind⟩
    · have herror : scopes.perform (.enter (some kind)) =
          .error (.scope (.cannotOpen (some kind))) := by
        rw [perform, enter_eq_error_iff.mpr ⟨by simpa using hblock, rfl⟩]
        rfl
      rw [step_of_error herror, Stack.step, if_neg hblock]
      exact ⟨h, .refl scopes⟩

/-- The scope directly around the current one is the frame below the top. -/
theorem Mirrors.step_leave (h : scopes.Mirrors stack) :
    (scopes.step .leave).Mirrors (stack.step .leave) ∧ Keeps scopes (scopes.step .leave) := by
  have houter : (scopes.outer scopes.current).length = stack.below.length := h.depth_eq
  cases hbelow : stack.below with
  | nil =>
    rw [hbelow] at houter
    have herror : scopes.perform .leave = .error (.scope .noOuterScope) := by
      rw [perform, leave_eq_error_iff.mpr ⟨List.eq_nil_of_length_eq_zero houter, rfl⟩]
      rfl
    rw [step_of_error herror, Stack.step, hbelow]
    exact ⟨h, .refl scopes⟩
  | cons frame below =>
    rw [hbelow] at houter
    have hne : scopes.outer scopes.current ≠ [] := List.ne_nil_of_length_eq_add_one houter
    have hok : scopes.perform .leave = .ok scopes.closed := by
      rw [perform, leave_of_outer_ne_nil hne]
      rfl
    rw [step_of_ok hok, Stack.step, hbelow]
    exact ⟨h.closed hbelow, .closed h.linked hne⟩

/-- The same names are taken, and a variable of a new name goes into the top frame. -/
theorem Mirrors.step_declareVariable (h : scopes.Mirrors stack) (token : Token) (type : Ty) :
    (scopes.step (.declareVariable token type)).Mirrors
        (stack.step (.declareVariable token type)) ∧
      Keeps scopes (scopes.step (.declareVariable token type)) := by
  have hvisible := h.hasVariable_eq token.text
  cases hheld : stack.hasVariable token.text with
  | true =>
    rw [hheld] at hvisible
    have herror : scopes.perform (.declareVariable token type) =
        .error (.violation { token, violation := .duplicateVariable }) := by
      rw [perform, declareVariable_eq_error_iff.mpr ⟨hvisible, rfl⟩]
      rfl
    rw [step_of_error herror, Stack.step, if_pos hheld]
    exact ⟨h, .refl scopes⟩
  | false =>
    rw [hheld] at hvisible
    have hok : scopes.perform (.declareVariable token type) = .ok { scopes with
        arena := scopes.arena.modify scopes.current (·.addVariable ⟨token, type⟩) } := by
      rw [perform, declareVariable, if_neg (by simp [hvisible])]
      rfl
    have hframe : ∀ scope : Scope, (scope.addVariable ⟨token, type⟩).frame =
        scope.frame.addVariable ⟨token, type⟩ := fun _ => rfl
    have hplace : (scopes.chain scopes.current)[0]? = some scopes.current := rfl
    rw [step_of_ok hok, Stack.step, if_neg (by simp [hheld])]
    exact ⟨h.modify hframe (fun _ => rfl) hplace rfl,
      .modify List.mem_cons_self (fun _ => rfl) (fun _ => rfl)⟩

/-- A function goes into the frame at the height of the scope it is declared in. -/
theorem Mirrors.step_declareFunction (h : scopes.Mirrors stack) (symbol : FunctionSymbol)
    (outward : Nat) :
    (scopes.step (.declareFunction symbol outward)).Mirrors
        (stack.step (.declareFunction symbol outward)) ∧
      Keeps scopes (scopes.step (.declareFunction symbol outward)) := by
  have hframes := stack.frames_declareFunction symbol outward
  cases hplace : (scopes.chain scopes.current)[outward]? with
  | none =>
    have hok : scopes.perform (.declareFunction symbol outward) = .ok scopes := by
      simp only [perform, hplace]
    have hlength : stack.frames.length ≤ outward := by
      rw [← h.chain_length]
      exact List.getElem?_eq_none_iff.mp hplace
    rw [List.modify_eq_self hlength] at hframes
    rw [step_of_ok hok]
    exact ⟨⟨h.linked, h.frames_eq.trans hframes.symm⟩, .refl scopes⟩
  | some id =>
    have hok : scopes.perform (.declareFunction symbol outward) =
        .ok (scopes.declareFunction symbol id) := by
      simp only [perform, hplace]
    have hframe : ∀ scope : Scope, (scope.addFunction symbol).frame =
        scope.frame.addFunction symbol := fun _ => rfl
    rw [step_of_ok hok]
    exact ⟨h.modify hframe (fun _ => rfl) hplace hframes,
      .modify (List.mem_of_getElem? hplace) (fun _ => rfl) (fun _ => rfl)⟩

/-- An operation does to the scopes what it does to the stack. -/
theorem Mirrors.step (h : scopes.Mirrors stack) (move : Move) :
    (scopes.step move).Mirrors (stack.step move) ∧ Keeps scopes (scopes.step move) := by
  cases move with
  | enter kind => exact h.step_enter kind
  | leave => exact h.step_leave
  | declareVariable token type => exact h.step_declareVariable token type
  | declareFunction symbol outward => exact h.step_declareFunction symbol outward

/-- The last operation starts where the others have led. -/
theorem after_concat (moves : List Move) (move : Move) :
    after (moves ++ [move]) = (after moves).step move :=
  List.foldl_concat ..

/-- After any operations the arena mirrors the stack. -/
theorem mirrors_after (moves : List Move) : (after moves).Mirrors (Stack.after moves) := by
  induction moves using List.reverseRecOn with
  | nil => exact .initial
  | append_singleton moves move ih =>
    have hstack : Stack.after (moves ++ [move]) = (Stack.after moves).step move :=
      List.foldl_concat ..
    rw [after_concat, hstack]
    exact (ih.step move).1

/-- Further operations keep what they have to. -/
theorem keeps_after (moves further : List Move) :
    Keeps (after moves) (after (moves ++ further)) := by
  induction further using List.reverseRecOn with
  | nil =>
    rw [List.append_nil]
    exact .refl _
  | append_singleton further move ih =>
    rw [← List.append_assoc, after_concat]
    exact ih.trans ((mirrors_after _).step move).2

end Scopes

/-! ## The whole -/

namespace Scopes

/-- In the current scope everything looks as it does on top of the stack, and the same operations
fail. -/
structure Shows (scopes : Scopes) (stack : Stack) : Prop where
  depth_eq : scopes.depth = stack.below.length
  hasVariable_eq : ∀ name, scopes.hasVariable name scopes.current = stack.hasVariable name
  hasFunction_eq : ∀ name, scopes.hasFunction name scopes.current = stack.hasFunction name
  findFunction?_eq_some_iff : ∀ name symbol,
    scopes.findFunction? name scopes.current = some symbol ↔ stack.Finds name symbol
  allVariables_eq : scopes.allVariables scopes.current = stack.frames.flatMap (·.vars)
  allFunctions_eq : scopes.allFunctions scopes.current = stack.frames.flatMap (·.functions)
  enter_eq_error_iff : ∀ kind error, scopes.enter kind = .error error ↔
    (∀ block ∈ kind, block ∉ ScopeKind.blocks) ∧ error = .cannotOpen kind
  leave_eq_error_iff : ∀ error, scopes.leave = .error error ↔
    stack.below = [] ∧ error = .noOuterScope
  declareVariable_eq_error_iff : ∀ token type error,
    scopes.declareVariable token type = .error error ↔
      stack.hasVariable token.text = true ∧ error = { token, violation := .duplicateVariable }

/-- What is mirrored looks the same. -/
theorem Mirrors.shows {scopes : Scopes} {stack : Stack} (h : scopes.Mirrors stack) :
    scopes.Shows stack where
  depth_eq := h.depth_eq
  hasVariable_eq := h.hasVariable_eq
  hasFunction_eq := h.hasFunction_eq
  findFunction?_eq_some_iff _ _ := h.findFunction?_eq_some_iff
  allVariables_eq := h.allVariables_eq
  allFunctions_eq := h.allFunctions_eq
  enter_eq_error_iff _ _ := Scopes.enter_eq_error_iff
  leave_eq_error_iff error := by
    have hlength : (scopes.outer scopes.current).length = stack.below.length := h.depth_eq
    rw [Scopes.leave_eq_error_iff, ← List.length_eq_zero_iff, hlength, List.length_eq_zero_iff]
  declareVariable_eq_error_iff token _ _ := by
    rw [Scopes.declareVariable_eq_error_iff, h.hasVariable_eq]

/-- After any operations on the global scope, declarations in scopes around the current one
included, the scopes look like a plain stack on which the same operations have been done; one that
fails changes nothing. Scopes are known by their places in the arena: a new one comes at its end,
keeps its place, and comes after the scope directly around it. The names of the variables seen in
the current scope are different, and the record of a scope that is closed never changes again. -/
theorem arena_shows_stack (moves : List Move) :
    (after moves).Shows (Stack.after moves) ∧
    (∀ move error, (after moves).perform move = .error error →
      after (moves ++ [move]) = after moves) ∧
    (after moves).Linked ∧
    (∀ kind opened, (after moves).enter kind = .ok opened →
      opened.current = (after moves).arena.size ∧
        opened.arena.size = (after moves).arena.size + 1) ∧
    (((after moves).allVariables (after moves).current).map (·.name)).Nodup ∧
    ∀ further, Keeps (after moves) (after (moves ++ further)) := by
  have hmirrors := mirrors_after moves
  refine ⟨hmirrors.shows, fun move error herror => ?_, hmirrors.linked,
    fun kind opened hopened => ?_, ?_, keeps_after moves⟩
  · rw [after_concat, step_of_error herror]
  · cases kind with
    | none => cases hopened
    | some kind =>
      obtain ⟨_, rfl⟩ := enter_eq_ok_iff.mp hopened
      exact ⟨rfl, size_opened kind _⟩
  · rw [hmirrors.allVariables_eq, List.map_flatMap]
    exact Stack.nodup_after moves

end Scopes

end Tranquility
