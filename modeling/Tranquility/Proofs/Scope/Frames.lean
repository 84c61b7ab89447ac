import Tranquility.Scope.Basic
import Mathlib.Data.List.Induction
import Mathlib.Data.List.Nodup

/-!
# A stack of frames

What scopes are to whoever opens and closes them, declares names in them and looks names up: frames
on top of each other, of which closing a scope takes the top away with all that has been declared in
it. A name is taken while any frame of the stack has a variable of it, so that no two variables on a
stack share a name.
-/

namespace Tranquility

/-! ## Frames -/

/-- What a scope on a stack holds. -/
structure Frame where
  /-- What the scope belongs to. -/
  kind : ScopeKind
  /-- The functions declared in it, in order. -/
  functions : List FunctionSymbol
  /-- The variables declared in it, in order. -/
  vars : List VariableSymbol

namespace Frame

/-- A frame in which nothing has been declared. -/
def empty (kind : ScopeKind) : Frame :=
  ⟨kind, [], []⟩

/-- The frame holds a function of the name. -/
def hasFunction (name : String) (frame : Frame) : Bool :=
  frame.functions.any (·.name = name)

/-- The frame holds a variable of the name. -/
def hasVariable (name : String) (frame : Frame) : Bool :=
  frame.vars.any (·.name = name)

/-- The symbol is the latest declaration of a function of the name in the frame. -/
def Latest (name : String) (symbol : FunctionSymbol) (frame : Frame) : Prop :=
  symbol.name = name ∧ ∃ earlier later, frame.functions = earlier ++ symbol :: later ∧
    ∀ other ∈ later, other.name ≠ name

/-- The frame with a function after those it holds. -/
def addFunction (symbol : FunctionSymbol) (frame : Frame) : Frame :=
  { frame with functions := frame.functions ++ [symbol] }

/-- The frame with a variable after those it holds. -/
def addVariable (symbol : VariableSymbol) (frame : Frame) : Frame :=
  { frame with vars := frame.vars ++ [symbol] }

end Frame

/-- The kinds of scopes that can be opened. -/
def ScopeKind.blocks : List ScopeKind :=
  [function, loop, ifBranch, elseBranch]

/-- The kinds of blocks are the kinds that open a scope. -/
theorem ScopeKind.mem_blocks_iff {kind : ScopeKind} : kind ∈ blocks ↔ kind.opens = true := by
  cases kind <;> simp [blocks, opens]

/-- An operation on scopes. -/
inductive Move where
  /-- Open a scope in the current one; a kind may be missing. -/
  | enter (kind : Option ScopeKind)
  /-- Close the current scope. -/
  | leave
  /-- Declare a variable in the current scope. -/
  | declareVariable (token : Token) (type : Ty)
  /-- Declare a function in the current scope, or in the one that stands so many scopes around it.
  Beyond the global scope there is nothing to declare it in. -/
  | declareFunction (symbol : FunctionSymbol) (outward : Nat)

/-! ## The stack -/

/-- Frames on top of each other. There is always one, that of the global scope at the bottom. -/
structure Stack where
  /-- The frame of the current scope. -/
  top : Frame
  /-- The frames of the scopes around it, nearest first. -/
  below : List Frame

namespace Stack

/-- All frames, innermost first. -/
def frames (stack : Stack) : List Frame :=
  stack.top :: stack.below

/-- The frame of the global scope alone, with the built-in functions. -/
def initial : Stack where
  top := {
    kind := .global
    functions := Builtin.functions.map fun function =>
      ⟨function.name, function.parameterCount, none⟩
    vars := [] }
  below := []

/-- A variable of the name is on the stack. -/
def hasVariable (stack : Stack) (name : String) : Bool :=
  stack.frames.any (·.hasVariable name)

/-- A function of the name is on the stack. -/
def hasFunction (stack : Stack) (name : String) : Bool :=
  stack.frames.any (·.hasFunction name)

/-- The innermost frame that holds the name decides, and in it the latest declaration. -/
def Finds (stack : Stack) (name : String) (symbol : FunctionSymbol) : Prop :=
  ∃ inner frame outer, stack.frames = inner ++ frame :: outer ∧
    (∀ other ∈ inner, other.hasFunction name = false) ∧ frame.Latest name symbol

/-- The stack after an operation; one that fails leaves it as it is. -/
def step (stack : Stack) : Move → Stack
  | .enter (some kind) =>
    if kind ∈ ScopeKind.blocks then ⟨.empty kind, stack.frames⟩ else stack
  | .enter none => stack
  | .leave =>
    match stack.below with
    | [] => stack
    | frame :: below => ⟨frame, below⟩
  | .declareVariable token type =>
    if stack.hasVariable token.text then stack
    else { stack with top := stack.top.addVariable ⟨token, type⟩ }
  | .declareFunction symbol 0 => { stack with top := stack.top.addFunction symbol }
  | .declareFunction symbol (outward + 1) =>
    { stack with below := stack.below.modify outward (·.addFunction symbol) }

/-- The stack after some operations on the global scope alone. -/
def after (moves : List Move) : Stack :=
  moves.foldl step initial

/-- A function is declared in the frame so far outward. -/
theorem frames_declareFunction (stack : Stack) (symbol : FunctionSymbol) (outward : Nat) :
    (stack.step (.declareFunction symbol outward)).frames =
      stack.frames.modify outward (·.addFunction symbol) := by
  cases outward <;> rfl

end Stack

/-! ## Names -/

namespace Stack

/-- The names of the variables on a stack, innermost frame first. -/
def names (stack : Stack) : List String :=
  stack.frames.flatMap fun frame => frame.vars.map (·.name)

/-- A variable of a name is on the stack exactly if its name is. -/
theorem hasVariable_iff {stack : Stack} {name : String} :
    stack.hasVariable name = true ↔ name ∈ stack.names := by
  simp [hasVariable, Frame.hasVariable, names]

/-- A function that is added to a frame changes no variable. -/
theorem flatMap_vars_modify (frames : List Frame) (place : Nat) (symbol : FunctionSymbol) :
    ((frames.modify place (·.addFunction symbol)).flatMap fun frame => frame.vars.map (·.name)) =
      frames.flatMap fun frame => frame.vars.map (·.name) := by
  induction frames generalizing place with
  | nil => simp
  | cons frame frames ih =>
    cases place with
    | zero => rfl
    | succ place => exact congrArg (_ ++ ·) (ih place)

/-- A name is taken only once. -/
theorem nodup_step {stack : Stack} (h : stack.names.Nodup) (move : Move) :
    (stack.step move).names.Nodup := by
  cases move with
  | enter kind =>
    cases kind with
    | none => exact h
    | some kind =>
      rw [step]
      split
      · exact h
      · exact h
  | leave =>
    rw [step]
    split
    case h_1 => exact h
    case h_2 frame below hbelow =>
      rw [names, frames, List.flatMap_cons, hbelow] at h
      exact (List.nodup_append.mp h).2.1
  | declareVariable token type =>
    rw [step]
    split
    case isTrue => exact h
    case isFalse hnew =>
      rw [hasVariable_iff, names, frames, List.flatMap_cons] at hnew
      rw [names, frames, List.flatMap_cons] at h ⊢
      show (List.map _ (stack.top.vars ++ [⟨token, type⟩]) ++ _).Nodup
      rw [List.map_append, List.map_singleton, List.append_assoc, List.singleton_append,
        List.nodup_middle]
      exact List.nodup_cons.mpr ⟨hnew, h⟩
  | declareFunction symbol outward =>
    rw [names, frames_declareFunction, flatMap_vars_modify]
    exact h

/-- Whatever the operations, the names of the variables on the stack are distinct. -/
theorem nodup_after (moves : List Move) : (after moves).names.Nodup := by
  induction moves using List.reverseRecOn with
  | nil => exact List.nodup_nil
  | append_singleton moves move ih =>
    rw [after, List.foldl_concat]
    exact nodup_step ih move

end Stack

end Tranquility
