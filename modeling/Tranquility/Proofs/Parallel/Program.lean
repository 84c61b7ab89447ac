import Tranquility.Proofs.Parallel.Statement

/-!
# Programs side by side

The two runs of a program read trees that are the same without places, or fail side by side. Names
are declared in both as they are read, so that the scopes are the same without places all along.
-/

namespace Tranquility

/-- The functions are the same without the places of their tokens. -/
def FunctionDecl.Like (function function' : FunctionDecl) : Prop :=
  function.bare = function'.bare

/-- The programs are the same without the places of their tokens. -/
def Program.Like (program program' : Program) : Prop :=
  program.bare = program'.bare

/-- The property of scopes is kept by every step of a parse, where names are declared as well. -/
structure Scopes.Enduring (keeps : Scopes → Prop) : Prop extends Lasting keeps where
  declared : ∀ {scopes : Scopes}, keeps scopes → ∀ token, keeps (scopes.declared [token])
  declareFunction : ∀ {scopes : Scopes}, keeps scopes → ∀ symbol id,
    keeps (scopes.declareFunction symbol id)

/-- No property of scopes is carried along. -/
def Scopes.Unconstrained (_ : Scopes) : Prop :=
  True

/-- What holds of all scopes is kept by every step. -/
theorem Scopes.enduring_unconstrained : Scopes.Enduring Scopes.Unconstrained where
  opened _ _ := trivial
  closed _ := trivial
  markLoop _ := trivial
  declared _ _ := trivial
  declareFunction _ _ _ := trivial

/-- The tokens are names that go together. -/
def Pairing.Name (pairing : Pairing) (a b : Token) : Prop :=
  pairing.token a b ∧ a.kind = .identifier

namespace Pairing.Name

variable {pairing : Pairing} {a b : Token}

/-- A name is no newline. -/
theorem ne_newline (h : pairing.Name a b) : a.kind ≠ .newline := by
  rw [h.2]
  decide

/-- Names that go together are the same without their places. -/
theorem bare_eq (h : pairing.Name a b) : a.bare = b.bare :=
  Pairing.bare_eq h.1 h.ne_newline

theorem text_eq (h : pairing.Name a b) : a.text = b.text :=
  pairing.text_eq h.1 h.ne_newline

/-- Names that go together one by one are the same without their places. -/
theorem map_bare_eq {tokens tokens' : List Token} (h : List.Forall₂ pairing.Name tokens tokens') :
    tokens.map Token.bare = tokens'.map Token.bare := by
  induction h with
  | nil => rfl
  | cons hfirst _ ih => rw [List.map_cons, List.map_cons, hfirst.bare_eq, ih]

/-- Lines of names that go together are the same without places. -/
theorem map_map_bare_eq {lines lines' : List (List Token)}
    (h : List.Forall₂ (List.Forall₂ pairing.Name) lines lines') :
    lines.map (·.map Token.bare) = lines'.map (·.map Token.bare) := by
  induction h with
  | nil => rfl
  | cons hfirst _ ih => rw [List.map_cons, List.map_cons, map_bare_eq hfirst, ih]

end Pairing.Name

/-- Functions that are alike one by one are the same without places. -/
theorem FunctionDecl.map_bare_eq {functions functions' : List FunctionDecl}
    (h : List.Forall₂ Like functions functions') :
    functions.map bare = functions'.map bare := by
  induction h with
  | nil => rfl
  | cons hfirst _ ih => rw [List.map_cons, List.map_cons, hfirst, ih]

namespace Grammar

variable {pairing : Pairing} {keeps : Scopes → Prop}

/-! ## Declarations -/

/-- Names are read without a change of scopes. -/
theorem identifiers_parallel :
    Parallel pairing keeps (List.Forall₂ pairing.Name) identifiers identifiers :=
  commaSeparated_parallel (expect_parallel rfl)

/-- A name is in use on both sides or on neither. -/
theorem declareVariable_parallel (henduring : Scopes.Enduring keeps) {a b : Token}
    (h : pairing.Name a b) :
    Parallel pairing keeps (fun _ _ => True) (declareVariable a .any) (declareVariable b .any) := by
  intro s t hstate
  have hvisible := hstate.hasVariable_eq b.text
  rw [State.hasVariable, State.hasVariable] at hvisible
  rw [run_declareVariable, run_declareVariable, h.text_eq, hvisible]
  split
  case isTrue => exact .error (.violation h.1 .duplicateVariable .error) hstate
  case isFalse =>
    refine .ok trivial (hstate.settled ?_ (henduring.declared hstate.kept a))
    rw [Scopes.declared_bare, Scopes.declared_bare, hstate.scopes, List.map_singleton,
      List.map_singleton, h.bare_eq]

/-- Names are declared side by side up to the first that is in use. -/
theorem declareVariables_parallel (henduring : Scopes.Enduring keeps)
    {tokens tokens' : List Token} (h : List.Forall₂ pairing.Name tokens tokens') :
    Parallel pairing keeps (fun _ _ => True) (declareVariables tokens)
      (declareVariables tokens') := by
  induction h with
  | nil => exact .pure trivial
  | cons hfirst _ ih => exact (declareVariable_parallel henduring hfirst).bind fun _ _ _ => ih

theorem variableLine_parallel (henduring : Scopes.Enduring keeps) :
    Parallel pairing keeps (List.Forall₂ pairing.Name) variableLine variableLine := by
  refine (skipKeyword_parallel "var").bind fun _ _ _ => ?_
  refine identifiers_parallel.bind fun names names' hnames => ?_
  refine (declareVariables_parallel henduring hnames).bind fun _ _ _ => ?_
  exact (skip_parallel rfl).bind fun _ _ _ => .pure hnames

/-- Both sides have as many lines of variables. -/
theorem variableLines_parallel (henduring : Scopes.Enduring keeps) :
    Parallel pairing keeps (List.Forall₂ (List.Forall₂ pairing.Name)) variableLines
      variableLines :=
  collect_parallel (fun _ _ h => h.seesKeyword_eq "var") (variableLine_parallel henduring) .nil

/-! ## Functions -/

/-- Functions are declared side by side if they are the same without the places of their names. -/
theorem declareFunction_parallel (henduring : Scopes.Enduring keeps)
    {symbol symbol' : FunctionSymbol} (h : symbol.bare = symbol'.bare) (scope : Nat) :
    Parallel pairing keeps (fun _ _ => True) (declareFunction symbol scope)
      (declareFunction symbol' scope) := by
  intro s t hstate
  refine .ok trivial (hstate.settled ?_ (henduring.declareFunction hstate.kept symbol scope))
  rw [Scopes.declareFunction_bare, Scopes.declareFunction_bare, hstate.scopes, h]

/-- The heads of functions have names and parameters that go together. -/
theorem functionHead_parallel (henduring : Scopes.Enduring keeps) :
    Parallel pairing keeps
      (fun head head' => pairing.Name head.1 head'.1 ∧
        List.Forall₂ pairing.Name head.2 head'.2) functionHead functionHead := by
  refine (skipKeyword_parallel "fun").bind fun _ _ _ => ?_
  refine Parallel.bind (expect_parallel rfl) fun name name' (hname : pairing.Name name name') => ?_
  rw [hname.text_eq]
  refine .observe (fun _ _ h => h.allowsFunction_eq name'.text) fun allowed => ?_
  refine (Parallel.require hname.1 allowed .duplicateFunction).bind fun _ _ _ => ?_
  refine (skip_parallel rfl).bind fun _ _ _ => ?_
  refine (unlessAt_parallel .rightParen identifiers_parallel).bind
    fun parameters parameters' hparameters => ?_
  refine (skip_parallel rfl).bind fun _ _ _ => ?_
  refine .observe (fun _ _ h => h.scope_eq) fun enclosing => ?_
  refine (openScope_parallel henduring.toLasting .function).bind fun _ _ _ => ?_
  refine (declareFunction_parallel henduring ?_ enclosing).bind fun _ _ _ => ?_
  · simp only [FunctionSymbol.bare, Option.map_some, hname.bare_eq, hparameters.length_eq]
  refine (declareVariables_parallel henduring hparameters).bind fun _ _ _ => ?_
  exact (skip_parallel rfl).bind fun _ _ _ => .pure ⟨hname, hparameters⟩

/-- What stands in functions goes together, line by line and statement by statement. -/
theorem functionInside_parallel (henduring : Scopes.Enduring keeps) :
    Parallel pairing keeps
      (fun inside inside' => List.Forall₂ (List.Forall₂ pairing.Name) inside.1 inside'.1 ∧
        List.Forall₂ Stmt.Like inside.2 inside'.2) functionInside functionInside := by
  refine (variableLines_parallel henduring).bind fun locals locals' hlocals => ?_
  refine (unlessAt_parallel .rightBrace (body_parallel henduring.toLasting)).bind
    fun body body' hbody => ?_
  exact (closeScope_parallel henduring.toLasting).bind fun _ _ _ => .pure ⟨hlocals, hbody⟩

/-- Functions end side by side in a newline or at the end of the input. -/
theorem functionEnd_parallel :
    Parallel pairing keeps (fun _ _ => True) functionEnd functionEnd :=
  .observe (fun _ _ h => h.atEnd_eq) fun _ => .ite (.pure trivial) (skip_parallel rfl)

theorem function_parallel (henduring : Scopes.Enduring keeps) :
    Parallel pairing keeps FunctionDecl.Like function function := by
  rw [function_eq]
  refine (functionHead_parallel henduring).bind
    fun ⟨name, parameters⟩ ⟨name', parameters'⟩ hhead => ?_
  obtain ⟨hname, hparameters⟩ := hhead
  refine (functionInside_parallel henduring).bind
    fun ⟨locals, body⟩ ⟨locals', body'⟩ hinside => ?_
  obtain ⟨hlocals, hbody⟩ := hinside
  refine functionEnd_parallel.bind fun _ _ _ => .pure ?_
  simp only [FunctionDecl.Like, FunctionDecl.bare, hname.bare_eq,
    Pairing.Name.map_bare_eq hparameters, Pairing.Name.map_map_bare_eq hlocals,
    Stmt.bareAll_eq hbody]

/-- Both sides have as many functions. -/
theorem functions_parallel (henduring : Scopes.Enduring keeps) :
    Parallel pairing keeps (List.Forall₂ FunctionDecl.Like) functions functions :=
  (function_parallel henduring).bind fun _ _ hfirst =>
    collect_parallel (fun _ _ h => h.seesKeyword_eq "fun") (function_parallel henduring)
      (.cons hfirst .nil)

/-! ## Programs -/

/-- Newlines in front of a program are skipped side by side. -/
theorem newlines_parallel :
    Parallel pairing keeps (fun _ _ => True)
      (whilst (·.sees .newline) (fun _ => skip .newline) ())
      (whilst (·.sees .newline) (fun _ => skip .newline) ()) :=
  whilst_parallel (fun _ _ h => h.sees_eq .newline)
    (fun _ _ _ s t h _ => skip_parallel rfl s t h) trivial

/-- What is said about the start of a program is the same on both sides. -/
theorem startFault_eq {s t : State} (h : Alike pairing keeps s t) :
    s.startFault = t.startFault := by
  rw [State.startFault, State.startFault, h.atEnd_eq]

/-- From states that go together a program is read or refused side by side. -/
theorem program_parallel (henduring : Scopes.Enduring keeps) :
    Parallel pairing keeps Program.Like program program := by
  refine newlines_parallel.bind fun _ _ _ => ?_
  refine (variableLines_parallel henduring).bind fun globals globals' hglobals => ?_
  refine .observeCurrent fun first first' hfirst => ?_
  rw [Alike.isKeyword_eq hfirst]
  refine .observe (fun _ _ h => startFault_eq h) fun fault => ?_
  refine (Parallel.require hfirst _ fault).bind fun _ _ _ => ?_
  refine (functions_parallel henduring).bind fun functions functions' hfunctions => ?_
  refine .observe (fun _ _ h => h.atEnd_eq) fun ended => ?_
  refine .observeCurrent fun last last' hlast => ?_
  refine (Parallel.require hlast ended .expectedFunction).bind fun _ _ _ => .pure ?_
  simp only [Program.Like, Program.bare, Pairing.Name.map_map_bare_eq hglobals,
    FunctionDecl.map_bare_eq hfunctions]

end Grammar

end Tranquility
