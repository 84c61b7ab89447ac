import Tranquility.Grammar.State

/-!
# Rules of the grammar

A rule reads tokens and yields a value, or ends in an error; in both cases it leaves the state as it
has got it. Every rule is made of a few steps: look at the state, read one token, declare a name,
warn, reject, and repeat. Only reading a token moves on, and a refused token moves nothing.
-/

namespace Tranquility.Grammar

/-- A part of the grammar, as what it does to the state of a parse. -/
abbrev Rule := EStateM Error State

/-- Look at the state of the parse. -/
def observe {α : Type} (view : State → α) : Rule α := do
  return view (← get)

/-- End in a violation at a token. -/
def reject {α : Type} (token : Token) (violation : Violation) : Rule α :=
  throw (.violation { token, violation })

/-- End in a violation at a token unless a condition holds. -/
def require (condition : Bool) (token : Token) (violation : Violation) : Rule Unit :=
  if condition then pure () else reject token violation

/-- Record a warning about a token. -/
def warn (token : Token) (message : String) : Rule Unit :=
  modify fun state => { state with reporter := state.reporter.report token message .warning }

/-- Read the current token if it has the kind and the text that are asked for; `opens` is the kind
of scope that a left brace opens. -/
def advance (kind : Option Kind) (text : Option String) (opens : Option ScopeKind) :
    Rule Token := do
  let state ← get
  let token := state.current
  match token.refusal? kind text, state.scopes.pass token opens with
  | some violation, _ => reject token violation
  | none, .error error => throw (.scope error)
  | none, .ok scopes =>
    set { state with scopes, rest := state.rest.tail, position := state.position + 1 }
    return token

/-- Read the current token, whatever it is. -/
def take : Rule Token :=
  advance none none none

/-- Read a token of a kind. -/
def expect (kind : Kind) : Rule Token :=
  advance (some kind) none none

/-- Read a keyword. -/
def expectKeyword (text : String) : Rule Token :=
  advance (some .keyword) (some text) none

/-- Read a token of a kind and drop it. -/
def skip (kind : Kind) : Rule Unit :=
  discard (expect kind)

/-- Read a keyword and drop it. -/
def skipKeyword (text : String) : Rule Unit :=
  discard (expectKeyword text)

/-- Read a left brace that opens a scope of a kind. -/
def openScope (kind : ScopeKind) : Rule Unit :=
  discard (advance (some .leftBrace) none (some kind))

/-- Declare a variable in the current scope. -/
def declareVariable (token : Token) (type : Ty) : Rule Unit := do
  let state ← get
  match state.scopes.declareVariable token type with
  | .ok scopes => set { state with scopes }
  | .error error => throw (.violation error)

/-- Declare variables of any type in the current scope, in order. -/
def declareVariables : List Token → Rule Unit
  | [] => pure ()
  | token :: tokens => do
    declareVariable token .any
    declareVariables tokens

/-- Declare a function in a scope. -/
def declareFunction (function : FunctionSymbol) (id : Nat) : Rule Unit :=
  modify fun state => { state with scopes := state.scopes.declareFunction function id }

/-- Take a step while the state asks for one, at most `bound` times. -/
def iterate {α : Type} (continues : State → Bool) (step : α → Rule α) :
    (bound : Nat) → α → Rule α
  | 0, value => pure value
  | bound + 1, value => do
    if ← observe continues then
      let value ← step value
      iterate continues step bound value
    else
      return value

/-- Take a step while the state asks for one. Every step reads a token, so there are never more
steps than tokens left. -/
def whilst {α : Type} (continues : State → Bool) (step : α → Rule α) (value : α) :
    Rule α := do
  let bound ← observe (·.rest.length + 1)
  iterate continues step bound value

/-- Add items to a list while the state asks for one. -/
def collect {α : Type} (continues : State → Bool) (item : Rule α) (items : List α) :
    Rule (List α) :=
  whilst continues (fun items => return items ++ [← item]) items

/-- The items of a list, or none if the current token is of the kind that ends the list. -/
def unlessAt {α : Type} (stop : Kind) (items : Rule (List α)) : Rule (List α) := do
  if ← observe (·.sees stop) then pure [] else items

/-- One or more items with commas between them. -/
def commaSeparated {α : Type} (item : Rule α) : Rule (List α) := do
  let first ← item
  collect (·.sees .comma) (do skip .comma; item) [first]

end Tranquility.Grammar
