import Tranquility.Diagnostic.Reporter
import Tranquility.Scope.Basic

/-!
# The state of a parse

A parse reads a list of tokens from left to right. Its state holds the tokens not yet read, how many
have been read, the scopes and the diagnostics so far. Past the last token stands the end token, so
there always is a current token and a next one.
-/

namespace Tranquility

/-- The token has the kind and the text that are asked for; what is not asked for does not count. -/
def Token.fits (token : Token) (kind : Option Kind) (text : Option String) : Bool :=
  kind.all (· = token.kind) && text.all (· = token.text)

/-- Why the token cannot be read where a kind and a text are asked for: the kind is looked at first,
then the text, and the end of the input can never be read. -/
def Token.refusal? (token : Token) (kind : Option Kind) (text : Option String) :
    Option Violation :=
  match kind.filter (· ≠ token.kind), text.filter (· ≠ token.text) with
  | some kind, _ => some (.expectedKind kind)
  | none, some text => some (.expectedText text)
  | none, none => if token.kind = .endOfInput then some .endOfInput else none

/-- The scopes after a token has been read: a left brace opens a scope of the kind given, a right
brace closes the current one, and no other token changes them. -/
def Scopes.pass (scopes : Scopes) (token : Token) (opens : Option ScopeKind) :
    Except ScopeError Scopes :=
  match token.kind with
  | .leftBrace => scopes.enter opens
  | .rightBrace => scopes.leave
  | _ => .ok scopes

namespace Grammar

/-- Where a parse stands. -/
structure State where
  /-- The tokens not yet read. -/
  rest : List Token
  /-- The number of tokens read. -/
  position : Nat
  /-- The token that stands for the end of the list. -/
  endToken : Token
  /-- The end token is of the kind that says so. -/
  kind_endToken : endToken.kind = .endOfInput
  /-- The scopes opened so far. -/
  scopes : Scopes
  /-- The diagnostics so far. -/
  reporter : Reporter
  deriving DecidableEq, Repr

namespace State

/-- The state before the first of the tokens, with the diagnostics of earlier stages. -/
def ofTokens (tokens : List Token) (reporter : Reporter) : State :=
  ⟨tokens, 0, .endOf tokens, Token.kind_endOf tokens, .initial, reporter⟩

/-- The token to be read. -/
def current (state : State) : Token :=
  state.rest.headD state.endToken

/-- The token after the one to be read. -/
def next (state : State) : Token :=
  state.rest.tail.headD state.endToken

/-- The current token is of a kind. -/
def sees (state : State) (kind : Kind) : Bool :=
  state.current.kind = kind

/-- The token after the current one is of a kind. -/
def seesNext (state : State) (kind : Kind) : Bool :=
  state.next.kind = kind

/-- The current token is a keyword. -/
def seesKeyword (state : State) (text : String) : Bool :=
  state.current.isKeyword text

/-- The current token ends the input. -/
def atEnd (state : State) : Bool :=
  state.sees .endOfInput

/-- A variable of the name is visible from the current scope. -/
def hasVariable (state : State) (name : String) : Bool :=
  state.scopes.hasVariable name state.scopes.current

/-- The function that a name means in the current scope. -/
def findFunction? (state : State) (name : String) : Option FunctionSymbol :=
  state.scopes.findFunction? name state.scopes.current

end State

end Grammar

end Tranquility
