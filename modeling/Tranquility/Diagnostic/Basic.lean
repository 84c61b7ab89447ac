import Tranquility.Token.Basic

/-!
# Diagnostics

A diagnostic is a message with a severity, attached to the range of one token. Columns count
characters, as those of tokens do.
-/

namespace Tranquility

/-- How grave a diagnostic is. -/
inductive Severity where
  | error
  | warning
  | information
  | hint
  deriving DecidableEq, Repr

namespace Severity

/-- The number that editors know a severity by. -/
def number : Severity → Nat
  | error => 1
  | warning => 2
  | information => 3
  | hint => 4

/-- The severity of a number. -/
def ofNumber? : Nat → Option Severity
  | 1 => some error
  | 2 => some warning
  | 3 => some information
  | 4 => some hint
  | _ => none

/-- The words that open a message of each severity. -/
def label : Severity → String
  | error => "❌ Error: "
  | warning => "⚠️ Warning: "
  | information => "🔵 Info: "
  | hint => "❔ Hint: "

/-- The number of a severity stands for it. -/
@[simp] theorem ofNumber?_number (severity : Severity) :
    ofNumber? severity.number = some severity := by
  cases severity <;> rfl

end Severity

/-- A message about a range of the source. -/
structure Diagnostic where
  /-- What the message is about. -/
  range : Range
  /-- The words of the message, without the label of its severity. -/
  message : String
  /-- How grave the matter is. -/
  severity : Severity
  deriving DecidableEq, Repr

namespace Diagnostic

/-- The diagnostic of a message about a token. -/
def atToken (token : Token) (message : String) (severity : Severity) : Diagnostic :=
  ⟨token.range, message, severity⟩

/-- The diagnostic is an error. -/
def isError (diagnostic : Diagnostic) : Bool :=
  diagnostic.severity = .error

/-- The diagnostic is a warning. -/
def isWarning (diagnostic : Diagnostic) : Bool :=
  diagnostic.severity = .warning

/-- The message with the label of its severity. -/
def labelled (diagnostic : Diagnostic) : String :=
  diagnostic.severity.label ++ diagnostic.message

/-- A diagnostic as a line of a report: where it starts, counted from one, and what it says. -/
def line (diagnostic : Diagnostic) : String :=
  let range := diagnostic.range
  s!"{range.startLine + 1}:{range.startColumn + 1}: {diagnostic.labelled}"

end Diagnostic

end Tranquility
