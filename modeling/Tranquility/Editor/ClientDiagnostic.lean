import Tranquility.Analysis
import Tranquility.Text.Units

/-!
# Diagnostics for an editor

An editor gets a diagnostic with the label in its message and with columns in units of UTF-16. The
columns are converted by the editor's lines, of which there can be more than the language counts.
-/

namespace Tranquility.Editor

/-- A diagnostic as an editor shows it. -/
structure ClientDiagnostic where
  /-- What the message is about. -/
  range : Range
  /-- How grave the matter is. -/
  severity : Severity
  /-- The message with the label of its severity. -/
  message : String
  deriving DecidableEq, Repr

namespace ClientDiagnostic

/-- The name under which an editor shows all diagnostics. -/
def source : String := "tranquility"

/-- A diagnostic for an editor, its columns still in characters. -/
def ofDiagnostic (diagnostic : Diagnostic) : ClientDiagnostic :=
  ⟨diagnostic.range, diagnostic.severity, diagnostic.labelled⟩

end ClientDiagnostic

/-- A place given by line and column, with the column in units: the units of the characters before
it on its line, or of the whole line if that is shorter. A place below the last line becomes the
start of the line after it. -/
def clientPlace (lines : List (List Char)) (line column : Int) : Int × Int :=
  match lines[line.toNat]? with
  | some text => (line, Text.units (text.take column.toNat))
  | none => (lines.length, 0)

/-- A range with its columns in units. -/
def clientRange (lines : List (List Char)) (range : Range) : Range :=
  let start := clientPlace lines range.startLine range.startColumn
  let stop := clientPlace lines range.endLine range.endColumn
  ⟨start.1, start.2, stop.1, stop.2⟩

/-- The diagnostics of a text as an editor shows them. -/
def clientDiagnostics (text : String) (analysis : Analysis) : List ClientDiagnostic :=
  let lines := Text.editorLines text.toList
  analysis.diagnostics.map fun diagnostic =>
    let shown := ClientDiagnostic.ofDiagnostic diagnostic
    { shown with range := clientRange lines shown.range }

end Tranquility.Editor
