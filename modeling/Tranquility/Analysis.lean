import Tranquility.Grammar.Program
import Tranquility.Text.Line

/-!
# Checking a source

A check reads a whole source and collects what is wrong with it. Each token that the language does
not know is an error; then the tokens are read as a program up to the first violation, which is an
error too unless its token has a diagnostic already. Warnings come in the order of reading.
-/

namespace Tranquility

/-- The error for the text of a token that the language does not know. Habits from other languages
get an explanation; a final newline of the text does not count. -/
def unrecognizedMessage (text : String) : String :=
  match Text.dropFinalNewline text.toList with
  | [] => s!"Unrecognized token \"{text}\""
  | ['='] =>
    "Equal signs are not used in Tranquility. To store a value into a memory address, " ++
      "use <address> \":\" <value>"
  | shown =>
    if shown.all (· == ';') then
      "Semicolons are not allowed in Tranquility. Simply end statements with a new line."
    else if shown.all (· == '\r') then
      "Carriage returns are not allowed in Tranquility. Save the file with LF line endings."
    else s!"Unrecognized token \"{text}\""

/-- The path has the extension `.t` or `.tranq`, in letters of any case; a final newline of the path
does not count. -/
def isSourcePath (path : String) : Bool :=
  let name := (Text.dropFinalNewline path.toList).map Char.toLower
  ".t".toList.isSuffixOf name || ".tranq".toList.isSuffixOf name

/-- Report every token that the language does not know. -/
def Reporter.reportUnrecognized (reporter : Reporter) (tokens : List Token) : Reporter :=
  (tokens.filter (·.kind = .unrecognized)).foldl
    (fun reporter token => reporter.report token (unrecognizedMessage token.text) .error) reporter

/-- What a check has found. -/
structure Analysis where
  /-- The tokens of the source. -/
  tokens : List Token
  /-- The program, unless there was a violation. -/
  program : Option Program
  /-- The diagnostics in the order of their arrival. -/
  diagnostics : List Diagnostic

namespace Analysis

/-- The diagnostics that are errors. -/
def errors (analysis : Analysis) : List Diagnostic :=
  analysis.diagnostics.filter (·.isError)

/-- The source is a program without errors. -/
def ok (analysis : Analysis) : Bool :=
  analysis.program.isSome && analysis.errors.isEmpty

/-- Read numbered tokens as a program and collect the diagnostics. -/
def ofTokens (tokens : List Token) : Except Error Analysis :=
  let reporter := Reporter.empty.reportUnrecognized tokens
  match Grammar.program.run (.ofTokens tokens reporter) with
  | .ok program state => .ok ⟨tokens, some program, state.reporter.diagnostics⟩
  | .error (.violation error) state =>
    let reporter := state.reporter.report error.token error.message error.severity
    .ok ⟨tokens, none, reporter.diagnostics⟩
  | .error error _ => .error error

end Analysis

/-- Check a source: its tokens, its program and all diagnostics. -/
def check (source : String) : Except Error Analysis :=
  match tokenize source with
  | .ok tokens => Analysis.ofTokens tokens
  | .error error => .error (.lexical error)

end Tranquility
