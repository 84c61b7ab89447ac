import Tranquility.Analysis
import Tranquility.FileError
import Tranquility.Tree.Outline

/-!
# The command line

The command checks a file and prints one line for each diagnostic, or lists the tokens of a file, or
explains itself. What it does is a function of its arguments and of the files it can read; only the
program around it touches the system.
-/

namespace Tranquility.CommandLine

/-- What the arguments ask for. -/
inductive Command where
  /-- Print the usage. -/
  | help
  /-- Serve an editor on the standard streams. -/
  | serve
  /-- List the tokens of a file. -/
  | tokens (path : String)
  /-- Check a file. -/
  | check (path : String)
  /-- The arguments make no sense. -/
  | misuse
  deriving DecidableEq, Repr

/-- What a list of arguments asks for. -/
def Command.ofArguments : List String → Command
  | ["-h"] | ["--help"] => .help
  | ["--server"] => .serve
  | ["--tokens", path] => .tokens path
  | [path] => if "-".toList.isPrefixOf path.toList then .misuse else .check path
  | _ => .misuse

/-- What surrounds the command. -/
structure Environment where
  /-- The bytes of the file at each path, or why there is none. -/
  lookup : String → Except FileError ByteArray
  /-- Whether a check also lists the tokens and the program. -/
  debug : Bool

/-- Why a command ends before its time. -/
inductive Interruption where
  /-- The bytes of the file are no UTF-8. -/
  | notUtf8
  /-- The check itself has failed. -/
  | failure (error : Error)

/-- What a command has printed, and its exit code unless it was interrupted. -/
structure Outcome where
  /-- The text on the standard output. -/
  output : String
  /-- The exit code, or why there is none. -/
  exit : Except Interruption UInt32

/-- The lines that explain the command. -/
def usage : List String := [
  "",
  "Tranquility Checker",
  "",
  "Usage:",
  "    tranq <script.tranq>",
  "    tranq --tokens <script.tranq>",
  "    tranq --server",
  "",
  "Arguments:",
  "    <script.tranq>",
  "        Path to a Tranquility source file (.t or .tranq) to check.",
  "",
  "Options:",
  "    --tokens",
  "        Print the token stream instead of checking the file.",
  "    --server",
  "        Start the language server on stdin/stdout.",
  "    -h, --help",
  "        Show this help message and exit."]

/-- Lines of output, each with its newline. -/
def printed (lines : List String) : String :=
  String.join (lines.map (· ++ "\n"))

/-- The line for a token in a listing: its place counted from one, its kind and its text. -/
def tokenLine (token : Token) : String :=
  s!"{token.line + 1}:{token.column + 1}\t{token.kind.name}\t{Text.quoted token.text}"

/-- The tokens and the program of a check, as a debug run prints them. -/
def debugLines (analysis : Analysis) : List String :=
  ["", "Tokens:", ""] ++ analysis.tokens.map ("    " ++ ·.outline) ++
    ["", "AST:", "", (analysis.program.map (·.outline)).getD Outline.absent, " "]

/-- The line for a diagnostic about a file. -/
def diagnosticLine (path : String) (diagnostic : Diagnostic) : String :=
  path ++ ":" ++ diagnostic.line

/-- Run a command on the text of a file, or say why there is none. -/
def withSource (environment : Environment) (path : String) (run : String → Outcome) : Outcome :=
  match environment.lookup path with
  | .error error => ⟨printed [error.message path], .ok 1⟩
  | .ok bytes =>
    match String.fromUTF8? bytes with
    | some source => run source
    | none => ⟨"", .error .notUtf8⟩

/-- Check a source and print its diagnostics; the exit code tells whether one is an error. -/
def checkSource (debug : Bool) (path source : String) : Outcome :=
  match check source with
  | .error error => ⟨"", .error (.failure error)⟩
  | .ok analysis =>
    let listing := if debug then debugLines analysis else []
    ⟨printed (listing ++ analysis.diagnostics.map (diagnosticLine path)),
      .ok (if analysis.errors.isEmpty then 0 else 1)⟩

/-- Print the tokens of a source. -/
def listTokens (source : String) : Outcome :=
  match tokenize source with
  | .error error => ⟨"", .error (.failure (.lexical error))⟩
  | .ok tokens => ⟨printed (tokens.map tokenLine), .ok 0⟩

/-- Run a command. To serve an editor is up to the program around it and prints nothing here. -/
def run (environment : Environment) : Command → Outcome
  | .help => ⟨printed usage, .ok 0⟩
  | .serve => ⟨"", .ok 0⟩
  | .tokens path => withSource environment path listTokens
  | .check path => withSource environment path (checkSource environment.debug path)
  | .misuse => ⟨printed usage, .ok 1⟩

end Tranquility.CommandLine
