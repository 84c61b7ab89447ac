import Std.Data.TreeMap
import Tranquility.Editor.ClientDiagnostic
import Tranquility.Editor.Symbol
import Tranquility.Editor.Word

/-!
# The state of a language server

For every document the server keeps what its last check has found, and the symbols of its last text
that was a program, so that an edit that breaks a document does not lose them. Every check publishes
the diagnostics of the document, and a document that closes publishes that it has none. Documents
whose names have no extension of the language are not checked.
-/

namespace Tranquility.Editor

/-- The diagnostics of a document, sent to the editor in place of those sent before. -/
structure Publication where
  /-- The name of the document. -/
  uri : String
  /-- All its diagnostics. -/
  diagnostics : List ClientDiagnostic
  deriving DecidableEq, Repr

/-- What the server knows about the documents. -/
structure Server where
  /-- The texts of the open documents. -/
  texts : Std.TreeMap String String
  /-- What the last check of each document has found. -/
  results : Std.TreeMap String Analysis
  /-- The symbols of the last text of each document that was a program. -/
  symbols : Std.TreeMap String (List Symbol)

/-- The server after an event, and what it has published. -/
structure Reaction where
  /-- The server after the event. -/
  server : Server
  /-- What it has published, in order. -/
  published : List Publication

/-- What an editor tells a server about a document. -/
inductive Event where
  /-- The document opens with a text. -/
  | opened (uri text : String)
  /-- The document has another text. -/
  | changed (uri text : String)
  /-- The document has been saved as it is. -/
  | saved (uri : String)
  /-- The document closes. -/
  | closed (uri : String)
  deriving DecidableEq, Repr

namespace Server

/-- A server that knows no document. -/
def initial : Server := ⟨∅, ∅, ∅⟩

/-- Check a text as that of a document and publish the diagnostics. -/
def refresh (server : Server) (uri text : String) : Except Error Reaction := do
  if !isSourcePath uri then
    return ⟨server, []⟩
  let analysis ← check text
  let symbols := match analysis.program with
    | some program => server.symbols.insert uri (Symbol.ofProgram program)
    | none => server.symbols
  let results := server.results.insert uri analysis
  return ⟨{ server with results, symbols }, [⟨uri, clientDiagnostics text analysis⟩]⟩

/-- Drop what is known about a document and publish that it has no diagnostics. -/
def forget (server : Server) (uri : String) : Reaction :=
  let server := { server with
    results := server.results.erase uri
    symbols := server.symbols.erase uri }
  ⟨server, [⟨uri, []⟩]⟩

/-- Give a document a text. -/
def setText (server : Server) (uri text : String) : Server :=
  { server with texts := server.texts.insert uri text }

/-- Take note of an event. -/
def handle (server : Server) : Event → Except Error Reaction
  | .opened uri text => (server.setText uri text).refresh uri text
  | .changed uri text => (server.setText uri text).refresh uri text
  | .saved uri =>
    match server.texts[uri]? with
    | some text => server.refresh uri text
    | none => .ok ⟨server, []⟩
  | .closed uri => .ok ({ server with texts := server.texts.erase uri }.forget uri)

/-- The symbols of a document, in the order of the source. -/
def symbolsOf (server : Server) (uri : String) : List Symbol :=
  (server.symbols[uri]?).getD []

/-- The first symbol of a name in a document. -/
def findSymbol? (server : Server) (uri name : String) : Option Symbol :=
  (server.symbolsOf uri).find? (·.name = name)

/-- The word at a place of an open document. -/
def wordAt? (server : Server) (uri : String) (line column : Nat) : Option String :=
  (server.texts[uri]?).bind fun text => Editor.wordAt? text line column

/-- The help for the word at a place: that of the language, or else the declaration of a symbol. -/
def hover? (server : Server) (uri : String) (line column : Nat) : Option String := do
  let word ← server.wordAt? uri line column
  Builtin.describe? word <|> (server.findSymbol? uri word).map (codeBlock ·.detail)

/-- The symbol that the word at a place means. -/
def definition? (server : Server) (uri : String) (line column : Nat) : Option Symbol := do
  let word ← server.wordAt? uri line column
  server.findSymbol? uri word

/-- The names of the documents that have been checked, in order. -/
def checked (server : Server) : List String :=
  server.results.keys

/-- The names of the documents with symbols, in order. -/
def withSymbols (server : Server) : List String :=
  server.symbols.keys

end Server

end Tranquility.Editor
