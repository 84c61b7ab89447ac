import Tranquility.CommandLine

/-!
# The program

The command line run on the real file system: it reads the file that the arguments name, prints what
the command yields, and ends with its exit code.
-/

namespace Tranquility.CommandLine

/-- The number by which the system knows an error, if a read can end in it. Some calls give it with
its sign changed. -/
def systemNumber? : IO.Error → Option Nat
  | .noFileOrDirectory _ code _ | .permissionDenied _ code _ | .inappropriateType _ code _
  | .illegalOperation code _ | .invalidArgument _ code _ | .resourceExhausted _ code _
  | .otherError code _ => some code.toInt32.toInt.natAbs
  | _ => none

/-- The bytes of a file of the file system, or why they cannot be read. -/
def readFile (path : String) : IO (Except FileError ByteArray) := do
  try
    return .ok (← IO.FS.readBinFile path)
  catch error =>
    match (systemNumber? error).bind FileError.ofNumber? with
    | some reason => return .error reason
    | none => throw error

/-- The path that a command reads, if it reads one. -/
def Command.path? : Command → Option String
  | .tokens path | .check path => some path
  | .help | .serve | .misuse => none

/-- Run the command that the arguments ask for on the real files. -/
def execute (arguments : List String) : IO UInt32 := do
  let debug := ((← IO.getEnv "TRANQDEBUG").getD "") ≠ ""
  let command := Command.ofArguments arguments
  if command = .serve then
    IO.eprintln "Serving an editor is not part of this program."
    return 1
  let contents ← (command.path?.map readFile).getD (pure (.error .missing))
  let outcome := run ⟨fun _ => contents, debug⟩ command
  IO.print outcome.output
  match outcome.exit with
  | .ok code => return code
  | .error .notUtf8 =>
    IO.eprintln "The file is not encoded in UTF-8."
    return 1
  | .error (.failure _) =>
    IO.eprintln "The check has failed."
    return 1

end Tranquility.CommandLine

/-- Run the command that the arguments ask for. -/
def main (arguments : List String) : IO UInt32 :=
  Tranquility.CommandLine.execute arguments
