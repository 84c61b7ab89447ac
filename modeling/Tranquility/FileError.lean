import Tranquility.Text.Quoted

/-!
# Why a file cannot be read

A path leads to a file, or there is one of a few reasons why it does not. The system knows each
reason by a number, and the command line names it by its class and describes it in words.
-/

namespace Tranquility

/-- Why there is no file to read at a path. -/
inductive FileError where
  /-- A part of the path names nothing. -/
  | missing
  /-- The file, or a directory on the way to it, may not be read. -/
  | denied
  /-- The path goes on behind something that is no directory. -/
  | notDirectory
  /-- The path ends at a directory. -/
  | directory
  /-- The path, or a part of it, is longer than the system allows. -/
  | nameTooLong
  deriving DecidableEq, Repr

namespace FileError

/-- All reasons. -/
def all : List FileError :=
  [.missing, .denied, .notDirectory, .directory, .nameTooLong]

/-- The number by which the system knows a reason. -/
def number : FileError → Nat
  | .missing => 2
  | .denied => 13
  | .notDirectory => 20
  | .directory => 21
  | .nameTooLong => 36

/-- The class of a reason. A name that is too long has no class of its own. -/
def className : FileError → String
  | .missing => "FileNotFoundError"
  | .denied => "PermissionError"
  | .notDirectory => "NotADirectoryError"
  | .directory => "IsADirectoryError"
  | .nameTooLong => "OSError"

/-- A reason in words. -/
def description : FileError → String
  | .missing => "No such file or directory"
  | .denied => "Permission denied"
  | .notDirectory => "Not a directory"
  | .directory => "Is a directory"
  | .nameTooLong => "File name too long"

/-- The line that tells why a path cannot be read. -/
def message (error : FileError) (path : String) : String :=
  s!"{error.className}: [Errno {error.number}] {error.description}: {Text.quoted path}"

/-- The reason with a number. -/
def ofNumber? (number : Nat) : Option FileError :=
  all.find? (·.number = number)

/-- A number determines its reason. -/
theorem ofNumber?_number (error : FileError) : ofNumber? error.number = some error := by
  cases error <;> rfl

end FileError

end Tranquility
