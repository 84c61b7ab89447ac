import Tranquility.FileError

/-!
# Tables of files

A table of files and directories stands for the working directory of a command, so that a command
can be run on it without a file system. A path is walked part by part. Each part needs a directory
to start from: an empty part and `.` stay there, `..` goes up, and any other part goes down. So a
path that ends in a slash, or goes on behind a file, never leads to a file. Outside the working
directory there are directories to walk through upwards, and nothing else.
-/

namespace Tranquility

/-- The files and directories under a working directory. -/
structure FileTable where
  /-- The files, each by the names on the way from the working directory. -/
  files : List (List String × ByteArray)
  /-- The directories, each by the names on the way from the working directory. -/
  directories : List (List String)

namespace FileTable

/-- Where a walk can be. -/
inductive Place where
  /-- At the end of some names that lead down from the working directory. -/
  | inside (names : List String)
  /-- In a directory that is not under the working directory. -/
  | outside
  deriving DecidableEq, Repr

/-- How many bytes the name of a file may have. -/
def nameLimit : Nat := 255

/-- How many bytes a path may have. -/
def pathLimit : Nat := 4095

/-- The parts of a path. -/
def parts (path : String) : List String :=
  path.splitOn "/"

/-- The names on the way down a path, which are the parts that do not stay where they are. -/
def names (path : String) : List String :=
  (parts path).filter (· ∉ ["", "."])

/-- A table of files and directories given by their paths. A later file takes the place of an
earlier one. -/
def ofPaths (files : List (String × ByteArray)) (directories : List String) : FileTable where
  files := files.reverse.map fun (path, bytes) => (names path, bytes)
  directories := directories.map names

/-- The names lead to a directory: one of the table, or one with something under it, or the working
directory itself. -/
def isDirectory (table : FileTable) (names : List String) : Bool :=
  names.isEmpty || table.directories.any names.isPrefixOf ||
    table.files.any fun (path, _) => names.isPrefixOf path && names ≠ path

/-- The bytes of the file at a place, or why there is none. -/
def read (table : FileTable) : Place → Except FileError ByteArray
  | .outside => .error .directory
  | .inside names =>
    match table.files.find? (·.1 = names) with
    | some (_, bytes) => .ok bytes
    | none => .error (if table.isDirectory names then .directory else .missing)

/-- The place that a part of a path leads to from a directory. -/
def descend (place : Place) (part : String) : Except FileError Place :=
  match part, place with
  | "", _ | ".", _ => .ok place
  | "..", .inside [] | "..", .outside => .ok .outside
  | "..", .inside names => .ok (.inside names.dropLast)
  | name, place =>
    if nameLimit < name.utf8ByteSize then .error .nameTooLong
    else match place with
      | .inside names => .ok (.inside (names ++ [name]))
      | .outside => .error .missing

/-- The place that a part of a path leads to, which takes a directory to start from. -/
def step (table : FileTable) (place : Place) (part : String) : Except FileError Place :=
  match table.read place with
  | .error .directory => descend place part
  | .error error => .error error
  | .ok _ => .error .notDirectory

/-- Where the walk along a path starts. -/
def start (path : String) : Place :=
  if "/".toList.isPrefixOf path.toList then .outside else .inside []

/-- The bytes of the file at a path, or why there is none. The empty path names nothing. -/
def lookup (table : FileTable) (path : String) : Except FileError ByteArray :=
  if path.isEmpty then .error .missing
  else if pathLimit < path.utf8ByteSize then .error .nameTooLong
  else do table.read (← (parts path).foldlM table.step (start path))

end FileTable

end Tranquility
