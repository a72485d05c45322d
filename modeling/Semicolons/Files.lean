import Semicolons.Failure
import Semicolons.Path

/-!
# Files

A tree of directories and files, with a directory in which relative paths begin. A path is
followed one name at a time: every name but the last has to lead to a directory, `.` stays where
it is, and `..` leads to the directory above. A file that does not exist is made when it is
written; a directory never is.
-/

namespace Semicolons

/-- The names that lead to a place in the tree, the innermost first. The root has none. -/
abbrev Location :=
  List String

/-- What stands at a location. -/
inductive Node where
  | directory
  | file (content : ByteArray)

/-- A tree of files, and the directory in which relative paths begin. -/
structure Files where
  directories : List Location
  contents : List (Location × ByteArray)
  current : Location

/-- What a path leads to: a directory, or a name in a directory that exists, which may be
    written with a slash behind it. -/
inductive Destination where
  | directory
  | entry (location : Location) (slash : Bool)
  deriving DecidableEq, Repr

namespace Files

/-- What stands at a location. The root is always a directory. -/
def node? (files : Files) (location : Location) : Option Node :=
  if location.isEmpty || files.directories.contains location then some .directory
  else (files.contents.lookup location).map .file

/-- Follows names from a directory on, all of which have to lead to directories. -/
def walk (files : Files) (here : Location) : List String → Except SystemError Location
  | [] => .ok here
  | name :: rest =>
    if name = "." then walk files here rest
    else if name = ".." then walk files here.tail rest
    else
      match files.node? (name :: here) with
      | some .directory => walk files (name :: here) rest
      | some (.file _) => .error .notADirectory
      | none => .error .notFound

/-- What a path leads to. The empty path leads nowhere. -/
def locate (files : Files) (path : String) : Except SystemError Destination :=
  let names := (splitPath path.toList).filter (!·.isEmpty) |>.map String.ofList
  let start := if path.toList.head? = some '/' then [] else files.current
  if path.isEmpty then .error .notFound
  else
    match names.getLast? with
    | none => .ok .directory
    | some last =>
      match files.walk start names.dropLast with
      | .error error => .error error
      | .ok here =>
        if last = "." ∨ last = ".." then .ok .directory
        else .ok (.entry (last :: here) (path.toList.getLast? = some '/'))

/-- The content of the file that a path leads to. -/
def read (files : Files) (path : String) : Except SystemError ByteArray :=
  match files.locate path with
  | .error error => .error error
  | .ok .directory => .error .isADirectory
  | .ok (.entry location slash) =>
    match files.node? location with
    | none => .error .notFound
    | some .directory => .error .isADirectory
    | some (.file content) => if slash then .error .notADirectory else .ok content

/-- Puts a file at a location, in place of one that stands there. -/
def put (files : Files) (location : Location) (content : ByteArray) : Files :=
  { files with contents := (location, content) :: files.contents.filter (·.1 != location) }

/-- Writes the file that a path leads to, making it if need be. -/
def write (files : Files) (path : String) (content : ByteArray) : Except SystemError Files :=
  match files.locate path with
  | .error error => .error error
  | .ok .directory => .error .isADirectory
  | .ok (.entry location slash) =>
    match files.node? location with
    | some .directory => .error .isADirectory
    | _ => if slash then .error .isADirectory else .ok (files.put location content)

/-- The files directly in the directory where relative paths begin, with their names. -/
def listing (files : Files) : List (String × ByteArray) :=
  files.contents.filterMap fun (location, content) =>
    match location with
    | [] => none
    | name :: here => if here = files.current then some (name, content) else none

end Files

end Semicolons
