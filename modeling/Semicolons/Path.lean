/-!
# Paths

A path is a text of names with slashes between them. Some of the names may be empty. Two paths
take the same steps if they differ only in slashes that are repeated or stand at the end, and in
names `.` that are not the first: `a//b/./` takes the steps of `a/b`, while `./a` and `a` differ.
-/

namespace Semicolons

/-- The names of a path, which are parted by slashes. Some of them may be empty. -/
def splitPath : List Char → List (List Char)
  | [] => [[]]
  | c :: rest =>
    if c = '/' then [] :: splitPath rest
    else
      match splitPath rest with
      | [] => [[c]]
      | name :: names => (c :: name) :: names

/-- The steps of a path. The first name counts as it is written, and is empty for a path that
    begins at the root. Behind it an empty name or a `.` is no step. -/
def pathSteps (path : List Char) : List (List Char) :=
  match splitPath path with
  | [] => []
  | first :: rest => first :: rest.filter fun name => !(name.isEmpty || name = ['.'])

end Semicolons
