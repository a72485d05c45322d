import Semicolons.Token

/-!
# Nesting of brackets

Brackets of all kinds nest in one another: a closing bracket answers the innermost group that is
still open, whatever its kind. Reading a stream from left to right finds the closing brackets
that answer no group or one of another kind, and leaves the groups that nothing answers.
-/

namespace Semicolons

namespace Nesting

/-- What can be wrong with a closing bracket. -/
inductive Defect where
  /-- It answers a group of another kind. -/
  | mismatched (closer opener : Token)
  /-- It answers no group. -/
  | unexpected (closer : Token)
  deriving DecidableEq, Repr

/-- Reads a stream inside the groups that the brackets `opened` have begun, the innermost first.
    Gives the defects in the order of the stream, and the groups still open at its end, the
    innermost first. -/
def read (opened : List Token) : List Token → List Defect × List Token
  | [] => ([], opened)
  | t :: rest =>
    match t.kind.bracket? with
    | none => read opened rest
    | some (.opening, _) => read (t :: opened) rest
    | some (.closing, b) =>
      match opened with
      | [] =>
        let (defects, left) := read [] rest
        (.unexpected t :: defects, left)
      | opener :: outer =>
        if opener.isMark (.opening b) then read outer rest
        else
          let (defects, left) := read outer rest
          (.mismatched t opener :: defects, left)

end Nesting

end Semicolons
