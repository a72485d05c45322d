/-!
# Sets of code points

A set of code points given by its boundaries in increasing order: membership changes at every
boundary and nowhere else, and the set is empty below the first one. The tables of this directory
are those of Unicode 17.0.
-/

namespace Semicolons.Unicode

/-- Whether a code point belongs to the set with the given boundaries. -/
def inside : List Nat → Nat → Bool
  | [], _ => false
  | boundary :: rest, point => boundary ≤ point && !inside rest point

end Semicolons.Unicode
