/-!
# Brackets

The three kinds of bracket that group tokens, and the two sides a bracket can face. Pairing and
nesting speak of a token only through its `Bracket` and its `Side`.
-/

namespace Semicolons

/-- The kind of a bracket: `( )`, `[ ]` or `{ }`. -/
inductive Bracket where
  | round
  | square
  | curly
  deriving DecidableEq, Repr

/-- Whether a bracket begins its group or ends it. -/
inductive Side where
  | opening
  | closing
  deriving DecidableEq, Repr

end Semicolons
