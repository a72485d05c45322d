import Semicolons.Text.Quoted

/-!
# Faults of a lexeme

What can be wrong with a single lexeme: its character begins nothing, or the end it needs is
missing.
-/

namespace Semicolons

/-- What is wrong with a lexeme. -/
inductive Fault where
  | strayCharacter (c : Char)
  | openComment
  | openString
  | openRawString
  | openRune
  deriving DecidableEq, Repr

/-- The wording of a fault. -/
def Fault.message : Fault → String
  | .strayCharacter c => "unexpected character " ++ Text.quotedChar c
  | .openComment => "comment not terminated"
  | .openString => "string literal not terminated"
  | .openRawString => "raw string literal not terminated"
  | .openRune => "rune literal not terminated"

end Semicolons
