/-!
# Positions

The line and column at which people find a place in a source text. Lines are counted from one by
the line feeds before the place, and columns from zero by the characters since the last of them.

`Position.ofOffset` finds the position of a byte offset, and `locate?_eq` says that it is the
position after the characters that the offset leaves behind it.
-/

namespace Semicolons

/-- A line, counted from one, and a column, counted from zero in characters. -/
structure Position where
  line : Nat
  column : Nat
  deriving DecidableEq, Repr

/-- The characters before a byte offset, all of them if the offset lies past the end. There is no
    answer for an offset inside a character. -/
def textBefore? : Nat → List Char → Option (List Char)
  | 0, _ => some []
  | _ + 1, [] => some []
  | offset + 1, c :: rest =>
    if c.utf8Size ≤ offset + 1 then
      (textBefore? (offset + 1 - c.utf8Size) rest).map (c :: ·)
    else none

namespace Position

/-- The position of the first character of a text. -/
def origin : Position :=
  ⟨1, 0⟩

/-- The position after one more character. -/
def advance (p : Position) (c : Char) : Position :=
  if c = '\n' then ⟨p.line + 1, 0⟩ else ⟨p.line, p.column + 1⟩

/-- The position after all characters of a text that begins at `p`. -/
def after (p : Position) (text : List Char) : Position :=
  text.foldl advance p

/-- The position of a byte offset in a text that begins at `p`, the end of the text if the offset
    lies past it. There is no answer for an offset inside a character. -/
def locate? (p : Position) : Nat → List Char → Option Position
  | 0, _ => some p
  | _ + 1, [] => some p
  | offset + 1, c :: rest =>
    if c.utf8Size ≤ offset + 1 then locate? (p.advance c) (offset + 1 - c.utf8Size) rest
    else none

/-- The position of a byte offset in a text. An offset inside a character counts as the end of the
    text, and so does one past the end. -/
def ofOffset (source : List Char) (offset : Nat) : Position :=
  (origin.locate? offset source).getD (origin.after source)

/-- A place is found where the characters before it end. -/
theorem locate?_eq (p : Position) (offset : Nat) (source : List Char) :
    p.locate? offset source = (textBefore? offset source).map p.after := by
  induction source generalizing p offset with
  | nil => cases offset <;> rfl
  | cons c rest ih =>
    cases offset with
    | zero => rfl
    | succ offset =>
      rw [locate?, textBefore?]
      split
      · rw [ih, Option.map_map]
        rfl
      · rfl

end Position

end Semicolons
