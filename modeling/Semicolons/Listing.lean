import Semicolons.Text.Quoted
import Semicolons.Token

/-!
# Token listings

A listing shows every token of a source text on a line of its own: its index, whether it is
hidden, its kind, and its text in quotation marks.
-/

namespace Semicolons

/-- A text with blanks in front, so that it has at least `width` characters. -/
def alignRight (width : Nat) (text : String) : String :=
  String.ofList (List.replicate (width - text.length) ' ') ++ text

/-- A text with blanks behind, so that it has at least `width` characters. -/
def alignLeft (width : Nat) (text : String) : String :=
  text ++ String.ofList (List.replicate (width - text.length) ' ')

/-- The line of a listing that shows a token. -/
def Token.line (t : Token) : String :=
  alignRight 4 (toString t.index) ++ " " ++
    alignLeft 6 (if t.isHidden then "hidden" else "") ++ " " ++
    t.kind.name ++ " " ++ Text.quotedString (t.text?.getD "")

/-- The lines that show the tokens of a stream, each with a line feed at its end. -/
def listing (stream : List Token) : String :=
  String.join (stream.map fun t => t.line ++ "\n")

end Semicolons
