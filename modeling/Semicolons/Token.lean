import Semicolons.Lexeme.Basic
import Semicolons.Span

/-!
# Tokens

A token is a lexeme with its place: the channel it travels on, its index in the stream, and the
bytes it covers. The tokens of a source text end with one of kind `endOfInput`, which covers
nothing.
-/

namespace Semicolons

/-- A lexeme in its place. -/
structure Token extends Lexeme where
  channel : Channel
  index : Nat
  span : Span
  deriving DecidableEq, Repr

namespace Token

/-- Whether a token is layout. -/
def isHidden (t : Token) : Bool :=
  t.channel == .hidden

/-- Whether a token is the given operator or punctuation mark. -/
def isMark (t : Token) (mark : Punctuation) : Bool :=
  t.kind == .punctuation mark

end Token

/-- Lexemes in their places, one after the other, from the given index and offset on. -/
def layOut (index offset : Nat) : List (Lexeme × Channel) → List Token
  | [] => []
  | (l, channel) :: rest =>
    let stop := offset + l.text.utf8ByteSize
    ⟨l, channel, index, ⟨offset, stop⟩⟩ :: layOut (index + 1) stop rest

/-- The tokens of a source text, each on the channel of its kind. -/
def tokens (source : String) : List Token :=
  layOut 0 0 ((lexemes source ++ [Lexeme.endOfInput]).map fun l => (l, l.kind.channel))

end Semicolons
