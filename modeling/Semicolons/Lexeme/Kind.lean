import Semicolons.Keyword
import Semicolons.Punctuation

/-!
# Kinds of lexeme

What a piece of a source text is. A kind alone decides the channel its lexemes travel on, whether
they are literals, and whether a statement can end on them.
-/

namespace Semicolons

/-- Layout travels on the hidden channel, everything else on the visible one. -/
inductive Channel where
  | visible
  | hidden
  deriving DecidableEq, Repr

/-- The name under which a channel appears in a token listing. -/
def Channel.name : Channel → String
  | .visible => "Default"
  | .hidden => "Hidden"

/-- The kind of a lexeme. `stray` is a character that begins nothing, and `endOfInput` marks the
    place after the last character. -/
inductive Kind where
  | identifier
  | integer
  | float
  | imaginary
  | rune
  | string
  | rawString
  | blanks
  | lineBreaks
  | blockComment
  | lineComment
  | stray
  | endOfInput
  | keyword (word : Keyword)
  | punctuation (mark : Punctuation)
  deriving DecidableEq, Repr

namespace Kind

/-- The name under which a kind appears in a token listing. -/
def name : Kind → String
  | .identifier => "Ident"
  | .integer => "Int"
  | .float => "Float"
  | .imaginary => "Imaginary"
  | .rune => "Rune"
  | .string => "String"
  | .rawString => "RawString"
  | .blanks => "Whitespace"
  | .lineBreaks => "Terminator"
  | .blockComment => "Comment"
  | .lineComment => "LineComment"
  | .stray => "Invalid"
  | .endOfInput => "Eof"
  | .keyword word => "Keyword(" ++ word.name ++ ")"
  | .punctuation mark => "Punctuation(" ++ mark.name ++ ")"

/-- Every kind. -/
def all : List Kind :=
  [.identifier, .integer, .float, .imaginary, .rune, .string, .rawString, .blanks, .lineBreaks,
   .blockComment, .lineComment, .stray, .endOfInput]
  ++ Keyword.all.map .keyword ++ Punctuation.all.map .punctuation

/-- The kind that appears in a token listing under the given name. -/
def ofName? (text : String) : Option Kind :=
  all.find? (·.name == text)

/-- The channel that lexemes of a kind travel on. -/
def channel : Kind → Channel
  | .blanks | .lineBreaks | .blockComment | .lineComment => .hidden
  | _ => .visible

/-- Numbers, runes and strings. -/
def isLiteral : Kind → Bool
  | .integer | .float | .imaginary | .rune | .string | .rawString => true
  | _ => false

/-- The keyword of a kind that is one. -/
def keyword? : Kind → Option Keyword
  | .keyword word => some word
  | _ => none

/-- The mark of a kind that is one. -/
def punctuation? : Kind → Option Punctuation
  | .punctuation mark => some mark
  | _ => none

/-- The side and kind of bracket of a kind that is one. -/
def bracket? (k : Kind) : Option (Side × Bracket) :=
  k.punctuation?.bind Punctuation.bracket?

/-- Whether a statement can end on a lexeme of this kind: a name, a literal, one of the keywords
    `break`, `continue`, `fallthrough` and `return`, or one of `++ -- ) ] }`. -/
def endsStatement : Kind → Bool
  | .identifier => true
  | .keyword word => word.endsStatement
  | .punctuation mark => mark.endsStatement
  | k => k.isLiteral

theorem mem_all (k : Kind) : k ∈ all := by
  cases k with
  | keyword word => simp [all, Keyword.mem_all]
  | punctuation mark => simp [all, Punctuation.mem_all]
  | _ => simp [all]

/-- A statement never ends on layout. -/
theorem channel_of_endsStatement {k : Kind} (h : k.endsStatement) : k.channel = .visible := by
  unfold channel
  split <;> simp_all [endsStatement, isLiteral]

end Kind

end Semicolons
