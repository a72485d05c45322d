import Semicolons.Bracket

/-!
# Operators and punctuation

The forty-eight operators and punctuation marks of the Go language. `Punctuation.longest?` reads
the longest one a text begins with; no mark is longer than `Punctuation.maxLength` characters.
-/

namespace Semicolons

/-- An operator or a punctuation mark. -/
inductive Punctuation where
  | plus
  | minus
  | star
  | slash
  | percent
  | inc
  | dec
  | amp
  | pipe
  | caret
  | shl
  | shr
  | andNot
  | tilde
  | eqEq
  | notEq
  | lt
  | ltEq
  | gt
  | gtEq
  | andAnd
  | orOr
  | not
  | arrow
  | assign
  | define
  | plusAssign
  | minusAssign
  | starAssign
  | slashAssign
  | percentAssign
  | ampAssign
  | pipeAssign
  | caretAssign
  | shlAssign
  | shrAssign
  | andNotAssign
  | lParen
  | rParen
  | lBracket
  | rBracket
  | lBrace
  | rBrace
  | comma
  | semicolon
  | colon
  | dot
  | ellipsis
  deriving DecidableEq, Repr

namespace Punctuation

/-- What a mark is used for. -/
inductive Category where
  | arithmetic
  | bitwise
  | comparison
  | logical
  | assignment
  | delimiter
  | separator
  deriving DecidableEq, Repr

/-- The name of a category. -/
def Category.name : Category → String
  | .arithmetic => "Arithmetic"
  | .bitwise => "Bitwise"
  | .comparison => "Comparison"
  | .logical => "Logical"
  | .assignment => "Assignment"
  | .delimiter => "Delimiter"
  | .separator => "Separator"

/-- Every mark, grouped by category. -/
def all : List Punctuation :=
  [.plus, .minus, .star, .slash, .percent, .inc, .dec,
   .amp, .pipe, .caret, .shl, .shr, .andNot, .tilde,
   .eqEq, .notEq, .lt, .ltEq, .gt, .gtEq,
   .andAnd, .orOr, .not, .arrow,
   .assign, .define, .plusAssign, .minusAssign, .starAssign, .slashAssign, .percentAssign,
   .ampAssign, .pipeAssign, .caretAssign, .shlAssign, .shrAssign, .andNotAssign,
   .lParen, .rParen, .lBracket, .rBracket, .lBrace, .rBrace,
   .comma, .semicolon, .colon, .dot, .ellipsis]

/-- The mark as it is written in a source text. -/
def spelling : Punctuation → String
  | .plus => "+"
  | .minus => "-"
  | .star => "*"
  | .slash => "/"
  | .percent => "%"
  | .inc => "++"
  | .dec => "--"
  | .amp => "&"
  | .pipe => "|"
  | .caret => "^"
  | .shl => "<<"
  | .shr => ">>"
  | .andNot => "&^"
  | .tilde => "~"
  | .eqEq => "=="
  | .notEq => "!="
  | .lt => "<"
  | .ltEq => "<="
  | .gt => ">"
  | .gtEq => ">="
  | .andAnd => "&&"
  | .orOr => "||"
  | .not => "!"
  | .arrow => "<-"
  | .assign => "="
  | .define => ":="
  | .plusAssign => "+="
  | .minusAssign => "-="
  | .starAssign => "*="
  | .slashAssign => "/="
  | .percentAssign => "%="
  | .ampAssign => "&="
  | .pipeAssign => "|="
  | .caretAssign => "^="
  | .shlAssign => "<<="
  | .shrAssign => ">>="
  | .andNotAssign => "&^="
  | .lParen => "("
  | .rParen => ")"
  | .lBracket => "["
  | .rBracket => "]"
  | .lBrace => "\x7b"
  | .rBrace => "\x7d"
  | .comma => ","
  | .semicolon => ";"
  | .colon => ":"
  | .dot => "."
  | .ellipsis => "..."

/-- The name under which a mark appears in a token listing. -/
def name : Punctuation → String
  | .plus => "Plus"
  | .minus => "Minus"
  | .star => "Star"
  | .slash => "Slash"
  | .percent => "Percent"
  | .inc => "Inc"
  | .dec => "Dec"
  | .amp => "Amp"
  | .pipe => "Pipe"
  | .caret => "Caret"
  | .shl => "Shl"
  | .shr => "Shr"
  | .andNot => "AndNot"
  | .tilde => "Tilde"
  | .eqEq => "EqEq"
  | .notEq => "NotEq"
  | .lt => "Lt"
  | .ltEq => "LtEq"
  | .gt => "Gt"
  | .gtEq => "GtEq"
  | .andAnd => "AndAnd"
  | .orOr => "OrOr"
  | .not => "Not"
  | .arrow => "Arrow"
  | .assign => "Assign"
  | .define => "Define"
  | .plusAssign => "PlusAssign"
  | .minusAssign => "MinusAssign"
  | .starAssign => "StarAssign"
  | .slashAssign => "SlashAssign"
  | .percentAssign => "PercentAssign"
  | .ampAssign => "AmpAssign"
  | .pipeAssign => "PipeAssign"
  | .caretAssign => "CaretAssign"
  | .shlAssign => "ShlAssign"
  | .shrAssign => "ShrAssign"
  | .andNotAssign => "AndNotAssign"
  | .lParen => "LParen"
  | .rParen => "RParen"
  | .lBracket => "LBracket"
  | .rBracket => "RBracket"
  | .lBrace => "LBrace"
  | .rBrace => "RBrace"
  | .comma => "Comma"
  | .semicolon => "Semicolon"
  | .colon => "Colon"
  | .dot => "Dot"
  | .ellipsis => "Ellipsis"

/-- The group a mark belongs to. -/
def category : Punctuation → Category
  | .plus | .minus | .star | .slash | .percent | .inc | .dec => .arithmetic
  | .amp | .pipe | .caret | .shl | .shr | .andNot | .tilde => .bitwise
  | .eqEq | .notEq | .lt | .ltEq | .gt | .gtEq => .comparison
  | .andAnd | .orOr | .not | .arrow => .logical
  | .assign | .define | .plusAssign | .minusAssign | .starAssign | .slashAssign
  | .percentAssign | .ampAssign | .pipeAssign | .caretAssign | .shlAssign | .shrAssign
  | .andNotAssign => .assignment
  | .lParen | .rParen | .lBracket | .rBracket | .lBrace | .rBrace => .delimiter
  | .comma | .semicolon | .colon | .dot | .ellipsis => .separator

/-- The side and kind of a mark that is a bracket. -/
def bracket? : Punctuation → Option (Side × Bracket)
  | .lParen => some (.opening, .round)
  | .rParen => some (.closing, .round)
  | .lBracket => some (.opening, .square)
  | .rBracket => some (.closing, .square)
  | .lBrace => some (.opening, .curly)
  | .rBrace => some (.closing, .curly)
  | _ => none

/-- The mark that opens a group of the given kind. -/
def opening : Bracket → Punctuation
  | .round => .lParen
  | .square => .lBracket
  | .curly => .lBrace

/-- The opening mark that a closing mark answers. -/
def opener? (p : Punctuation) : Option Punctuation :=
  match p.bracket? with
  | some (.closing, b) => some (opening b)
  | _ => none

/-- The marks that can be the last token of a statement. -/
def endsStatement : Punctuation → Bool
  | .inc | .dec | .rParen | .rBracket | .rBrace => true
  | _ => false

/-- The number of characters of the longest spelling. -/
def maxLength : Nat := 3

/-- The mark that a text spells in full. -/
def ofSpelling? (text : String) : Option Punctuation :=
  all.find? (·.spelling == text)

/-- The mark that a window at the beginning of `text` spells. The first window has the given
    number of characters, and each one that spells no mark is followed by one that is shorter. -/
def longestUpTo? (text : List Char) : Nat → Option Punctuation
  | 0 => none
  | n + 1 => (ofSpelling? (String.ofList (text.take (n + 1)))).or (longestUpTo? text n)

/-- The mark with the longest spelling that `text` begins with. -/
def longest? (text : List Char) : Option Punctuation :=
  longestUpTo? text maxLength

theorem mem_all (p : Punctuation) : p ∈ all := by
  cases p <;> decide

/-- Looking up a mark's own spelling finds that mark, so no two share one. -/
theorem ofSpelling?_spelling (p : Punctuation) : ofSpelling? p.spelling = some p := by
  cases p <;> rfl

/-- A text spells a mark exactly when it is the spelling of the mark that is found. -/
theorem ofSpelling?_eq_some_iff {text : String} {p : Punctuation} :
    ofSpelling? text = some p ↔ p.spelling = text := by
  constructor
  · intro h
    simpa using List.find?_some h
  · rintro rfl
    exact ofSpelling?_spelling p

theorem length_spelling_le (p : Punctuation) : p.spelling.length ≤ maxLength := by
  cases p <;> decide

theorem bracket?_opening (b : Bracket) : (opening b).bracket? = some (.opening, b) := by
  cases b <;> rfl

end Punctuation

end Semicolons
