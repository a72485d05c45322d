import Semicolons.Lexeme.Fault
import Semicolons.Lexeme.Kind
import Semicolons.Unicode.Alphabetic
import Semicolons.Unicode.Numeric

/-!
# Phases of a lexeme

A lexeme is read one character at a time, and all that matters about the characters read so far
is the phase they have led to. `Phase.start` chooses the phase after the first character,
`Phase.step` says whether a further character belongs to the lexeme and which phase it leads to,
and the phase in which a lexeme stops decides its kind and its fault.

`Phase.start` may look at the two characters after the first, and `Phase.step` at the one after
the character it judges; nothing else of the text matters.
-/

namespace Semicolons

/-- A space, a tab or a form feed. -/
def isBlank (c : Char) : Bool :=
  c = ' ' || c = '\t' || c = '\x0c'

/-- A carriage return or a line feed. -/
def isLineBreak (c : Char) : Bool :=
  c = '\r' || c = '\n'

/-- A character that can begin a word. -/
def isWordStart (c : Char) : Bool :=
  Unicode.isAlphabetic c || c = '_'

/-- A character that can continue a word. -/
def isWordPart (c : Char) : Bool :=
  Unicode.isAlphabetic c || Unicode.isNumeric c || c = '_'

/-- A decimal digit, or the underscore that separates digits. -/
def isDigitPart (c : Char) : Bool :=
  c.isDigit || c = '_'

/-- A hexadecimal digit, or the underscore that separates digits. -/
def isHexDigitPart (c : Char) : Bool :=
  c.isDigit || ('a' ≤ c && c ≤ 'f') || ('A' ≤ c && c ≤ 'F') || c = '_'

/-- The mark around a literal that honours escapes: double for a string, single for a rune. -/
inductive Quote where
  | double
  | single
  deriving DecidableEq, Repr

namespace Quote

/-- The character that begins and ends the literal. -/
def mark : Quote → Char
  | .double => '"'
  | .single => '\''

/-- The kind of the literal. -/
def kind : Quote → Kind
  | .double => .string
  | .single => .rune

/-- The fault of the literal when its second mark is missing. -/
def fault : Quote → Fault
  | .double => .openString
  | .single => .openRune

end Quote

/-- How far the reading of a lexeme has come. -/
inductive Phase where
  /-- In a run of blanks. -/
  | blanks
  /-- In a run of line breaks. -/
  | lineBreaks
  /-- In a comment that ends with the line. -/
  | lineComment
  /-- After the slash that begins a block comment. -/
  | commentSlash
  /-- In a block comment, not right after a star. -/
  | comment
  /-- In a block comment, right after a star. -/
  | commentStar
  /-- After the last slash of a block comment. -/
  | commentEnd
  /-- In a string or rune, where its closing mark would end it. -/
  | quoted (quote : Quote)
  /-- In a string or rune, right after the backslash of an escape. -/
  | escape (quote : Quote)
  /-- After the closing mark of a string or rune. -/
  | quotedEnd (quote : Quote)
  /-- In a raw string. -/
  | raw
  /-- After the closing mark of a raw string. -/
  | rawEnd
  /-- After a zero that begins a number, where a letter may set the base. -/
  | zero
  /-- In the digits before the point. -/
  | whole
  /-- In the digits after the point. -/
  | fraction
  /-- In the digits after a letter that sets base two or eight. -/
  | based
  /-- In the hexadecimal digits before the point. -/
  | hexWhole
  /-- In the hexadecimal digits after the point. -/
  | hexFraction
  /-- After the letter that begins an exponent, where a sign may follow. -/
  | exponentMark
  /-- In the digits of an exponent. -/
  | exponent
  /-- After the letter that makes a number imaginary. -/
  | imaginary
  /-- In a word. -/
  | word
  /-- In an operator or punctuation mark of which `left` characters are still to be read. -/
  | mark (mark : Punctuation) (left : Nat)
  /-- After a character that begins nothing. -/
  | stray (c : Char)
  deriving DecidableEq, Repr

namespace Phase

/-- The phase after the first character of a lexeme, in front of `rest`. -/
def start (c : Char) (rest : List Char) : Phase :=
  if isBlank c then .blanks
  else if isLineBreak c then .lineBreaks
  else if c = '/' ∧ rest.head? = some '/' then .lineComment
  else if c = '/' ∧ rest.head? = some '*' then .commentSlash
  else if c = '"' then .quoted .double
  else if c = '\'' then .quoted .single
  else if c = '`' then .raw
  else if c = '0' then .zero
  else if c.isDigit then .whole
  else if c = '.' ∧ rest.head?.any Char.isDigit then .fraction
  else if isWordStart c then .word
  else
    match Punctuation.longest? (c :: rest) with
    | some p => .mark p (p.spelling.length - 1)
    | none => .stray c

/-- The phase after a further character of an exponent. -/
def stepExponent (c : Char) : Option Phase :=
  if isDigitPart c then some .exponent
  else if c = 'i' then some .imaginary
  else none

/-- The phase after a further character of a decimal number that has no exponent yet, where
    `here` is the phase its digits keep. -/
def stepDecimal (here : Phase) (c : Char) : Option Phase :=
  if isDigitPart c then some here
  else if c = 'e' ∨ c = 'E' then some .exponentMark
  else if c = 'i' then some .imaginary
  else none

/-- The phase after a further character of a hexadecimal number that has no exponent yet, where
    `here` is the phase its digits keep. -/
def stepHexadecimal (here : Phase) (c : Char) : Option Phase :=
  if isHexDigitPart c then some here
  else if c = 'p' ∨ c = 'P' then some .exponentMark
  else if c = 'i' then some .imaginary
  else none

/-- The phase that the character `c` in front of `next` leads to, or none if the lexeme ends
    before it. -/
def step (phase : Phase) (c : Char) (next : Option Char) : Option Phase :=
  match phase with
  | .blanks => if isBlank c then some .blanks else none
  | .lineBreaks => if isLineBreak c then some .lineBreaks else none
  | .lineComment => if isLineBreak c then none else some .lineComment
  | .commentSlash => some .comment
  | .comment => if c = '*' then some .commentStar else some .comment
  | .commentStar =>
    if c = '/' then some .commentEnd
    else if c = '*' then some .commentStar
    else some .comment
  | .commentEnd => none
  | .quoted q =>
    if isLineBreak c then none
    else if c = '\\' then some (.escape q)
    else if c = q.mark then some (.quotedEnd q)
    else some (.quoted q)
  | .escape q => if isLineBreak c then none else some (.quoted q)
  | .quotedEnd _ => none
  | .raw => if c = '`' then some .rawEnd else some .raw
  | .rawEnd => none
  | .zero =>
    if c = 'x' ∨ c = 'X' then some .hexWhole
    else if c = 'b' ∨ c = 'B' ∨ c = 'o' ∨ c = 'O' then some .based
    else if c = '.' then some .fraction
    else stepDecimal .whole c
  | .whole => if c = '.' then some .fraction else stepDecimal .whole c
  | .fraction => stepDecimal .fraction c
  | .based =>
    if isDigitPart c then some .based
    else if c = 'i' then some .imaginary
    else none
  | .hexWhole => if c = '.' then some .hexFraction else stepHexadecimal .hexWhole c
  | .hexFraction => stepHexadecimal .hexFraction c
  | .exponentMark =>
    if (c = '+' ∨ c = '-') ∧ next.any Char.isDigit then some .exponent else stepExponent c
  | .exponent => stepExponent c
  | .imaginary => none
  | .word => if isWordPart c then some .word else none
  | .mark p (left + 1) => some (.mark p left)
  | .mark _ 0 => none
  | .stray _ => none

/-- The kind of a lexeme with the given text that stops in this phase. Among words, exactly the
    spellings of keywords are keywords. -/
def kind (text : String) : Phase → Kind
  | .blanks => .blanks
  | .lineBreaks => .lineBreaks
  | .lineComment => .lineComment
  | .commentSlash | .comment | .commentStar | .commentEnd => .blockComment
  | .quoted q | .escape q | .quotedEnd q => q.kind
  | .raw | .rawEnd => .rawString
  | .zero | .whole | .based | .hexWhole => .integer
  | .fraction | .hexFraction | .exponentMark | .exponent => .float
  | .imaginary => .imaginary
  | .word => (Keyword.ofSpelling? text).elim .identifier .keyword
  | .mark p _ => .punctuation p
  | .stray _ => .stray

/-- The fault of a lexeme that stops in this phase. -/
def fault? : Phase → Option Fault
  | .commentSlash | .comment | .commentStar => some .openComment
  | .quoted q | .escape q => some q.fault
  | .raw => some .openRawString
  | .stray c => some (.strayCharacter c)
  | _ => none

end Phase

end Semicolons
