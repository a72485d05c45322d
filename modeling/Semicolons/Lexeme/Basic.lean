import Semicolons.Lexeme.Phase

/-!
# Lexemes

A source text is cut into lexemes: words, numbers, strings, marks, and the layout between them.
Every lexeme is as long as its phases allow, and the next one begins where it stops, so the
lexemes of a text, written one after the other, are that text (`flatMap_chars_lexemes`).
-/

namespace Semicolons

/-- A piece of a source text, with what is wrong with it. -/
structure Lexeme where
  kind : Kind
  text : String
  fault : Option Fault
  deriving DecidableEq, Repr

namespace Lexeme

/-- The characters of a lexeme. -/
def chars (l : Lexeme) : List Char :=
  l.text.toList

/-- The empty lexeme that stands after the last character of a text. -/
def endOfInput : Lexeme :=
  ⟨.endOfInput, "", none⟩

/-- Whether a lexeme marks the end of the input. -/
def isEnd (l : Lexeme) : Bool :=
  l.kind == .endOfInput

/-- The text of a lexeme. The end of the input has none. -/
def text? (l : Lexeme) : Option String :=
  if l.isEnd then none else some l.text

/-- Whether a line feed occurs in a lexeme. -/
def hasLineFeed (l : Lexeme) : Bool :=
  l.chars.any (· == '\n')

/-- Whether a lexeme breaks the line: a run of line breaks does, and a block comment that spans
    lines does. -/
def breaksLine (l : Lexeme) : Bool :=
  match l.kind with
  | .lineBreaks => true
  | .blockComment => l.chars.any isLineBreak
  | _ => false

/-- The lexeme that stops in `phase` after the characters `taken`, the last one first. -/
def finish (phase : Phase) (taken : List Char) : Lexeme :=
  let text := String.ofList taken.reverse
  ⟨phase.kind text, text, phase.fault?⟩

@[simp] theorem chars_finish (phase : Phase) (taken : List Char) :
    (finish phase taken).chars = taken.reverse := by
  simp [finish, chars]

end Lexeme

/-- The lexemes of a text of which the characters `taken`, the last one first, have been read and
    have led to `phase`. -/
def lexemesFrom (phase : Phase) (taken : List Char) : List Char → List Lexeme
  | [] => [Lexeme.finish phase taken]
  | c :: rest =>
    match phase.step c rest.head? with
    | some next => lexemesFrom next (c :: taken) rest
    | none => Lexeme.finish phase taken :: lexemesFrom (Phase.start c rest) [c] rest

/-- The lexemes of a sequence of characters. -/
def lexemesOfChars : List Char → List Lexeme
  | [] => []
  | c :: rest => lexemesFrom (Phase.start c rest) [c] rest

/-- The lexemes of a source text. -/
def lexemes (source : String) : List Lexeme :=
  lexemesOfChars source.toList

theorem flatMap_chars_lexemesFrom (phase : Phase) (taken text : List Char) :
    (lexemesFrom phase taken text).flatMap Lexeme.chars = taken.reverse ++ text := by
  induction text generalizing phase taken with
  | nil => simp [lexemesFrom]
  | cons c rest ih =>
    rw [lexemesFrom]
    split
    · simp [ih]
    · simp [ih]

/-- Cutting a text into lexemes loses nothing and adds nothing. -/
theorem flatMap_chars_lexemes (source : String) :
    (lexemes source).flatMap Lexeme.chars = source.toList := by
  rw [lexemes]
  cases source.toList with
  | nil => rfl
  | cons c rest => simp [lexemesOfChars, flatMap_chars_lexemesFrom]

end Semicolons
