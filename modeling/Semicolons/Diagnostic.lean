import Semicolons.Position
import Semicolons.Span

/-!
# Diagnostics

What a reader of a source text is told about a problem in it: where it is, what it is, and what
could be done about it.
-/

namespace Semicolons

/-- Whether a problem lies in a single lexeme or in how tokens follow one another. -/
inductive Stage where
  | lexical
  | syntactic
  deriving DecidableEq, Repr

namespace Stage

/-- The name under which a stage appears in a listing. -/
def name : Stage → String
  | .lexical => "Lexical"
  | .syntactic => "Syntax"

/-- The words that label the place of a problem. -/
def label : Stage → String
  | .lexical => "lexical error"
  | .syntactic => "syntax error"

/-- The stable code of the problems of a stage. -/
def code : Stage → String
  | .lexical => "gocolon::lexical"
  | .syntactic => "gocolon::syntax"

end Stage

/-- A problem at a place in a source text, with hints in the order they were given. -/
structure Diagnostic where
  stage : Stage
  message : String
  span : Span
  hints : List String
  deriving DecidableEq, Repr

namespace Diagnostic

/-- A problem of a lexeme. -/
def lexical (message : String) (span : Span) : Diagnostic :=
  ⟨.lexical, message, span, []⟩

/-- A problem of the order of tokens. -/
def syntactic (message : String) (span : Span) : Diagnostic :=
  ⟨.syntactic, message, span, []⟩

/-- A further hint, after the others. -/
def withHint (d : Diagnostic) (hint : String) : Diagnostic :=
  { d with hints := d.hints ++ [hint] }

/-- The wording for a parenthesis that nothing closes. -/
def unclosedParenthesisMessage : String :=
  "unbalanced parentheses: `(` is never closed"

/-- The parenthesis at the given place is never closed. -/
def unclosedParenthesis (opener : Span) : Diagnostic :=
  (syntactic unclosedParenthesisMessage opener).withHint "add the missing `)`"

/-- The hints, one a line, if there are any. -/
def help? (d : Diagnostic) : Option String :=
  if d.hints.isEmpty then none else some ("\n".intercalate d.hints)

/-- The position of a diagnostic and its message on one line, with the name of the file in front
    if it is known: `name:line:column message`. The position is looked up in the characters of
    the source text. -/
def oneLine (d : Diagnostic) (name : Option String) (source : List Char) : String :=
  let p := Position.ofOffset source d.span.start
  let place := toString p.line ++ ":" ++ toString p.column ++ " " ++ d.message
  match name with
  | some name => name ++ ":" ++ place
  | none => place

end Diagnostic

end Semicolons
