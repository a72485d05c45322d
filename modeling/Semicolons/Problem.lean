import Semicolons.Diagnostic
import Semicolons.Nesting
import Semicolons.Signature

/-!
# Problems of a source text

Everything that can be wrong with a source text, found in its tokens: faults of single tokens,
defects of signatures, and brackets that do not nest. Every problem is about one token, and
problems are listed by the place of that token.
-/

namespace Semicolons

/-- Something wrong with a source text. -/
inductive Problem where
  | faulty (token : Token) (fault : Fault)
  | signature (defect : Signature.Defect)
  | nesting (defect : Nesting.Defect)
  | unclosed (opener : Token)
  deriving DecidableEq, Repr

namespace Problem

/-- The token that a problem is about. -/
def token : Problem → Token
  | .faulty t _ => t
  | .signature (.unclosedParenthesis t) => t
  | .signature (.detachedBody t) => t
  | .nesting (.mismatched t _) => t
  | .nesting (.unexpected t) => t
  | .unclosed t => t

/-- The place of a problem. -/
def span (p : Problem) : Span :=
  p.token.span

/-- What a reader is told about a problem. -/
def diagnostic : Problem → Diagnostic
  | .faulty t fault => .lexical fault.message t.span
  | .signature (.unclosedParenthesis t) => .unclosedParenthesis t.span
  | .signature (.detachedBody t) =>
    (Diagnostic.syntactic "unexpected newline before function body" t.span).withHint
      "put the opening `\x7b` on the same line as the signature"
  | .nesting (.mismatched t opener) =>
    (Diagnostic.syntactic ("mismatched closing delimiter `" ++ t.text ++ "`") t.span).withHint
      ("`" ++ opener.text ++ "` opened at byte " ++ toString opener.span.start
        ++ " is still open")
  | .nesting (.unexpected t) =>
    .syntactic ("unexpected closing delimiter `" ++ t.text ++ "`") t.span
  | .unclosed t =>
    (Diagnostic.syntactic ("unclosed delimiter `" ++ t.text ++ "`") t.span).withHint
      "add the matching closing delimiter"

end Problem

/-- The faults of the tokens of a stream. -/
def faults (stream : List Token) : List Problem :=
  stream.filterMap fun t => t.fault.map (.faulty t)

/-- The problems of how the tokens of a stream follow one another. A group that is left open is
    reported only if nothing else is reported at its bracket. -/
def structuralProblems (stream : List Token) : List Problem :=
  let signatures := (Signature.defects (sites stream)).map Problem.signature
  let (defects, left) := Nesting.read [] (visibleTokens stream)
  let reported := signatures ++ defects.map Problem.nesting
  let spans := reported.map Problem.span
  reported ++ (left.reverse.filter fun t => !spans.contains t.span).map Problem.unclosed

/-- Puts a problem in front of the first one that does not lie to its left. -/
def Problem.insertByPlace (p : Problem) : List Problem → List Problem
  | [] => [p]
  | q :: rest =>
    if p.span.start ≤ q.span.start then p :: q :: rest else q :: p.insertByPlace rest

/-- Problems in the order of their places. Those at one place keep their order. -/
def Problem.sortByPlace (found : List Problem) : List Problem :=
  found.foldr Problem.insertByPlace []

theorem Problem.insertByPlace_perm (p : Problem) (found : List Problem) :
    (p.insertByPlace found).Perm (p :: found) := by
  induction found with
  | nil => exact List.Perm.refl [p]
  | cons q rest ih =>
    rw [insertByPlace]
    split
    · exact List.Perm.refl _
    · exact (ih.cons q).trans (List.Perm.swap p q rest)

/-- Sorting loses no problem and adds none. -/
theorem Problem.sortByPlace_perm (found : List Problem) :
    (Problem.sortByPlace found).Perm found := by
  induction found with
  | nil => exact List.Perm.refl []
  | cons p rest ih => exact (p.insertByPlace_perm _).trans (ih.cons p)

/-- The problems of a stream, in the order of their places. Those at one place keep the order in
    which they were found. -/
def problems (stream : List Token) : List Problem :=
  Problem.sortByPlace (faults stream ++ structuralProblems stream)

end Semicolons
