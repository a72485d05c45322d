/-!
# Spans

A stretch of a source text, given by the byte offsets of its two ends in the text's UTF-8 form.
-/

namespace Semicolons

/-- The bytes from `start` up to but not including `stop`. -/
structure Span where
  start : Nat
  stop : Nat
  deriving DecidableEq, Repr

namespace Span

/-- The number of bytes in a span, zero if its ends are the wrong way round. -/
def length (s : Span) : Nat :=
  s.stop - s.start

/-- Whether a span holds no byte. -/
def isEmpty (s : Span) : Bool :=
  s.length == 0

end Span

end Semicolons
