import Semicolons.Place

/-!
# Insertion of semicolons

A semicolon belongs after a token on which a statement can end, if the next visible token begins
a line or there is none. It is left out where one stands already, and after a literal that is
never closed, since it would become part of that literal.
-/

namespace Semicolons

/-- Whether a semicolon belongs after the token at a place. -/
def Place.wantsSemicolon (p : Place) : Bool :=
  p.token?.any (fun t => !t.isHidden && t.kind.endsStatement && t.fault.isNone) &&
    p.next?.any fun q => !q.spells ";" && (q.token?.any (·.isEnd) || q.startsLine)

/-- The tokens of a stream, each with whether a semicolon belongs after it. -/
def marked (stream : List Token) : List (Token × Bool) :=
  (places stream).filterMap fun p => p.token?.map (·, p.wantsSemicolon)

/-- The characters of a token, and the semicolon that belongs after it. -/
def withSemicolon (t : Token) (wanted : Bool) : List Char :=
  if wanted then t.chars ++ [';'] else t.chars

/-- The text of a stream with every semicolon that belongs in it. -/
def withSemicolons (stream : List Token) : String :=
  String.ofList ((marked stream).flatMap fun (t, wanted) => withSemicolon t wanted)

/-- The number of semicolons that belong into a stream. -/
def semicolonCount (stream : List Token) : Nat :=
  (marked stream).countP (·.2)

end Semicolons
