import Semicolons.Site

/-!
# Function signatures

A function's body has to begin on the line on which its signature ends, since otherwise a
semicolon would part the two. The sites after a `func` are read as far as that needs: an optional
receiver and name, or neither; optional type parameters; the parameters; and the result, which
never goes on after a line feed.
-/

namespace Semicolons

namespace Signature

/-- Whether the first site is the given mark. -/
def beginsWith (sites : List Site) (mark : Punctuation) : Bool :=
  sites.head?.any (·.isMark mark)

/-- Whether the first site is a name. -/
def beginsWithName (sites : List Site) : Bool :=
  sites.head?.any (·.kind = .identifier)

/-- The sites after the group that the first site opens, if the group is closed. -/
def afterGroup? : List Site → Option (List Site)
  | [] => none
  | s :: rest => s.inside.map fun n => rest.drop (n + 1)

/-- Whether the sites after a parenthesised group show that the group is a receiver: a name
    follows, and then the start of parameters or of type parameters. -/
def followReceiver (sites : List Site) : Bool :=
  beginsWithName sites &&
    (beginsWith sites.tail .lParen || beginsWith sites.tail .lBracket)

/-- The sites from the parameters on, where a name and optional type parameters come first. -/
def namedParameters? (sites : List Site) : Option (List Site) :=
  if beginsWithName sites then
    let rest := if beginsWith sites.tail .lBracket then afterGroup? sites.tail else some sites.tail
    rest.filter (beginsWith · .lParen)
  else none

/-- The sites from the parameters on, in a signature that begins with the first site, or none if
    the sites do not look like a signature. It is an error if a parenthesis that begins them is
    never closed. -/
def parameters? (sites : List Site) : Except Token (Option (List Site)) :=
  match sites with
  | [] => .ok none
  | s :: _ =>
    if s.isMark .lParen then
      match afterGroup? sites with
      | none => .error s.token
      | some after => if followReceiver after then .ok (namedParameters? after) else .ok (some sites)
    else .ok (namedParameters? sites)

/-- How many further sites belong with the first one to a result, or none if the result ends
    before the first one. -/
def resultPart? (s : Site) (rest : List Site) : Option Nat :=
  match s.kind with
  | .identifier | .keyword .map | .keyword .chan | .keyword .func
  | .punctuation .dot | .punctuation .star | .punctuation .arrow => some 0
  | .punctuation .lParen | .punctuation .lBracket => s.inside.map (· + 1)
  | .keyword .struct | .keyword .interface =>
    match rest with
    | [] => none
    | brace :: _ => if brace.isMark .lBrace then brace.inside.map (· + 2) else none
  | _ => none

/-- The sites after the result that begins `skip` sites further on. -/
def afterResult (skip : Nat) : List Site → List Site
  | [] => []
  | s :: rest =>
    match skip with
    | skip + 1 => afterResult skip rest
    | 0 =>
      if s.followsLineFeed then s :: rest
      else
        match resultPart? s rest with
        | none => s :: rest
        | some more => afterResult more rest

/-- Where a body would begin, behind parameters after which the given sites come: right there if a
    line feed precedes them, and else after the result. -/
def bodyAfter (sites : List Site) : List Site :=
  if sites.head?.any (·.followsLineFeed) then sites else afterResult 0 sites

/-- What can be wrong with a signature. -/
inductive Defect where
  /-- A parenthesis is never closed. -/
  | unclosedParenthesis (opener : Token)
  /-- The body begins on a line of its own. -/
  | detachedBody (brace : Token)
  deriving DecidableEq, Repr

/-- What is wrong with the signature that the given sites begin with, if they do. -/
def defect? (sites : List Site) : Option Defect :=
  match parameters? sites with
  | .error opener => some (.unclosedParenthesis opener)
  | .ok none => none
  | .ok (some parameters) =>
    match parameters, afterGroup? parameters with
    | [], _ => none
    | opener :: _, none => some (.unclosedParenthesis opener.token)
    | _ :: _, some after =>
      match bodyAfter after with
      | [] => none
      | s :: _ =>
        if s.isMark .lBrace && s.followsLineFeed then some (.detachedBody s.token) else none

/-- The defects of all signatures, in the order of their `func`. -/
def defects : List Site → List Defect
  | [] => []
  | s :: rest =>
    if s.kind = .keyword .func then (defect? rest).toList ++ defects rest else defects rest

end Signature

end Semicolons
