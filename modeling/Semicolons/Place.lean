import Semicolons.Token

/-!
# Places in a token stream

A place parts a stream of tokens in two: those behind it, the nearest first, and those ahead of
it. The questions that decide where a statement ends are asked at a place: whether a line begins
there, which visible tokens lie ahead, and what layout lies between.

Visible tokens are counted from one, beginning with the token at the place itself if it is
visible. Counting stops at the end of the input.
-/

namespace Semicolons

/-- The tokens behind a place, nearest first, and those ahead of it. -/
structure Place where
  behind : List Token
  ahead : List Token
  deriving DecidableEq, Repr

namespace Place

/-- The place in front of the token with the given index. An index past the end of the stream
    has nothing around it. -/
def ofIndex (stream : List Token) (index : Nat) : Place :=
  if index ≤ stream.length then ⟨(stream.take index).reverse, stream.drop index⟩
  else ⟨[], []⟩

/-- The token at a place. -/
def token? (p : Place) : Option Token :=
  p.ahead.head?

/-- The layout directly behind a place, in the order of the stream. There is none where the
    stream ends. -/
def gap (p : Place) : List Token :=
  if p.ahead.isEmpty then [] else (p.behind.takeWhile Token.isHidden).reverse

/-- Whether a line begins at a place: nothing lies behind it, or a token that breaks the line does,
    with at most one run of blanks after it. A visible token behind it settles that none does. -/
def startsLine (p : Place) : Bool :=
  match p.behind with
  | [] => true
  | t :: rest =>
    if t.isHidden then
      if t.kind = .blanks then rest.head?.all (·.breaksLine) else t.breaksLine
    else false

/-- The place of the visible token with the given number, among the tokens `ahead` of a place with
    the tokens `behind` it. -/
def seek : Nat → List Token → List Token → Option Place
  | 0, _, _ => none
  | _ + 1, _, [] => none
  | k + 1, behind, t :: rest =>
    if t.isHidden then seek (k + 1) (t :: behind) rest
    else if k = 0 ∨ t.isEnd then some ⟨behind, t :: rest⟩
    else seek k (t :: behind) rest

/-- The place of the visible token with the given number. Numbers past the end of the input
    belong to the end of the input. -/
def visible? (p : Place) (k : Nat) : Option Place :=
  seek k p.behind p.ahead

/-- The place of the first visible token after the one at a place. -/
def next? (p : Place) : Option Place :=
  match p.ahead with
  | [] => none
  | t :: rest => seek 1 (t :: p.behind) rest

/-- Whether the first visible token has the given text. -/
def spells (p : Place) (text : String) : Bool :=
  (p.visible? 1).any fun q => q.token?.any fun t => t.text? == some text

/-- Whether a line feed lies in the layout directly behind a place. -/
def followsLineFeed (p : Place) : Bool :=
  p.gap.any (·.hasLineFeed)

/-- Whether the visible token with the given number has no line feed directly before it, which
    also holds if there is no such token. -/
def continuesLine (p : Place) (k : Nat) : Bool :=
  (p.visible? k).all fun q => !q.followsLineFeed

/-- The number of the parenthesis that closes a group, in front of the tokens inside it. The
    visible tokens up to here have the numbers up to `k`, and `depth` groups inside the group are
    open. -/
def closingNumber? (depth k : Nat) : List Token → Option Nat
  | [] => none
  | t :: rest =>
    if t.isHidden then closingNumber? depth k rest
    else if t.isEnd then none
    else if t.isMark .lParen then closingNumber? (depth + 1) (k + 1) rest
    else if t.isMark .rParen then
      match depth with
      | 0 => some (k + 1)
      | depth + 1 => closingNumber? depth (k + 1) rest
    else closingNumber? depth (k + 1) rest

/-- The number of the parenthesis that closes the one with number `k`, or none if that token is
    not an opening parenthesis. An opening parenthesis that is never closed is an error. -/
def closingParenthesis? (p : Place) (k : Nat) : Except Token (Option Nat) :=
  match p.visible? k with
  | some ⟨_, t :: rest⟩ =>
    if t.isMark .lParen then
      match closingNumber? 0 k rest with
      | some m => .ok (some m)
      | none => .error t
    else .ok none
  | _ => .ok none

/-- Whether the token after the parenthesised group that begins at the token with number `k` has no
    line feed directly before it, which also holds if no such group begins there. -/
def continuesAfterGroup (p : Place) (k : Nat) : Except Token Bool :=
  match p.closingParenthesis? k with
  | .error opener => .error opener
  | .ok none => .ok true
  | .ok (some close) => .ok (p.continuesLine (close + 1))

end Place

/-- The places of the tokens `ahead`, with the tokens `behind` them. -/
def placesFrom (behind : List Token) : List Token → List Place
  | [] => []
  | t :: rest => ⟨behind, t :: rest⟩ :: placesFrom (t :: behind) rest

/-- The places of all tokens of a stream. -/
def places (stream : List Token) : List Place :=
  placesFrom [] stream

end Semicolons
