import Semicolons.Place

/-!
# Sites

A site is a visible token as the reader of a signature meets it: with whether a line feed precedes
it, and, for a bracket that opens a group, how many sites lie inside the group.

Brackets are paired per kind, so that a stray `]` hides no `)`. Pairing runs from the end of the
stream to its start, and what it finds for an opening bracket depends only on the tokens after
that bracket.
-/

namespace Semicolons

/-- The closing brackets met so far, from the end of a sequence backwards, that still wait for
    their opening bracket. Each is given by the number of items after it, the nearest first. -/
structure Waiting where
  /-- How many items have been met. -/
  met : Nat
  round : List Nat
  square : List Nat
  curly : List Nat
  deriving DecidableEq, Repr

namespace Waiting

/-- Before any item. -/
def initial : Waiting :=
  ⟨0, [], [], []⟩

/-- Those of one kind that wait. -/
def ofKind (w : Waiting) : Bracket → List Nat
  | .round => w.round
  | .square => w.square
  | .curly => w.curly

/-- Replaces those of one kind that wait. -/
def setKind (w : Waiting) (b : Bracket) (closers : List Nat) : Waiting :=
  match b with
  | .round => { w with round := closers }
  | .square => { w with square := closers }
  | .curly => { w with curly := closers }

/-- Meets an item that is no bracket. -/
def skip (w : Waiting) : Waiting :=
  { w with met := w.met + 1 }

end Waiting

/-- Meets the item `kind` in front of a sequence of which `w` waits, and `found` is known. -/
def pairStep (kind : Kind) (state : Waiting × List (Option Nat)) : Waiting × List (Option Nat) :=
  let (w, found) := state
  match kind.bracket? with
  | none => (w.skip, none :: found)
  | some (.closing, b) => ((w.setKind b (w.met :: w.ofKind b)).skip, none :: found)
  | some (.opening, b) =>
    match w.ofKind b with
    | [] => (w.skip, none :: found)
    | closer :: others => ((w.setKind b others).skip, some (w.met - 1 - closer) :: found)

/-- For every item of a sequence, the number of items between it and the bracket that closes it.
    There is none for an item that opens no group, or one that is never closed. -/
def insides (kinds : List Kind) : List (Option Nat) :=
  (kinds.foldr pairStep (.initial, [])).2

/-- A visible token in its surroundings. -/
structure Site where
  token : Token
  /-- Whether a line feed lies in the layout directly before the token. -/
  followsLineFeed : Bool
  /-- For a bracket that is closed, the number of sites between it and the one that closes it. -/
  inside : Option Nat
  deriving DecidableEq, Repr

/-- The places of the visible tokens of a stream. -/
def visiblePlaces (stream : List Token) : List Place :=
  (places stream).filter fun p => p.token?.any fun t => !t.isHidden

/-- The visible tokens of a stream. -/
def visibleTokens (stream : List Token) : List Token :=
  stream.filter fun t => !t.isHidden

/-- The sites of a stream. -/
def sites (stream : List Token) : List Site :=
  let marked := (visiblePlaces stream).filterMap fun p => p.token?.map (·, p.followsLineFeed)
  List.zipWith (fun (t, lineFeed) inside => ⟨t, lineFeed, inside⟩) marked
    (insides (marked.map (·.1.kind)))

namespace Site

/-- The kind of a site's token. -/
def kind (s : Site) : Kind :=
  s.token.kind

/-- Whether a site's token is the given operator or punctuation mark. -/
def isMark (s : Site) (mark : Punctuation) : Bool :=
  s.token.isMark mark

end Site

end Semicolons
