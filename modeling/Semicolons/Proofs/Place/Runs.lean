import Mathlib.Data.List.DropRight
import Semicolons.Proofs.Place.Ahead

/-!
# Runs of layout

The layout in front of a token is the longest run of hidden tokens that ends there
(`isLongestRun_layoutBefore`), and the token behind a visible one is the nearest visible one
(`nextVisible?_eq_some_iff`). One search runs backwards and the other forwards, but between two
visible tokens that come one behind the other both see the same layout. So a stream is its visible
tokens, each with the run in front of it, up to the last of them (`partsStream_ofIndex`).
-/

namespace Semicolons

/-- The index of the first visible token behind the one with the given index. -/
def nextVisible? (stream : List Token) (i : Nat) : Option Nat :=
  ((Place.ofIndex stream i).next?.bind Place.token?).map (·.index)

/-- The layout in front of the token with the given index. -/
def layoutBefore (stream : List Token) (i : Nat) : List Token :=
  (Place.ofIndex stream i).gap

/-- The token with the given index is visible. -/
def VisibleAt (stream : List Token) (i : Nat) : Prop :=
  ∃ t, stream[i]? = some t ∧ t.isHidden = false

/-- The longest run of hidden tokens at the end of some tokens. -/
structure IsLongestRun (ts run : List Token) : Prop where
  suffix : run <:+ ts
  hidden : ∀ g ∈ run, g.isHidden = true
  longest : ∀ other, other <:+ ts → (∀ g ∈ other, g.isHidden = true) → other.length ≤ run.length

/-- A search for the next visible token, and one for the layout in front of a token, that part a
    stream in runs of layout and the visible tokens behind them. -/
structure PartsStream (stream : List Token) (next? : Nat → Option Nat)
    (before : Nat → List Token) : Prop where
  /-- The search forwards finds the nearest visible token. -/
  next : ∀ i j, next? i = some j ↔ IsLeast {j | i < j ∧ VisibleAt stream j} j
  /-- The search backwards finds the longest run. -/
  longest : ∀ i < stream.length, IsLongestRun (stream.take i) (before i)
  /-- Between a visible token and the next one both see the same layout. -/
  between : ∀ i j, VisibleAt stream i → next? i = some j → before j = (stream.take j).drop (i + 1)
  /-- The visible tokens, each behind its run, are the stream without the layout at its end. -/
  joined : (visibleTokens stream).flatMap (fun t => before t.index ++ [t]) =
    stream.rdropWhile Token.isHidden

namespace IsLongestRun

variable {ts run run' before : List Token} {t : Token}

theorem unique (h : IsLongestRun ts run) (h' : IsLongestRun ts run') : run = run' := by
  have hle := h'.longest run h.suffix h.hidden
  have hge := h.longest run' h'.suffix h'.hidden
  exact (List.suffix_of_suffix_length_le h.suffix h'.suffix hle).eq_of_length
    (Nat.le_antisymm hle hge)

/-- Behind a visible token, a run begins anew. -/
theorem of_visible (ht : t.isHidden = false) (hrun : ∀ g ∈ run, g.isHidden = true) :
    IsLongestRun (before ++ t :: run) run where
  suffix := (List.suffix_cons t run).trans (List.suffix_append before _)
  hidden := hrun
  longest := by
    intro other hother hhidden
    by_contra hlt
    have hin : t :: run <:+ other :=
      List.suffix_of_suffix_length_le (List.suffix_append before _) hother (Nat.not_le.mp hlt)
    rw [hhidden t (hin.subset List.mem_cons_self)] at ht
    cases ht

theorem rtakeWhile (ts : List Token) : IsLongestRun ts (ts.rtakeWhile Token.isHidden) where
  suffix := List.rtakeWhile_suffix _ _
  hidden := fun _ => List.mem_rtakeWhile_imp
  longest := by
    rintro other ⟨before, rfl⟩ hother
    have hreverse : ∀ g ∈ other.reverse, g.isHidden = true := by simpa using hother
    rw [List.rtakeWhile, List.reverse_append, List.takeWhile_append_of_pos hreverse]
    simp

end IsLongestRun

section Search

variable {stream : List Token} {i j : Nat}

theorem layoutBefore_eq (hi : i < stream.length) :
    layoutBefore stream i = (stream.take i).rtakeWhile Token.isHidden := by
  have hahead : (stream.drop i).isEmpty = false := by simpa using hi
  rw [layoutBefore, Place.ofIndex, if_pos hi.le, Place.gap, hahead]
  rfl

/-- Looking back from a token finds the longest run in front of it. -/
theorem isLongestRun_layoutBefore (hi : i < stream.length) :
    IsLongestRun (stream.take i) (layoutBefore stream i) := by
  rw [layoutBefore_eq hi]
  exact .rtakeWhile _

theorem Place.bind_token?_seek_one (behind ahead : List Token) :
    (seek 1 behind ahead).bind token? = ahead.find? (!·.isHidden) := by
  induction ahead generalizing behind with
  | nil => rfl
  | cons t ahead ih =>
    by_cases ht : t.isHidden = true
    · rw [seek, if_pos ht, ih, List.find?_cons_of_neg (by simp [ht])]
    · simp [seek, ht, token?]

/-- Looking ahead from an index skips the token there. -/
theorem nextVisible?_eq_find? (stream : List Token) (i : Nat) :
    nextVisible? stream i =
      ((stream.drop (i + 1)).find? (!·.isHidden)).map (·.index) := by
  rw [nextVisible?, Place.next?, Place.ahead_ofIndex, ← List.tail_drop]
  cases stream.drop i with
  | nil => rfl
  | cons t rest => rw [Place.bind_token?_seek_one, List.tail_cons]

/-- Where every token knows its index, the search forwards finds the nearest visible token. -/
theorem nextVisible?_eq_some_iff
    (hindex : ∀ (i : Nat) (t : Token), stream[i]? = some t → t.index = i) :
    nextVisible? stream i = some j ↔ IsLeast {j | i < j ∧ VisibleAt stream j} j := by
  rw [nextVisible?_eq_find?, Option.map_eq_some_iff]
  constructor
  · rintro ⟨n, hn, rfl⟩
    obtain ⟨hvisible, k, hk, hget, hfirst⟩ := List.find?_eq_some_iff_getElem.mp hn
    have hn : stream[i + 1 + k]? = some n := by
      rw [← List.getElem?_drop, List.getElem?_eq_getElem hk, hget]
    rw [hindex _ n hn]
    refine ⟨⟨by omega, n, hn, by simpa using hvisible⟩, ?_⟩
    rintro m ⟨hm, t, ht, htvisible⟩
    by_contra hlt
    obtain ⟨l, rfl⟩ : ∃ l, m = i + 1 + l := ⟨m - (i + 1), by omega⟩
    rw [← List.getElem?_drop] at ht
    have hhidden := hfirst l (by omega)
    rw [(List.getElem?_eq_some_iff.mp ht).2, htvisible] at hhidden
    cases hhidden
  · rintro ⟨⟨hij, n, hn, hvisible⟩, hleast⟩
    obtain ⟨k, rfl⟩ : ∃ k, j = i + 1 + k := ⟨j - (i + 1), by omega⟩
    refine ⟨n, List.find?_eq_some_iff_getElem.mpr ⟨by simpa using hvisible, ?_⟩, hindex _ n hn⟩
    rw [← List.getElem?_drop] at hn
    obtain ⟨hk, hget⟩ := List.getElem?_eq_some_iff.mp hn
    refine ⟨k, hk, hget, ?_⟩
    intro l hl
    by_contra hlvisible
    have ht : stream[i + 1 + l]? = some (stream.drop (i + 1))[l] := by
      rw [← List.getElem?_drop, List.getElem?_eq_getElem]
    have hle : i + 1 + k ≤ i + 1 + l := hleast ⟨by omega, _, ht, by simpa using hlvisible⟩
    omega

/-- In front of the nearest visible token there is only layout. -/
theorem isHidden_of_isLeast (h : IsLeast {j | i < j ∧ VisibleAt stream j} j) :
    ∀ g ∈ (stream.take j).drop (i + 1), g.isHidden = true := by
  intro g hg
  obtain ⟨k, hk⟩ := List.mem_iff_getElem?.mp hg
  rw [List.getElem?_drop, List.getElem?_take] at hk
  split at hk
  · next hlt =>
    by_contra hvisible
    have hle : j ≤ i + 1 + k := h.2 ⟨by omega, g, hk, by simpa using hvisible⟩
    omega
  · cases hk

/-- Between a visible token and the next one, the search backwards finds what the search forwards
    has passed. -/
theorem layoutBefore_of_isLeast (hi : VisibleAt stream i)
    (h : IsLeast {j | i < j ∧ VisibleAt stream j} j) :
    layoutBefore stream j = (stream.take j).drop (i + 1) := by
  obtain ⟨t, ht, hvisible⟩ := hi
  obtain ⟨hij, n, hn, -⟩ := h.1
  have htake : (stream.take j)[i]? = some t := by rwa [List.getElem?_take_of_lt hij]
  have hrun := isLongestRun_layoutBefore (List.getElem?_eq_some_iff.mp hn).1
  rw [eq_take_append_drop_of_getElem? htake] at hrun
  exact hrun.unique (.of_visible hvisible (isHidden_of_isLeast h))

theorem layoutBefore_append_of_lt (hi : i < stream.length) (rest : List Token) :
    layoutBefore (stream ++ rest) i = layoutBefore stream i := by
  have hi' : i < (stream ++ rest).length := by
    rw [List.length_append]
    omega
  rw [layoutBefore_eq hi', layoutBefore_eq hi, List.take_append_of_le_length hi.le]

theorem layoutBefore_concat (stream : List Token) (t : Token) :
    layoutBefore (stream ++ [t]) stream.length = stream.rtakeWhile Token.isHidden := by
  rw [layoutBefore_eq (by simp), List.take_left]

end Search

/-- The visible tokens, each behind the layout in front of it, are the stream up to the last one. -/
theorem flatMap_layoutBefore {stream : List Token}
    (hindex : ∀ (i : Nat) (t : Token), stream[i]? = some t → t.index = i) :
    (visibleTokens stream).flatMap (fun t => layoutBefore stream t.index ++ [t]) =
      stream.rdropWhile Token.isHidden := by
  induction stream using List.reverseRecOn with
  | nil => rfl
  | append_singleton stream x ih =>
    have hstream : ∀ (i : Nat) (t : Token), stream[i]? = some t → t.index = i := by
      intro i t ht
      have hlt := (List.getElem?_eq_some_iff.mp ht).1
      exact hindex i t (by rwa [List.getElem?_append_left hlt])
    have hrest : (visibleTokens stream).flatMap
        (fun t => layoutBefore (stream ++ [x]) t.index ++ [t]) =
          stream.rdropWhile Token.isHidden := by
      rw [← ih hstream]
      refine List.flatMap_congr fun t ht => ?_
      obtain ⟨i, hi⟩ := List.mem_iff_getElem?.mp (List.mem_of_mem_filter ht)
      have hlt := (List.getElem?_eq_some_iff.mp hi).1
      rw [hstream i t hi, layoutBefore_append_of_lt hlt]
    by_cases hx : x.isHidden = true
    · rw [List.rdropWhile_concat_pos _ _ _ hx, ← hrest]
      simp [visibleTokens, hx]
    · have hxindex : x.index = stream.length := hindex _ _ (by simp)
      have hvisible : visibleTokens (stream ++ [x]) = visibleTokens stream ++ [x] := by
        simp [visibleTokens, hx]
      rw [hvisible, List.flatMap_append, hrest, List.flatMap_singleton, hxindex,
        layoutBefore_concat, ← List.append_assoc, List.rdropWhile_append_rtakeWhile,
        List.rdropWhile_concat_neg _ _ _ hx]

/-- In a stream in which every token knows its index, the search for the next visible token and the
    one for the layout in front of a token part the stream. -/
theorem partsStream_ofIndex {stream : List Token}
    (hindex : ∀ (i : Nat) (t : Token), stream[i]? = some t → t.index = i) :
    PartsStream stream (nextVisible? stream) (layoutBefore stream) where
  next _ _ := nextVisible?_eq_some_iff hindex
  longest _ := isLongestRun_layoutBefore
  between _ _ hi hj := layoutBefore_of_isLeast hi ((nextVisible?_eq_some_iff hindex).mp hj)
  joined := flatMap_layoutBefore hindex

/-- What is hidden is layout whatever its kind, and that at the end of the stream is in front of
    nothing. -/
theorem partsStream_hidden_name :
    let stream := layOut 0 0 [(⟨.lineBreaks, "\n", none⟩, .hidden),
      (⟨.identifier, "a", none⟩, .visible), (⟨.identifier, "b", none⟩, .hidden),
      (.endOfInput, .hidden), (⟨.identifier, "c", none⟩, .visible), (⟨.blanks, " ", none⟩, .hidden)]
    (∀ (i : Nat) (t : Token), stream[i]? = some t → t.index = i) ∧
      nextVisible? stream 1 = some 4 ∧ layoutBefore stream 4 = (stream.take 4).drop 2 ∧
      (visibleTokens stream).flatMap (fun t => layoutBefore stream t.index ++ [t]) =
        stream.take 5 := by
  intro stream
  have hindex : ∀ (i : Nat) (t : Token), stream[i]? = some t → t.index = i := by
    intro i t h
    obtain ⟨hlt, rfl⟩ := List.getElem?_eq_some_iff.mp h
    revert i
    decide
  obtain ⟨-, -, hbetween, hjoined⟩ := partsStream_ofIndex hindex
  have hnext : nextVisible? stream 1 = some 4 := by decide
  exact ⟨hindex, hnext, hbetween 1 4 ⟨_, rfl, rfl⟩ hnext, hjoined⟩

end Semicolons
