import Semicolons.Proofs.Place.Parentheses

/-!
# Looking ahead

What can be seen from a place are the visible tokens ahead of it, up to the first that ends the
input (`throughEnd`). They have the numbers one, two and so on, and all larger numbers belong to the
last of them, if it ends the input (`LooksAhead`). Looking on from a token that has been found is
looking further ahead from where it was found (`visible?_of_visible?`), so that numbers can be added
along a stream in which every token knows its index (`looksAhead_ofIndex`).
-/

namespace Semicolons

/-- The tokens up to the first that ends the input, and that one. -/
def throughEnd : List Token → List Token
  | [] => []
  | t :: ts => if t.isEnd then [t] else t :: throughEnd ts

theorem throughEnd_of_end {t : Token} (h : t.isEnd = true) (ts : List Token) :
    throughEnd (t :: ts) = [t] := by
  simp [throughEnd, h]

theorem throughEnd_cons {t : Token} (h : t.isEnd = false) (ts : List Token) :
    throughEnd (t :: ts) = t :: throughEnd ts := by
  simp [throughEnd, h]

/-- Tokens that can be seen are looked up by their numbers, which count from one. Numbers that are
    too large belong to the end of the input, if that can be seen. -/
structure LooksAhead (look : Nat → Option Token) (seen : List Token) : Prop where
  zero : look 0 = none
  within : ∀ k (hk : k < seen.length), look (k + 1) = some seen[k]
  beyond : ∀ k, seen.length ≤ k → look (k + 1) = seen.getLast?.filter (·.isEnd)

namespace Place

/-- One equation for numbers that are small enough and for those that are not. -/
theorem bind_token?_seek (k : Nat) (behind ahead : List Token) :
    (seek (k + 1) behind ahead).bind token? =
      (throughEnd (visibleTokens ahead))[k]?.or
        ((throughEnd (visibleTokens ahead)).getLast?.filter (·.isEnd)) := by
  induction ahead generalizing k behind with
  | nil => simp [seek, visibleTokens, throughEnd]
  | cons x ahead ih =>
    by_cases hx : x.isHidden = true
    · rw [visibleTokens_hidden hx, ← ih k (x :: behind), seek, if_pos hx]
    · have hx : x.isHidden = false := by simpa using hx
      rw [visibleTokens_visible hx]
      by_cases hend : x.isEnd = true
      · rw [throughEnd_of_end hend]
        cases k <;> simp [seek, hx, hend, token?, Option.filter]
      · have hend : x.isEnd = false := by simpa using hend
        rw [throughEnd_cons hend]
        cases k with
        | zero => simp [seek, hx, token?]
        | succ k =>
          have hlast : (x :: throughEnd (visibleTokens ahead)).getLast?.filter (·.isEnd) =
              (throughEnd (visibleTokens ahead)).getLast?.filter (·.isEnd) := by
            cases throughEnd (visibleTokens ahead) with
            | nil => simp [hend]
            | cons y ys => rw [List.getLast?_cons_cons]
          rw [List.getElem?_cons_succ, hlast, ← ih k (x :: behind)]
          simp [seek, hx, hend]

/-- The tokens that can be seen from a place. -/
theorem looksAhead_visibleToken? (p : Place) :
    LooksAhead p.visibleToken? (throughEnd (visibleTokens p.ahead)) where
  zero := by simp [visibleToken?, visible?, seek]
  within k hk := by
    rw [visibleToken?, visible?, bind_token?_seek, List.getElem?_eq_getElem hk, Option.some_or]
  beyond k hk := by
    rw [visibleToken?, visible?, bind_token?_seek, List.getElem?_eq_none hk, Option.none_or]

/-- Seeking on from where a search has stopped is searching for a larger number at once. -/
theorem seek_of_seek {j k : Nat} {behind ahead : List Token} {q : Place}
    (h : seek (j + 1) behind ahead = some q) :
    seek (k + 1) q.behind q.ahead = seek (j + k + 1) behind ahead := by
  induction ahead generalizing j behind with
  | nil => cases h
  | cons x ahead ih =>
    by_cases hx : x.isHidden = true
    · rw [seek, if_pos hx] at h ⊢
      exact ih h
    · rw [seek, if_neg hx] at h
      by_cases hstop : j = 0 ∨ x.isEnd = true
      · rw [if_pos hstop] at h
        obtain rfl := Option.some.inj h
        rcases hstop with rfl | hend
        · rw [Nat.zero_add]
        · rw [seek, seek, if_neg hx, if_neg hx, if_pos (Or.inr hend), if_pos (Or.inr hend)]
      · rw [if_neg hstop] at h
        obtain ⟨hj, hend⟩ := not_or.mp hstop
        obtain ⟨j, rfl⟩ := Nat.exists_eq_succ_of_ne_zero hj
        have hnext : ¬ (j + 1 + k = 0 ∨ x.isEnd = true) := by
          rintro (hzero | htrue)
          · omega
          · exact hend htrue
        rw [ih h, seek, if_neg hx, if_neg hnext, Nat.add_right_comm j 1 k]

theorem visible?_of_visible? {p q : Place} {j k : Nat} (h : p.visible? (j + 1) = some q) :
    q.visible? (k + 1) = p.visible? (j + k + 1) :=
  seek_of_seek h

/-- A place that is found in a stream parts that stream in two. -/
theorem exists_split_of_visible? {stream : List Token} {c k : Nat} {q : Place}
    (h : (ofIndex stream c).visible? (k + 1) = some q) :
    ∃ before t rest, stream = before ++ t :: rest ∧ q = ⟨before.reverse, t :: rest⟩ := by
  obtain ⟨passed, t, rest, hahead, -, rfl⟩ := seek_eq_some_iff.mp h
  rw [ahead_ofIndex] at hahead
  have hle : c ≤ stream.length := by
    by_contra hgt
    rw [List.drop_eq_nil_of_le (Nat.le_of_not_le hgt)] at hahead
    simp at hahead
  refine ⟨stream.take c ++ passed, t, rest, ?_, ?_⟩
  · rw [List.append_assoc, ← hahead, List.take_append_drop]
  · rw [ofIndex, if_pos hle, List.reverse_append]

/-- Where every token knows its index, a place that is found is the one that the index of its token
    says. -/
theorem ofIndex_of_visible? {stream : List Token} {c k : Nat} {q : Place} {t : Token}
    (hindex : ∀ (i : Nat) (t : Token), stream[i]? = some t → t.index = i)
    (hq : (ofIndex stream c).visible? (k + 1) = some q) (ht : q.token? = some t) :
    ofIndex stream t.index = q := by
  obtain ⟨before, n, rest, rfl, rfl⟩ := exists_split_of_visible? hq
  obtain rfl := Option.some.inj ht
  rw [hindex before.length n (by simp), ofIndex_append]

/-- From every cursor into a stream, those of the visible tokens from there on that come up to the
    first end of the input are found by their numbers. In a stream where every token knows its
    index, the numbers from a token that has been found go on from its own number. -/
theorem looksAhead_ofIndex {stream : List Token}
    (hindex : ∀ (i : Nat) (t : Token), stream[i]? = some t → t.index = i) (c : Nat) :
    LooksAhead (ofIndex stream c).visibleToken? (throughEnd (visibleTokens (stream.drop c))) ∧
      ∀ j t, (ofIndex stream c).visibleToken? j = some t → ∀ k, 1 ≤ k →
        (ofIndex stream t.index).visibleToken? k =
          (ofIndex stream c).visibleToken? (j + k - 1) := by
  refine ⟨?_, ?_⟩
  · rw [← ahead_ofIndex]
    exact looksAhead_visibleToken? _
  · intro j t hj k hk
    obtain ⟨q, hq, ht⟩ := Option.bind_eq_some_iff.mp hj
    cases j with
    | zero => simp [visible?, seek] at hq
    | succ j =>
      obtain ⟨k, rfl⟩ := Nat.exists_eq_succ_of_ne_zero (Nat.one_le_iff_ne_zero.mp hk)
      have hsum : j + 1 + (k + 1) - 1 = j + k + 1 := by omega
      rw [ofIndex_of_visible? hindex hq ht, hsum, visibleToken?, visibleToken?,
        visible?_of_visible? hq]

/-- The first visible end is never passed: neither the hidden one in front of it nor the name behind
    it is seen. -/
theorem looksAhead_to_first_end :
    let stream := layOut 0 0 [(⟨.blanks, " ", none⟩, .hidden), (⟨.identifier, "a", none⟩, .visible),
      (.endOfInput, .hidden), (.endOfInput, .visible), (⟨.identifier, "b", none⟩, .visible)]
    let stop : Token := ⟨.endOfInput, .visible, 3, ⟨2, 2⟩⟩
    (∀ (i : Nat) (t : Token), stream[i]? = some t → t.index = i) ∧
      (ofIndex stream 0).visibleToken? 4 = some stop ∧
      (ofIndex stream 1).visibleToken? 4 = some stop ∧
      (ofIndex stream 4).visibleToken? 2 = none := by
  intro stream stop
  have hindex : ∀ (i : Nat) (t : Token), stream[i]? = some t → t.index = i := by
    intro i t h
    obtain ⟨hlt, rfl⟩ := List.getElem?_eq_some_iff.mp h
    revert i
    decide
  obtain ⟨hlook, hadd⟩ := looksAhead_ofIndex hindex 0
  have hstop : (ofIndex stream 0).visibleToken? 4 = some stop := hlook.beyond 3 (by decide)
  have hname : (ofIndex stream 0).visibleToken? 1 =
      some ⟨⟨.identifier, "a", none⟩, .visible, 1, ⟨1, 2⟩⟩ := hlook.within 0 (by decide)
  have hlast := (looksAhead_ofIndex hindex 4).1.beyond 1 (by decide)
  exact ⟨hindex, hstop, (hadd 1 _ hname 4 (by decide)).trans hstop, hlast⟩

end Place

end Semicolons
