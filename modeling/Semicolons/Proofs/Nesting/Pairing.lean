import Semicolons.Proofs.Signature.Declaration
import Semicolons.Proofs.Site.Counting

/-!
# The pairing of brackets

Each opening bracket is paired with the first place behind it at which the closing brackets of its
kind outnumber the opening ones, whatever the brackets of the other kinds do
(`closerAt?_eq_some_iff_isLeast`). Where brackets of all kinds nest in one another, the pairs are
the groups (`closerAt?_eq_some_iff_isGroup`), so that a reading with one stack for all kinds has the
opening bracket on top of it when it comes to the closing one (`read_take_of_closerAt?`).
-/

namespace Semicolons

/-- How many brackets of one side and kind there are behind position `p`, up to position `q`. -/
def countBehind (side : Side) (b : Bracket) (ts : List Token) (p q : Nat) : Nat :=
  countBrackets side b (((ts.take (q + 1)).drop (p + 1)).map (·.kind))

section Counting

variable {ts : List Token} {b : Bracket} {p q : Nat}

/-- Counting behind a position is counting in what stands there. -/
theorem countBehind_eq_iff : p < q ∧ q < ts.length ∧
      countBehind .closing b ts p q = countBehind .opening b ts p q + 1 ↔
    ∃ n, q = p + 1 + n ∧ ClosesAt b 0 ((ts.drop (p + 1)).map (·.kind)) n := by
  have htake : ∀ n side, countBehind side b ts p (p + 1 + n) =
      countBrackets side b (((ts.drop (p + 1)).map (·.kind)).take (n + 1)) := by
    intro n side
    rw [countBehind, List.drop_take, ← List.map_take]
    congr 3
    omega
  constructor
  · rintro ⟨hlt, hlength, hcount⟩
    obtain ⟨n, rfl⟩ := Nat.exists_eq_add_of_le (Nat.succ_le_of_lt hlt)
    refine ⟨n, rfl, ?_, ?_⟩
    · rw [List.length_map, List.length_drop]
      omega
    · rw [← htake, ← htake, hcount]
  · rintro ⟨n, rfl, hlength, hcount⟩
    rw [List.length_map, List.length_drop] at hlength
    refine ⟨by omega, by omega, ?_⟩
    rw [htake, htake, hcount]

/-- A bracket is paired with the first place behind it at which the count of its kind is right. -/
theorem closerAt?_eq_some_iff_isLeast : closerAt? ts p = some q ↔
    ∃ t b, ts[p]? = some t ∧ t.kind.bracket? = some (.opening, b) ∧
      IsLeast {q | p < q ∧ q < ts.length ∧
        countBehind .closing b ts p q = countBehind .opening b ts p q + 1} q := by
  simp only [closerAt?_eq_some_iff, isLeast_add_iff fun q => countBehind_eq_iff,
    closer?_eq_some_iff]

-- A stray bracket of another kind comes between no pair.
example : closerAt? (tokens "([)") 0 = some 2 := rfl

end Counting

section Nested

variable {ts : List Token} {p q : Nat}

/-- Where brackets nest, a pair has a nested stretch between its two sides. -/
theorem exists_nested_of_closerAt? (hnested : Nested (brackets ts)) (h : closerAt? ts p = some q) :
    ∃ before opener inner closer after b, ts = before ++ opener :: (inner ++ closer :: after) ∧
      p = before.length ∧ q = before.length + 1 + inner.length ∧
      opener.kind.bracket? = some (.opening, b) ∧ Nested (brackets inner) ∧
      closer.kind.bracket? = some (.closing, b) := by
  obtain ⟨opener, b, hp, hopening, n, rfl, hn⟩ := closerAt?_eq_some_iff.mp h
  have hsplit := eq_take_append_drop_of_getElem? hp
  have hlength : p = (ts.take p).length := by
    obtain ⟨hlt, -⟩ := List.getElem?_eq_some_iff.mp hp
    rw [List.length_take, Nat.min_eq_left hlt.le]
  rw [hsplit] at hnested
  obtain ⟨inner, closer, after, hbehind, hinner, hclosing⟩ :=
    Nesting.exists_closer_of_nested hnested hopening
  have hinside := inside?_of_nested hinner hopening hclosing (after.map (·.kind))
  rw [hbehind, List.map_append, List.map_cons, ← inside?_opening hopening, hinside] at hn
  rw [hbehind] at hsplit
  refine ⟨ts.take p, opener, inner, closer, after, b, hsplit, hlength, ?_, hopening, hinner,
    hclosing⟩
  rw [← hlength, Option.some.inj hn]

/-- The two sides of a group are paired. -/
theorem closerAt?_of_isGroup {b : Bracket} (hq : q < ts.length)
    (h : IsGroup b ((ts.take (q + 1)).drop p)) : closerAt? ts p = some q := by
  obtain ⟨opener, inner, closer, hstretch, hopening, hnested, hclosing⟩ := h
  have hlength := congrArg List.length hstretch
  simp only [List.length_drop, List.length_take, List.length_cons, List.length_append,
    List.length_nil] at hlength
  have hdrop : ts.drop p = opener :: (inner ++ closer :: ts.drop (q + 1)) := by
    calc
      ts.drop p = (ts.take (q + 1) ++ ts.drop (q + 1)).drop p := by rw [List.take_append_drop]
      _ = (ts.take (q + 1)).drop p ++ ts.drop (q + 1) := by
        rw [List.drop_append_of_le_length]
        rw [List.length_take]
        omega
      _ = opener :: (inner ++ closer :: ts.drop (q + 1)) := by rw [hstretch]; simp
  have hp : ts[p]? = some opener := by
    rw [← Nat.add_zero p, ← List.getElem?_drop, hdrop]
    rfl
  refine closerAt?_eq_some_iff.mpr ⟨opener, b, hp, hopening, inner.length, by omega, ?_⟩
  rw [← List.tail_drop, hdrop, List.tail_cons, List.map_append, List.map_cons,
    ← inside?_opening hopening]
  exact inside?_of_nested hnested hopening hclosing _

/-- Where brackets nest, the pairs are the groups. -/
theorem closerAt?_eq_some_iff_isGroup (hnested : Nested (brackets ts)) :
    closerAt? ts p = some q ↔ q < ts.length ∧ ∃ b, IsGroup b ((ts.take (q + 1)).drop p) := by
  constructor
  · intro h
    obtain ⟨before, opener, inner, closer, after, b, rfl, rfl, rfl, hopening, hinner, hclosing⟩ :=
      exists_nested_of_closerAt? hnested h
    refine ⟨?_, b, opener, inner, closer, ?_, hopening, hinner, hclosing⟩
    · simp only [List.length_append, List.length_cons]
      omega
    · have hsplit : before ++ opener :: (inner ++ closer :: after) =
          before ++ opener :: (inner ++ [closer]) ++ after := by simp
      rw [hsplit, List.take_left', List.drop_left]
      simp only [List.length_append, List.length_cons, List.length_nil]
      omega
  · rintro ⟨hq, b, hgroup⟩
    exact closerAt?_of_isGroup hq hgroup

/-- Where brackets nest, the bracket that a closing one is paired with is the innermost that is
    open when it is read. -/
theorem read_take_of_closerAt? (hnested : Nested (brackets ts)) (h : closerAt? ts p = some q) :
    ∃ t, ts[p]? = some t ∧
      (Nesting.read [] (ts.take q)).2 = t :: (Nesting.read [] (ts.take p)).2 := by
  obtain ⟨before, opener, inner, closer, after, b, rfl, rfl, rfl, hopening, hinner, -⟩ :=
    exists_nested_of_closerAt? hnested h
  have hsplit : before ++ opener :: (inner ++ closer :: after) =
      before ++ opener :: inner ++ closer :: after := by simp
  have hlength : before.length + 1 + inner.length = (before ++ opener :: inner).length := by
    rw [List.length_append, List.length_cons]
    omega
  have hread := Nesting.read_append_of_nested hinner (opener :: (Nesting.read [] before).2) []
  rw [List.append_nil] at hread
  refine ⟨opener, by simp, ?_⟩
  rw [List.take_left, hsplit, List.take_left' hlength.symm, Nesting.read_append,
    Nesting.read_opening hopening, hread]
  rfl

end Nested

/-- The pairs are found by counting the brackets of each kind on their own, and no two brackets are
    paired with the same one. Where the brackets of all kinds nest, the pairs are the groups, and
    every one is what a reading with one stack pairs. -/
theorem pairs_by_count (ts : List Token) :
    (∀ p q, closerAt? ts p = some q ↔
      ∃ t b, ts[p]? = some t ∧ t.kind.bracket? = some (.opening, b) ∧
        IsLeast {q | p < q ∧ q < ts.length ∧
          countBehind .closing b ts p q = countBehind .opening b ts p q + 1} q) ∧
    (∀ p q, closerAt? ts p = some q → p < q) ∧
    (∀ p p' q, closerAt? ts p = some q → closerAt? ts p' = some q → p = p') ∧
    (Nested (brackets ts) → ∀ p q,
      (closerAt? ts p = some q ↔ q < ts.length ∧ ∃ b, IsGroup b ((ts.take (q + 1)).drop p)) ∧
      (closerAt? ts p = some q → ∃ t, ts[p]? = some t ∧
        (Nesting.read [] (ts.take q)).2 = t :: (Nesting.read [] (ts.take p)).2)) :=
  ⟨fun _ _ => closerAt?_eq_some_iff_isLeast, fun _ _ => closerAt?_lt,
    fun _ _ _ => closerAt?_injective, fun hnested _ _ =>
      ⟨closerAt?_eq_some_iff_isGroup hnested, read_take_of_closerAt? hnested⟩⟩

theorem pairs_by_count_in_braces :
    Nested (brackets (tokens "\x7b[a]()\x7d")) ∧
      closerAt? (tokens "\x7b[a]()\x7d") 0 = some 6 ∧
      ∃ b, IsGroup b (((tokens "\x7b[a]()\x7d").take 7).drop 0) := by
  have hnested : Nested (brackets (tokens "\x7b[a]()\x7d")) := Nesting.read_eq_nil_iff.mp rfl
  have hpaired : closerAt? (tokens "\x7b[a]()\x7d") 0 = some 6 := rfl
  obtain ⟨-, -, -, hgroups⟩ := pairs_by_count (tokens "\x7b[a]()\x7d")
  obtain ⟨hiff, -⟩ := hgroups hnested 0 6
  exact ⟨hnested, hpaired, (hiff.mp hpaired).2⟩

end Semicolons
