import Semicolons.Proofs.Site.Sequence

/-!
# Where groups end

The bracket that closes a group is found by counting (`closer?`). Here the count is followed one
item at a time (`closer?_next`): what it finds is a closing bracket (`exists_closing_of_closer?`),
and it is not the one that closes a group of the same kind inside (`closer?_ne_of_opening`).
-/

namespace Semicolons

section Closer

variable {b : Bracket} {k : Kind} {ks : List Kind} {depth n : Nat}

/-- How many groups of kind `b` are to be closed behind an item, where there are `depth` in front of
    it. -/
def depthBehind (b : Bracket) (k : Kind) (depth : Nat) : Nat :=
  if k.bracket? = some (.opening, b) then depth + 1
  else if k.bracket? = some (.closing, b) then depth - 1
  else depth

/-- Counting goes on behind every item but the bracket that it looks for. -/
theorem closer?_next (h : ¬ (depth = 0 ∧ k.bracket? = some (.closing, b))) :
    closer? b depth (k :: ks) = (closer? b (depthBehind b k depth) ks).map (· + 1) := by
  unfold depthBehind
  by_cases hopening : k.bracket? = some (.opening, b)
  · rw [if_pos hopening, closer?_opening hopening]
  · by_cases hclosing : k.bracket? = some (.closing, b)
    · obtain ⟨depth, rfl⟩ : ∃ d, depth = d + 1 :=
        Nat.exists_eq_succ_of_ne_zero fun hzero => h ⟨hzero, hclosing⟩
      rw [if_neg hopening, if_pos hclosing, closer?_closing_succ hclosing, Nat.add_sub_cancel]
    · have hother : ∀ side, k.bracket? ≠ some (side, b) := by
        intro side
        cases side with
        | opening => exact hopening
        | closing => exact hclosing
      rw [if_neg hopening, if_neg hclosing, closer?_other hother]

/-- Where the bracket that closes a group is found, there is one that closes a group of its kind. -/
theorem exists_closing_of_closer? (h : closer? b depth ks = some n) :
    ∃ inner c after, ks = inner ++ c :: after ∧ inner.length = n ∧
      c.bracket? = some (.closing, b) := by
  induction ks generalizing depth n with
  | nil => cases h
  | cons k ks ih =>
    by_cases hend : depth = 0 ∧ k.bracket? = some (.closing, b)
    · obtain ⟨rfl, hk⟩ := hend
      rw [closer?_closing_zero hk] at h
      exact ⟨[], k, ks, rfl, Option.some.inj h, hk⟩
    · rw [closer?_next hend] at h
      obtain ⟨m, hm, rfl⟩ := Option.map_eq_some_iff.mp h
      obtain ⟨inner, c, after, rfl, rfl, hc⟩ := ih hm
      exact ⟨k :: inner, c, after, rfl, rfl, hc⟩

theorem lt_length_of_closer? (h : closer? b depth ks = some n) : n < ks.length := by
  obtain ⟨inner, c, after, rfl, rfl, -⟩ := exists_closing_of_closer? h
  simp

/-- The fewer groups are to be closed first, the sooner the closing bracket comes. -/
theorem closer?_lt_of_lt {depth' : Nat} (hlt : depth' < depth) (h : closer? b depth ks = some n) :
    ∃ m, closer? b depth' ks = some m ∧ m < n := by
  induction ks generalizing depth depth' n with
  | nil => cases h
  | cons k ks ih =>
    have hopen : ¬ (depth = 0 ∧ k.bracket? = some (.closing, b)) := by omega
    rw [closer?_next hopen] at h
    obtain ⟨n, hn, rfl⟩ := Option.map_eq_some_iff.mp h
    by_cases hend : depth' = 0 ∧ k.bracket? = some (.closing, b)
    · obtain ⟨rfl, hk⟩ := hend
      exact ⟨0, closer?_closing_zero hk, Nat.succ_pos n⟩
    · have hbehind : depthBehind b k depth' < depthBehind b k depth := by
        unfold depthBehind
        split
        · omega
        · split
          · next hk =>
            have hpos : depth' ≠ 0 := fun hzero => hend ⟨hzero, hk⟩
            omega
          · exact hlt
      obtain ⟨m, hm, hmn⟩ := ih hbehind hn
      exact ⟨m + 1, by rw [closer?_next hend, hm, Option.map_some], Nat.succ_lt_succ hmn⟩

/-- The bracket that closes a group does not close a group around it as well. -/
theorem closer?_ne_of_opening {rest : List Kind} {m : Nat} (hk : k.bracket? = some (.opening, b))
    (hm : closer? b 0 rest = some m) (inner : List Kind) (depth : Nat) :
    closer? b depth (inner ++ k :: rest) ≠ some (inner.length + 1 + m) := by
  induction inner generalizing depth with
  | nil =>
    intro h
    rw [List.nil_append, closer?_opening hk] at h
    obtain ⟨n, hn, hsum⟩ := Option.map_eq_some_iff.mp h
    obtain ⟨m', hm', hlt⟩ := closer?_lt_of_lt (Nat.succ_pos depth) hn
    obtain rfl : m = m' := Option.some.inj (hm.symm.trans hm')
    rw [List.length_nil] at hsum
    omega
  | cons first inner ih =>
    intro h
    rw [List.cons_append] at h
    by_cases hend : depth = 0 ∧ first.bracket? = some (.closing, b)
    · obtain ⟨rfl, hfirst⟩ := hend
      rw [closer?_closing_zero hfirst] at h
      have hzero := Option.some.inj h
      omega
    · rw [closer?_next hend] at h
      obtain ⟨n, hn, hsum⟩ := Option.map_eq_some_iff.mp h
      apply ih (depthBehind b first depth)
      rw [List.length_cons] at hsum
      rw [hn]
      congr 1
      omega

end Closer

theorem Paired.of_suffix {ss rest : List Site} (hp : Paired ss) (h : rest <:+ ss) :
    Paired rest := by
  obtain ⟨before, rfl⟩ := h
  exact hp.of_append

end Semicolons
