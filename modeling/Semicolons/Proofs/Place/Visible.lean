import Semicolons.Proofs.Site.Sequence

/-!
# The visible tokens ahead of a place

The visible tokens ahead of a place have the numbers one, two and so on. Finding one by its number
passes over the tokens in front of it and leaves them behind (`seek_eq_some_iff`), and wherever a
visible token stands in front of the end of the input, it is found by the number of those that
lead up to it (`visible?_of_visibleTokens`).
-/

namespace Semicolons

/-- A visible token in a stream stands behind the visible ones in front of it. -/
theorem exists_split_of_visibleTokens {ts first second : List Token} {t : Token}
    (h : visibleTokens ts = first ++ t :: second) :
    ∃ passed rest, ts = passed ++ t :: rest ∧ visibleTokens passed = first ∧
      t.isHidden = false ∧ visibleTokens rest = second := by
  obtain ⟨before, behind, rfl, hbefore, hbehind⟩ := List.filter_eq_append_iff.mp h
  obtain ⟨gap, rest, rfl, hgap, ht, hrest⟩ := List.filter_eq_cons_iff.mp hbehind
  refine ⟨before ++ gap, rest, by simp, ?_, by simpa using ht, hrest⟩
  have hhidden : gap.filter (!·.isHidden) = [] := List.filter_eq_nil_iff.mpr hgap
  rw [visibleTokens, List.filter_append, hbefore, hhidden, List.append_nil]

namespace Place

@[simp] theorem ahead_ofIndex (stream : List Token) (c : Nat) :
    (ofIndex stream c).ahead = stream.drop c := by
  unfold ofIndex
  split
  · rfl
  · next h => exact (List.drop_eq_nil_of_le (Nat.le_of_not_le h)).symm

/-- Behind the first tokens of a stream, all others are ahead. -/
theorem ofIndex_append (before after : List Token) :
    ofIndex (before ++ after) before.length = ⟨before.reverse, after⟩ := by
  have hle : before.length ≤ (before ++ after).length := by simp
  rw [ofIndex, if_pos hle, List.take_left, List.drop_left]

/-- In front of the token `t`, the tokens `passed` show that it is the one with the number
    `k + 1`: so many visible tokens lead up to it, or fewer if the input ends with it. -/
structure HasNumber (k : Nat) (passed : List Token) (t : Token) : Prop where
  visible : t.isHidden = false
  before_end : ∀ x ∈ visibleTokens passed, x.isEnd = false
  number : (visibleTokens passed).length = k ∨ (visibleTokens passed).length ≤ k ∧ t.isEnd = true

section HasNumber

variable {k : Nat} {passed : List Token} {x t : Token}

theorem hasNumber_hidden (hx : x.isHidden = true) :
    HasNumber k (x :: passed) t ↔ HasNumber k passed t := by
  constructor
  · rintro ⟨hvisible, hend, hnumber⟩
    rw [visibleTokens_hidden hx] at hend hnumber
    exact ⟨hvisible, hend, hnumber⟩
  · rintro ⟨hvisible, hend, hnumber⟩
    rw [← visibleTokens_hidden hx] at hend hnumber
    exact ⟨hvisible, hend, hnumber⟩

theorem hasNumber_nil : HasNumber k [] t ↔ t.isHidden = false ∧ (k = 0 ∨ t.isEnd = true) := by
  constructor
  · rintro ⟨hvisible, -, hnumber | ⟨-, ht⟩⟩
    · exact ⟨hvisible, Or.inl hnumber.symm⟩
    · exact ⟨hvisible, Or.inr ht⟩
  · rintro ⟨hvisible, hnumber⟩
    refine ⟨hvisible, fun x hx => absurd hx List.not_mem_nil, ?_⟩
    exact hnumber.imp Eq.symm fun ht => ⟨Nat.zero_le k, ht⟩

theorem hasNumber_visible (hx : x.isHidden = false) :
    HasNumber k (x :: passed) t ↔ ∃ j, k = j + 1 ∧ x.isEnd = false ∧ HasNumber j passed t := by
  constructor
  · rintro ⟨hvisible, hend, hnumber⟩
    rw [visibleTokens_visible hx] at hend hnumber
    rw [List.length_cons] at hnumber
    obtain ⟨hxend, hend⟩ := List.forall_mem_cons.mp hend
    obtain ⟨j, rfl⟩ : ∃ j, k = j + 1 := ⟨k - 1, by omega⟩
    exact ⟨j, rfl, hxend, hvisible, hend,
      hnumber.imp Nat.succ.inj (And.imp_left Nat.le_of_succ_le_succ)⟩
  · rintro ⟨j, rfl, hxend, hvisible, hend, hnumber⟩
    refine ⟨hvisible, ?_, ?_⟩
    · rw [visibleTokens_visible hx]
      exact List.forall_mem_cons.mpr ⟨hxend, hend⟩
    · rw [visibleTokens_visible hx, List.length_cons]
      exact hnumber.imp (congrArg (· + 1)) (And.imp_left Nat.succ_le_succ)

end HasNumber

/-- The token with a number is the first one, or stands behind it. -/
theorem exists_hasNumber_cons {k : Nat} {behind ahead : List Token} {x : Token} {q : Place} :
    (∃ passed t rest, x :: ahead = passed ++ t :: rest ∧ HasNumber k passed t ∧
        q = ⟨passed.reverse ++ behind, t :: rest⟩) ↔
      (HasNumber k [] x ∧ q = ⟨behind, x :: ahead⟩) ∨
        ∃ passed t rest, ahead = passed ++ t :: rest ∧ HasNumber k (x :: passed) t ∧
          q = ⟨passed.reverse ++ x :: behind, t :: rest⟩ := by
  constructor
  · rintro ⟨passed, t, rest, hsplit, hnumber, rfl⟩
    cases passed with
    | nil =>
      obtain ⟨rfl, rfl⟩ := List.cons.inj hsplit
      exact Or.inl ⟨hnumber, rfl⟩
    | cons y passed =>
      obtain ⟨rfl, rfl⟩ := List.cons.inj hsplit
      exact Or.inr ⟨passed, t, rest, rfl, hnumber, by simp⟩
  · rintro (⟨hnumber, rfl⟩ | ⟨passed, t, rest, rfl, hnumber, rfl⟩)
    · exact ⟨[], x, ahead, rfl, hnumber, rfl⟩
    · exact ⟨x :: passed, t, rest, rfl, hnumber, by simp⟩

/-- Seeking a number comes to the token that has it, with all tokens in front of it behind. -/
theorem seek_eq_some_iff {k : Nat} {behind ahead : List Token} {q : Place} :
    seek (k + 1) behind ahead = some q ↔ ∃ passed t rest, ahead = passed ++ t :: rest ∧
      HasNumber k passed t ∧ q = ⟨passed.reverse ++ behind, t :: rest⟩ := by
  induction ahead generalizing k behind with
  | nil => simp [seek]
  | cons x ahead ih =>
    rw [exists_hasNumber_cons, hasNumber_nil, seek]
    by_cases hx : x.isHidden = true
    · simp only [hx, if_true, ih, hasNumber_hidden, Bool.true_eq_false, false_and, false_or]
    · have hx : x.isHidden = false := by simpa using hx
      simp only [hx, hasNumber_visible, Bool.false_eq_true, if_false, true_and]
      by_cases hstop : k = 0 ∨ x.isEnd = true
      · rw [if_pos hstop, Option.some.injEq]
        constructor
        · exact fun h => Or.inl ⟨hstop, h.symm⟩
        · rintro (⟨-, h⟩ | ⟨_, _, _, -, ⟨j, rfl, hend, -⟩, -⟩)
          · exact h.symm
          · simp [hend] at hstop
      · obtain ⟨hk, hend⟩ := not_or.mp hstop
        obtain ⟨j, rfl⟩ := Nat.exists_eq_succ_of_ne_zero hk
        rw [if_neg hstop, ih]
        constructor
        · rintro ⟨passed, t, rest, hsplit, hnumber, hq⟩
          exact Or.inr ⟨passed, t, rest, hsplit, ⟨j, rfl, by simpa using hend, hnumber⟩, hq⟩
        · rintro (⟨h, -⟩ | ⟨passed, t, rest, hsplit, ⟨j', hj, -, hnumber⟩, hq⟩)
          · exact absurd h hstop
          · obtain rfl := Nat.succ.inj hj
            exact ⟨passed, t, rest, hsplit, hnumber, hq⟩

/-- A visible token in front of the end of the input is found by the number of visible tokens that
    lead up to it. -/
theorem visible?_of_visibleTokens {p : Place} {first second : List Token} {t : Token}
    (h : visibleTokens p.ahead = first ++ t :: second) (hfirst : ∀ x ∈ first, x.isEnd = false) :
    ∃ passed rest, p.ahead = passed ++ t :: rest ∧ visibleTokens passed = first ∧
      visibleTokens rest = second ∧
      p.visible? (first.length + 1) = some ⟨passed.reverse ++ p.behind, t :: rest⟩ := by
  obtain ⟨passed, rest, hsplit, rfl, ht, hrest⟩ := exists_split_of_visibleTokens h
  exact ⟨passed, rest, hsplit, rfl, hrest,
    seek_eq_some_iff.mpr ⟨passed, t, rest, hsplit, ⟨ht, hfirst, Or.inl rfl⟩, rfl⟩⟩

end Place

end Semicolons
