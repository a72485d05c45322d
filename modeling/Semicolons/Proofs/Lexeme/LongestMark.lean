import Semicolons.Punctuation

/-!
# The longest mark

`Punctuation.longest?` tries windows from the length of the longest spelling downward. Here it is
described by prefixes instead: it finds a mark whose spelling the text begins with, and no longer
spelling is one (`longest?_eq_some_iff`). What is asked of marks elsewhere goes by that description
and by the one spelling that contains a semicolon (`eq_semicolon_of_mem`).
-/

namespace Semicolons

namespace Punctuation

/-- A text begins with a mark if the characters of the mark's spelling come first. -/
def Begins (p : Punctuation) (text : List Char) : Prop :=
  p.spelling.toList <+: text

theorem toList_spelling_injective {p q : Punctuation}
    (h : p.spelling.toList = q.spelling.toList) : p = q := by
  have hs : p.spelling = q.spelling := String.toList_inj.mp h
  have hp := ofSpelling?_spelling p
  rw [hs, ofSpelling?_spelling] at hp
  exact (Option.some.inj hp).symm

theorem length_toList_spelling_pos (p : Punctuation) : 0 < p.spelling.toList.length := by
  cases p <;> decide

/-- No spelling but that of the semicolon contains one. -/
theorem eq_semicolon_of_mem {p : Punctuation} (h : ';' ∈ p.spelling.toList) : p = .semicolon := by
  cases p <;> first | rfl | exact absurd h (by decide)

/-- A window spells a mark exactly when it consists of the mark's characters. -/
theorem ofSpelling?_window {text : List Char} {n : Nat} {p : Punctuation} :
    ofSpelling? (String.ofList (text.take n)) = some p ↔ p.spelling.toList = text.take n := by
  rw [ofSpelling?_eq_some_iff, ← String.toList_inj, String.toList_ofList]

theorem begins_of_window {text : List Char} {n : Nat} {p : Punctuation}
    (h : ofSpelling? (String.ofList (text.take n)) = some p) : p.Begins text := by
  rw [Begins, ofSpelling?_window.mp h]
  exact List.take_prefix n text

/-- A mark that a text begins with is spelled by the window of its own length. -/
theorem window_of_begins {text : List Char} {p : Punctuation} (h : p.Begins text) :
    ofSpelling? (String.ofList (text.take p.spelling.toList.length)) = some p :=
  ofSpelling?_window.mpr (List.prefix_iff_eq_take.mp h)

theorem longestUpTo?_begins {text : List Char} {n : Nat} {p : Punctuation}
    (h : longestUpTo? text n = some p) : p.Begins text := by
  induction n with
  | zero => cases h
  | succ n ih =>
    rw [longestUpTo?, Option.or_eq_some_iff] at h
    rcases h with h | ⟨-, h⟩
    · exact begins_of_window h
    · exact ih h

/-- A mark that a text begins with and that fits into the first window is found, or a longer one
    is. -/
theorem exists_longestUpTo?_of_begins {text : List Char} {n : Nat} {q : Punctuation}
    (h : q.Begins text) (hfits : q.spelling.toList.length ≤ n) :
    ∃ p, longestUpTo? text n = some p ∧
      q.spelling.toList.length ≤ p.spelling.toList.length := by
  induction n with
  | zero =>
    have hpos := length_toList_spelling_pos q
    omega
  | succ n ih =>
    cases hwindow : ofSpelling? (String.ofList (text.take (n + 1))) with
    | some p =>
      have hlen := h.length_le
      have hle : q.spelling.toList.length ≤ p.spelling.toList.length := by
        rw [ofSpelling?_window.mp hwindow, List.length_take]
        omega
      exact ⟨p, by rw [longestUpTo?, hwindow, Option.some_or], hle⟩
    | none =>
      -- The window spells no mark, and so `q` has another length.
      have hne : q.spelling.toList.length ≠ n + 1 := by
        intro he
        have hq := window_of_begins h
        rw [he, hwindow] at hq
        cases hq
      obtain ⟨p, hp, hle⟩ := ih (by omega)
      exact ⟨p, by rw [longestUpTo?, hwindow, Option.none_or, hp], hle⟩

theorem longest?_begins {text : List Char} {p : Punctuation} (h : longest? text = some p) :
    p.Begins text :=
  longestUpTo?_begins h

/-- No spelling is too long for the first window. -/
theorem exists_longest?_of_begins {text : List Char} {q : Punctuation} (h : q.Begins text) :
    ∃ p, longest? text = some p ∧ q.spelling.toList.length ≤ p.spelling.toList.length := by
  have hfits : q.spelling.toList.length ≤ maxLength := by
    rw [String.length_toList]
    exact length_spelling_le q
  exact exists_longestUpTo?_of_begins h hfits

/-- The mark that is found is the longest one that the text begins with. -/
theorem longest?_eq_some_iff {text : List Char} {p : Punctuation} :
    longest? text = some p ↔
      p.Begins text ∧ ∀ q : Punctuation, q.Begins text →
        q.spelling.toList.length ≤ p.spelling.toList.length := by
  constructor
  · intro h
    refine ⟨longest?_begins h, ?_⟩
    intro q hq
    obtain ⟨p', hp', hle⟩ := exists_longest?_of_begins hq
    rw [h] at hp'
    cases hp'
    exact hle
  · rintro ⟨hp, hmax⟩
    obtain ⟨p', hp', hle⟩ := exists_longest?_of_begins hp
    have hbegins := longest?_begins hp'
    have hlen : p'.spelling.toList.length = p.spelling.toList.length :=
      Nat.le_antisymm (hmax p' hbegins) hle
    -- Two prefixes of one text that are equally long are equal.
    have hsame : p'.spelling.toList = p.spelling.toList := by
      rw [List.prefix_iff_eq_take.mp hbegins, List.prefix_iff_eq_take.mp hp, hlen]
    rw [hp', toList_spelling_injective hsame]

/-- No mark is found exactly when the text begins with none. -/
theorem longest?_eq_none_iff {text : List Char} :
    longest? text = none ↔ ∀ q : Punctuation, ¬ q.Begins text := by
  constructor
  · intro h q hq
    obtain ⟨p, hp, -⟩ := exists_longest?_of_begins hq
    rw [h] at hp
    cases hp
  · intro h
    cases hl : longest? text with
    | none => rfl
    | some p => exact absurd (longest?_begins hl) (h p)

/-- Texts that begin with the same marks have the same longest mark. -/
theorem longest?_congr {text text' : List Char}
    (h : ∀ p : Punctuation, p.Begins text' ↔ p.Begins text) : longest? text' = longest? text := by
  cases hl : longest? text with
  | none =>
    rw [longest?_eq_none_iff] at hl ⊢
    intro p hp
    exact hl p ((h p).mp hp)
  | some p =>
    rw [longest?_eq_some_iff] at hl ⊢
    refine ⟨(h p).mpr hl.1, ?_⟩
    intro q hq
    exact hl.2 q ((h q).mp hq)

end Punctuation

end Semicolons
