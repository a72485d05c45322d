import Semicolons.Proofs.Nesting.Word

/-!
# How a stream is read

One token of a stream opens a group, closes one, or leaves the groups as they are, and only a
closing bracket can be defective (`Nesting.read_cons`). So what is found in a stream comes in its
order and without repetitions: the defective brackets (`Nesting.sublist_closers`) and the groups that
are left open (`Nesting.sublist_left`).
-/

namespace Semicolons

namespace Nesting

/-- The closing bracket that a defect is about. -/
def Defect.closer : Defect → Token
  | .mismatched closer _ => closer
  | .unexpected closer => closer

/-- What one token does to the groups that are open, and what is found wrong with it: an opening
    bracket opens its group, and only a closing bracket can close one or be defective. -/
theorem read_cons (opened : List Token) (t : Token) (rest : List Token) :
    ∃ opened' found, read opened (t :: rest) =
        (found ++ (read opened' rest).1, (read opened' rest).2) ∧
      (opened' <:+ opened ∨ opened' = t :: opened ∧ ∃ b, t.kind.bracket? = some (.opening, b)) ∧
      (found = [] ∨ ∃ d, found = [d] ∧ d.closer = t ∧
        ∃ b, t.kind.bracket? = some (.closing, b)) := by
  cases ht : t.kind.bracket? with
  | none => exact ⟨opened, [], read_none ht, Or.inl (List.suffix_refl _), Or.inl rfl⟩
  | some x =>
    obtain ⟨side, b⟩ := x
    cases side with
    | opening => exact ⟨t :: opened, [], read_opening ht, Or.inr ⟨rfl, b, rfl⟩, Or.inl rfl⟩
    | closing =>
      cases opened with
      | nil =>
        exact ⟨[], [.unexpected t], read_unexpected ht, Or.inl (List.suffix_refl _),
          Or.inr ⟨_, rfl, rfl, b, rfl⟩⟩
      | cons opener outer =>
        have houter : outer <:+ opener :: outer := List.suffix_cons opener outer
        by_cases hmark : opener.isMark (.opening b) = true
        · exact ⟨outer, [], read_answer (isMark_opening_iff.mp hmark) ht, Or.inl houter, Or.inl rfl⟩
        · exact ⟨outer, [.mismatched t opener], read_mismatched (by simpa using hmark) ht,
            Or.inl houter, Or.inr ⟨_, rfl, rfl, b, rfl⟩⟩

/-- Closing brackets are found defective in the order of the stream, each of them once. -/
theorem sublist_closers (opened ts : List Token) :
    ((read opened ts).1.map Defect.closer).Sublist ts := by
  induction ts generalizing opened with
  | nil => exact List.Sublist.refl []
  | cons t ts ih =>
    obtain ⟨opened', found, hread, -, hfound⟩ := read_cons opened t ts
    rw [hread]
    rcases hfound with rfl | ⟨d, rfl, rfl, -⟩
    · exact (ih opened').cons t
    · exact (ih opened').cons_cons d.closer

theorem bracket?_of_mem_closers {opened ts : List Token} {d : Defect}
    (h : d ∈ (read opened ts).1) : ∃ b, d.closer.kind.bracket? = some (.closing, b) := by
  induction ts generalizing opened with
  | nil => cases h
  | cons t ts ih =>
    obtain ⟨opened', found, hread, -, hfound⟩ := read_cons opened t ts
    rw [hread] at h
    rcases List.mem_append.mp h with h | h
    · rcases hfound with rfl | ⟨d', rfl, rfl, hclosing⟩
      · cases h
      · rw [List.mem_singleton.mp h]
        exact hclosing
    · exact ih h

/-- Groups are left open in the order of the stream, each of them once. -/
theorem sublist_left (opened ts : List Token) :
    (read opened ts).2.reverse.Sublist (opened.reverse ++ ts) := by
  induction ts generalizing opened with
  | nil => simp [read]
  | cons t ts ih =>
    obtain ⟨opened', found, hread, hopened, -⟩ := read_cons opened t ts
    rw [hread]
    apply (ih opened').trans
    rcases hopened with hsuffix | ⟨rfl, -⟩
    · exact hsuffix.sublist.reverse.append (List.sublist_cons_self t ts)
    · simp

theorem bracket?_of_mem_left {opened ts : List Token} {t : Token} (h : t ∈ (read opened ts).2)
    (hopened : ∀ o ∈ opened, ∃ b, o.kind.bracket? = some (.opening, b)) :
    ∃ b, t.kind.bracket? = some (.opening, b) := by
  induction ts generalizing opened with
  | nil => exact hopened t h
  | cons t' ts ih =>
    obtain ⟨opened', found, hread, hnext, -⟩ := read_cons opened t' ts
    rw [hread] at h
    apply ih h
    rcases hnext with hsuffix | ⟨rfl, hopening⟩
    · exact fun o ho => hopened o (hsuffix.subset ho)
    · exact List.forall_mem_cons.mpr ⟨hopening, hopened⟩

end Nesting

end Semicolons
