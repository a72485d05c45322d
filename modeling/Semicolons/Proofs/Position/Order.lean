import Mathlib.Data.Prod.Lex
import Mathlib.Order.Interval.Set.Defs
import Semicolons.Proofs.Token.Tiling
import Semicolons.Proofs.Token.Position

/-!
# The order of positions

Positions are ordered by their lines, and those on one line by their columns. Every character leads
to a later position (`Position.lt_advance`), so that of two places between characters of a text the
one further behind has the later position (`strictMonoOn_ofOffset`). In particular the positions of
its tokens are told apart (`pairwise_position_tokens`).
-/

namespace Semicolons

namespace Position

/-- The line and then the column of a position. -/
def key (p : Position) : ℕ ×ₗ ℕ :=
  toLex (p.line, p.column)

theorem key_injective : Function.Injective key := by
  rintro ⟨line, column⟩ ⟨line', column'⟩ h
  simpa [key] using h

/-- Positions are compared by their lines first. -/
instance : LinearOrder Position :=
  LinearOrder.lift' key key_injective

theorem lt_iff {p q : Position} :
    p < q ↔ p.line < q.line ∨ p.line = q.line ∧ p.column < q.column :=
  Prod.Lex.toLex_lt_toLex

theorem lt_advance (p : Position) (c : Char) : p < p.advance c := by
  rw [lt_iff, advance]
  split
  · exact Or.inl (Nat.lt_succ_self _)
  · exact Or.inr ⟨rfl, Nat.lt_succ_self _⟩

theorem after_append (p : Position) (before text : List Char) :
    p.after (before ++ text) = (p.after before).after text :=
  List.foldl_append

theorem le_after (p : Position) (text : List Char) : p ≤ p.after text := by
  induction text generalizing p with
  | nil => exact le_refl p
  | cons c text ih => exact (p.lt_advance c).le.trans (ih (p.advance c))

theorem lt_after (p : Position) {text : List Char} (h : text ≠ []) : p < p.after text := by
  obtain ⟨c, text, rfl⟩ := List.exists_cons_of_ne_nil h
  exact (p.lt_advance c).trans_le (le_after _ text)

end Position

/-- Of two beginnings of a text, the one with more bytes goes on where the other ends. -/
theorem exists_append_of_byteLength_lt {before after before' after' : List Char}
    (h : before ++ after = before' ++ after') (hlt : byteLength before < byteLength before') :
    ∃ text, text ≠ [] ∧ before' = before ++ text := by
  rcases List.append_eq_append_iff.mp h with ⟨text, rfl, -⟩ | ⟨text, rfl, -⟩
  · refine ⟨text, ?_, rfl⟩
    rintro rfl
    simp at hlt
  · rw [byteLength_append] at hlt
    omega

/-- Further behind in a text, between two of its characters, the position is later. -/
theorem strictMonoOn_ofOffset (source : String) :
    StrictMonoOn (Position.ofOffset source.toList)
      {offset | (⟨offset⟩ : String.Pos.Raw).IsValid source} := by
  intro a ha b hb hlt
  obtain ⟨before, after, hsource, rfl⟩ := isValid_iff_exists_split.mp ha
  obtain ⟨before', after', hsource', rfl⟩ := isValid_iff_exists_split.mp hb
  obtain ⟨text, hne, rfl⟩ :=
    exists_append_of_byteLength_lt (hsource.symm.trans hsource') hlt
  calc
    Position.ofOffset source.toList (byteLength before)
      = Position.origin.after before := by rw [hsource, Position.ofOffset_append]
    _ < (Position.origin.after before).after text := Position.lt_after _ hne
    _ = Position.ofOffset source.toList (byteLength (before ++ text)) := by
      rw [hsource', Position.ofOffset_append, Position.after_append]

/-- The positions of the tokens of a text follow one another. -/
theorem pairwise_position_tokens (source : String) :
    (tokens source).Pairwise fun t t' =>
      Position.ofOffset source.toList t.span.start <
        Position.ofOffset source.toList t'.span.start := by
  refine (pairwise_start_tokens source).imp_of_mem ?_
  intro t t' ht ht' hlt
  exact strictMonoOn_ofOffset source (isValid_span ht).1 (isValid_span ht').1 hlt

end Semicolons
