import Semicolons.Proofs.Lexeme.Maximal
import Semicolons.Proofs.Token.Tiling

/-!
# How far tokens reach

What is said of lexemes in `Cuts.isMaximal` and `Cuts.isChain_adjoins`, said of the tokens of a text
in their places (`tokens_maximal`).
-/

namespace Semicolons

/-- Tokens reach as far as they can: runs of blanks or of line breaks and words through all the
    characters of their class, marks through the longest spelling. No two runs of a kind stand side
    by side, and behind a comment that ends with its line comes the line break or the end of the
    input. -/
theorem tokens_maximal (source : String) :
    ((tokens source).IsChain fun a b => Adjoins a.toLexeme b.toLexeme) ∧
      ∀ t ∈ tokens source, ∃ before rest, source.toList = before ++ (t.chars ++ rest) ∧
        byteLength before = t.span.start ∧ t.IsMaximal rest := by
  constructor
  · rw [← List.isChain_map, map_toLexeme_tokens]
    exact (cuts_lexemes source).isChain_adjoins
  · intro t ht
    obtain ⟨before, after, hlexemes, hstart⟩ := exists_lexemes_of_mem_tokens ht
    exact ⟨_, _, toList_eq_of_split hlexemes, hstart.symm,
      (cuts_lexemes source).isMaximal_of_split hlexemes⟩

end Semicolons
