import Semicolons.Position
import Semicolons.Proofs.Token.Layout

/-!
# Positions between characters

An offset that parts a text between two characters leaves the first part behind it
(`textBefore?_append`), and its position is the one after that part (`Position.ofOffset_append`).
Every other offset in the text lies inside a character (`exists_split_or_insideCharacter`).
-/

namespace Semicolons

theorem textBefore?_append (before after : List Char) :
    textBefore? (byteLength before) (before ++ after) = some before := by
  induction before with
  | nil => cases after <;> rfl
  | cons c before ih =>
    have hpos := c.utf8Size_pos
    obtain ⟨offset, hoffset⟩ : ∃ n, byteLength (c :: before) = n + 1 :=
      Nat.exists_eq_succ_of_ne_zero (by rw [byteLength_cons]; omega)
    have hrest : offset + 1 - c.utf8Size = byteLength before := by
      rw [← hoffset, byteLength_cons]
      omega
    have hle : c.utf8Size ≤ offset + 1 := by
      rw [← hoffset, byteLength_cons]
      omega
    rw [hoffset, List.cons_append, textBefore?, if_pos hle, hrest, ih, Option.map_some]

/-- The position of an offset between two characters is the one after all characters in front of
    it. -/
theorem Position.ofOffset_append (before after : List Char) :
    Position.ofOffset (before ++ after) (byteLength before) = Position.origin.after before := by
  rw [ofOffset, locate?_eq, textBefore?_append]
  rfl

/-- An offset between two characters of a text is one that its bytes can be parted at. -/
theorem isValid_iff_exists_split {source : String} {offset : Nat} :
    (⟨offset⟩ : String.Pos.Raw).IsValid source ↔
      ∃ before after, source.toList = before ++ after ∧ byteLength before = offset := by
  rw [String.Pos.Raw.isValid_iff_exists_append]
  constructor
  · rintro ⟨before, after, rfl, hoffset⟩
    refine ⟨before.toList, after.toList, String.toList_append, ?_⟩
    rw [byteLength_toList]
    exact (congrArg String.Pos.Raw.byteIdx hoffset).symm
  · rintro ⟨before, after, hsource, rfl⟩
    refine ⟨String.ofList before, String.ofList after, ?_, ?_⟩
    · apply String.toList_inj.mp
      rw [hsource, String.toList_append, String.toList_ofList, String.toList_ofList]
    · exact String.Pos.Raw.ext (utf8ByteSize_ofList before).symm

/-- Whether an offset lies behind the first byte of a character and in front of its end. -/
def InsideCharacter (text : List Char) (offset : Nat) : Prop :=
  ∃ before c after, text = before ++ c :: after ∧
    byteLength before < offset ∧ offset < byteLength before + c.utf8Size

theorem exists_split_or_insideCharacter {text : List Char} {offset : Nat}
    (h : offset ≤ byteLength text) :
    (∃ before after, text = before ++ after ∧ byteLength before = offset) ∨
      InsideCharacter text offset := by
  induction text generalizing offset with
  | nil => exact Or.inl ⟨[], [], rfl, (Nat.le_zero.mp h).symm⟩
  | cons c text ih =>
    rw [byteLength_cons] at h
    by_cases hzero : offset = 0
    · exact Or.inl ⟨[], c :: text, rfl, hzero.symm⟩
    by_cases hinside : offset < c.utf8Size
    · exact Or.inr ⟨[], c, text, rfl, Nat.pos_of_ne_zero hzero, by simpa using hinside⟩
    · obtain ⟨offset, rfl⟩ := Nat.exists_eq_add_of_le (Nat.le_of_not_lt hinside)
      have hrest : offset ≤ byteLength text := by omega
      rcases ih hrest with
        ⟨before, after, rfl, rfl⟩ | ⟨before, d, after, rfl, hbehind, hfront⟩
      · exact Or.inl ⟨c :: before, after, rfl, rfl⟩
      · refine Or.inr ⟨c :: before, d, after, rfl, ?_, ?_⟩
        · rw [byteLength_cons]
          omega
        · rw [byteLength_cons]
          omega

/-- No offset does both. -/
theorem not_insideCharacter_of_split (before after : List Char) :
    ¬ InsideCharacter (before ++ after) (byteLength before) := by
  rintro ⟨before', c, after', hsplit, hbehind, hfront⟩
  rcases List.append_eq_append_iff.mp hsplit with ⟨mid, rfl, -⟩ | ⟨mid, rfl, hmid⟩
  · rw [byteLength_append] at hbehind
    omega
  · rw [byteLength_append] at hbehind hfront
    cases mid with
    | nil => simp at hbehind
    | cons d mid =>
      obtain ⟨rfl, -⟩ := List.cons.inj hmid
      rw [byteLength_cons] at hfront
      omega

theorem isValid_iff_not_insideCharacter {source : String} {offset : Nat}
    (h : offset ≤ source.utf8ByteSize) :
    (⟨offset⟩ : String.Pos.Raw).IsValid source ↔ ¬ InsideCharacter source.toList offset := by
  rw [isValid_iff_exists_split]
  constructor
  · rintro ⟨before, after, hsource, rfl⟩
    rw [hsource]
    exact not_insideCharacter_of_split before after
  · intro houtside
    rw [← byteLength_toList] at h
    exact (exists_split_or_insideCharacter h).resolve_right houtside

end Semicolons
