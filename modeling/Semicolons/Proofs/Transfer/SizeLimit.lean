import Mathlib.Algebra.Group.Nat.Defs
import Semicolons.Proofs.Token.Position
import Semicolons.Proofs.Transfer.Reading

/-!
# Texts at the size limit

A text is read if it is not larger than the limit. Of a larger one the bytes up to one past the
limit are read and have to be text themselves, so that it is called too large only if the last of
these bytes ends a character. If it lies inside of one, the text is taken for no text at all
(`source_toUTF8`).
-/

namespace Semicolons

/-- The first bytes of a text are a text exactly if they end between two characters. -/
theorem exists_fromUTF8?_extract_iff {text : String} {count : Nat}
    (h : count ≤ text.utf8ByteSize) :
    (∃ part, String.fromUTF8? (text.toUTF8.extract 0 count) = some part) ↔
      ¬ InsideCharacter text.toList count := by
  rw [← isValid_iff_not_insideCharacter h, String.Pos.Raw.isValid_iff_isValidUTF8_extract_zero]
  constructor
  · rintro ⟨part, hpart⟩
    refine ⟨String.Pos.Raw.le_iff.mpr h, ?_⟩
    show (text.toUTF8.extract 0 count).IsValidUTF8
    rw [fromUTF8?_eq_some_iff.mp hpart]
    exact part.isValidUTF8
  · rintro ⟨-, hvalid⟩
    exact ⟨⟨_, hvalid⟩, fromUTF8?_eq_some_iff.mpr rfl⟩

/-- Behind the byte inside of a character there is at least one more. -/
theorem InsideCharacter.lt_byteLength {text : List Char} {offset : Nat}
    (h : InsideCharacter text offset) : offset < byteLength text := by
  obtain ⟨before, c, after, rfl, -, hfront⟩ := h
  rw [byteLength_append, byteLength_cons]
  omega

namespace Reader

variable {text : String} {chunk : Option Nat} {limit : Nat}

/-- A text is not read as one if the first byte that is too many lies inside of a character. -/
theorem source_of_insideCharacter (hr : Advances ⟨text.toUTF8, 0, chunk⟩) (name : String)
    (h : InsideCharacter text.toList (limit + 1)) :
    source ⟨text.toUTF8, 0, chunk⟩ name limit = .error (.system .notText) := by
  have hlt := h.lt_byteLength
  rw [byteLength_toList] at hlt
  apply source_notText hr
  apply Option.eq_none_iff_forall_ne_some.mpr
  intro part hpart
  exact (exists_fromUTF8?_extract_iff (Nat.le_of_lt hlt)).mp ⟨part, hpart⟩ h

/-- A text that is not too large is read. One that is too large is called so, unless the first byte
    that is too many lies inside of a character: then it counts as no text. -/
theorem source_toUTF8 (text : String) {chunk : Option Nat} (hchunk : ∀ size ∈ chunk, 0 < size)
    (name : String) (limit : Nat) :
    let answer := source ⟨text.toUTF8, 0, chunk⟩ name limit
    (text.utf8ByteSize ≤ limit → answer = .ok text) ∧
      (limit < text.utf8ByteSize → ¬ InsideCharacter text.toList (limit + 1) →
        answer = .error (.tooLarge name limit)) ∧
      (InsideCharacter text.toList (limit + 1) → answer = .error (.system .notText)) := by
  have hr : Advances ⟨text.toUTF8, 0, chunk⟩ := hchunk
  refine ⟨?_, ?_, source_of_insideCharacter hr name⟩
  · intro hsmall
    exact (source_eq_ok_iff hr).mpr ⟨rfl, hsmall⟩
  · intro hlarge houtside
    obtain ⟨part, hpart⟩ := (exists_fromUTF8?_extract_iff hlarge).mpr houtside
    exact source_tooLarge hr hpart hlarge

/-- The second byte of these three lies inside of a character, and the third ends it. -/
theorem source_toUTF8_cut_character :
    (∀ size ∈ some 1, 0 < size) ∧
      source ⟨"aé".toUTF8, 0, some 1⟩ "a" 1 = .error (.system .notText) ∧
      source ⟨"aé".toUTF8, 0, some 1⟩ "a" 2 = .error (.tooLarge "a" 2) ∧
      source ⟨"aé".toUTF8, 0, some 1⟩ "a" 3 = .ok "aé" := by
  have hchunk : ∀ size ∈ some 1, 0 < size := by simp
  have hinside : InsideCharacter "aé".toList 2 := ⟨['a'], 'é', [], rfl, by decide, by decide⟩
  have houtside : ¬ InsideCharacter "aé".toList 3 := not_insideCharacter_of_split ['a', 'é'] []
  refine ⟨hchunk, ?_, ?_, ?_⟩
  · exact (source_toUTF8 "aé" hchunk "a" 1).2.2 hinside
  · exact (source_toUTF8 "aé" hchunk "a" 2).2.1 (by decide) houtside
  · exact (source_toUTF8 "aé" hchunk "a" 3).1 (by decide)

/-- Not every text that is too large is called so. -/
theorem source_misjudges_size :
    ¬ ∀ (text name : String) (limit : Nat) (chunk : Option Nat), limit < 2 ^ 64 - 1 →
      (∀ size ∈ chunk, 0 < size) →
      source ⟨text.toUTF8, 0, chunk⟩ name limit =
        if text.utf8ByteSize ≤ limit then .ok text else .error (.tooLarge name limit) := by
  intro h
  have hr : Advances ⟨"aé".toUTF8, 0, none⟩ := by simp [Advances]
  have hinside : InsideCharacter "aé".toList 2 := ⟨['a'], 'é', [], rfl, by decide, by decide⟩
  have hclaimed := h "aé" "a" 1 none (by decide) hr
  rw [source_of_insideCharacter hr "a" hinside, if_neg (by decide)] at hclaimed
  cases hclaimed

end Reader

end Semicolons
