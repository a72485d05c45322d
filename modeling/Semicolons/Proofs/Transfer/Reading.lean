import Semicolons.Transfer

/-!
# What is read

A reader may give its bytes in pieces of any size, as long as no piece is empty before its end:
what is gathered are the bytes from its position on, up to the limit (`Reader.gather_eq`). So the
source text that a reader gives does not depend on the pieces. There is one exactly if all bytes
spell a text that is not too large (`Reader.source_eq_ok_iff`).
-/

namespace Semicolons

/-- Bytes spell a text if they are its bytes. -/
theorem fromUTF8?_eq_some_iff {bytes : ByteArray} {text : String} :
    String.fromUTF8? bytes = some text ↔ bytes = text.toUTF8 := by
  unfold String.fromUTF8?
  split
  · next hvalid =>
    constructor
    · intro h
      rw [← Option.some.inj h]
      rfl
    · rintro rfl
      rfl
  · next hinvalid =>
    constructor
    · intro h
      cases h
    · rintro rfl
      exact absurd text.isValidUTF8 hinvalid

@[simp] theorem fromUTF8?_toUTF8 (text : String) : String.fromUTF8? text.toUTF8 = some text :=
  fromUTF8?_eq_some_iff.mpr rfl

namespace Reader

/-- Whether a reader gives at least one byte whenever it is asked for some and has one left. -/
def Advances (r : Reader) : Prop :=
  ∀ size ∈ r.chunk, 0 < size

variable {r : Reader} {room limit : Nat} {name : String}

/-- What is read is a stretch of the bytes, not larger than the room for it, and the reader goes on
    behind it. -/
theorem exists_piece (r : Reader) (room : Nat) :
    ∃ size ≤ room, (r.read room).1.size = size ∧
      (r.read room).1 = r.content.extract r.position (r.position + size) ∧
      (r.read room).2 = { r with position := r.position + size } := by
  have hwanted : (r.chunk.map (min room)).getD room ≤ room := by
    cases r.chunk with
    | none => exact Nat.le_refl room
    | some size => exact Nat.min_le_left room size
  refine ⟨(r.read room).1.size, ?_, rfl, ?_, rfl⟩
  · simp only [read, ByteArray.size_extract]
    omega
  · ext1
    simp only [read, ByteArray.size_extract, ByteArray.data_extract]
    rw [Array.extract_eq_extract_right]
    simp only [ByteArray.size_data]
    omega

/-- Nothing is read only where there is no room or nothing is left. -/
theorem extract_eq_empty_of_read (hr : r.Advances) (h : (r.read room).1.size = 0) :
    r.content.extract r.position (r.position + room) = ByteArray.empty := by
  rw [ByteArray.extract_eq_empty_iff]
  cases hchunk : r.chunk with
  | none =>
    simp only [read, hchunk, ByteArray.size_extract, Option.map_none, Option.getD_none] at h
    omega
  | some size =>
    have hsize : 0 < size := hr size hchunk
    simp only [read, hchunk, ByteArray.size_extract, Option.map_some, Option.getD_some] at h
    omega

/-- The pieces that are gathered are the bytes from the position of the reader on, as many as there
    is room for. -/
theorem gather_eq (hr : r.Advances) (limit : Nat) (got : ByteArray) :
    r.gather limit got =
      got ++ r.content.extract r.position (r.position + (limit - got.size)) := by
  fun_induction gather r limit got with
  | case1 r got step hend =>
    rw [extract_eq_empty_of_read hr hend, ByteArray.append_empty]
  | case2 r got step hpiece ih =>
    obtain ⟨size, hroom, hsize, hpiece, hnext⟩ : ∃ size ≤ limit - got.size,
        step.1.size = size ∧ step.1 = r.content.extract r.position (r.position + size) ∧
        step.2 = { r with position := r.position + size } := exists_piece r (limit - got.size)
    have hleft : r.position + size + (limit - (got ++ step.1).size) =
        r.position + (limit - got.size) := by
      rw [ByteArray.size_append]
      omega
    have hsplit : r.content.extract r.position (r.position + (limit - got.size)) =
        step.1 ++ r.content.extract (r.position + size) (r.position + (limit - got.size)) := by
      rw [hpiece]
      exact ByteArray.extract_eq_extract_append_extract _ (by omega) (by omega)
    rw [hnext] at ih ⊢
    rw [ih hr, hleft, hsplit, ByteArray.append_assoc]

section Source

variable {content : ByteArray} {chunk : Option Nat} {text : String}

/-- A source text is read from the first bytes alone, one more than it may have. -/
theorem source_eq (hr : Advances ⟨content, 0, chunk⟩) (name : String) (limit : Nat) :
    source ⟨content, 0, chunk⟩ name limit =
      sourceOfBytes name limit (content.extract 0 (limit + 1)) := by
  rw [source, gather_eq hr, ByteArray.empty_append, ByteArray.size_empty, Nat.sub_zero,
    Nat.zero_add]

/-- Where no more bytes are left than may be read, all of them are read. -/
theorem extract_eq_self (h : content.size ≤ limit) : content.extract 0 (limit + 1) = content := by
  have hmax : max (limit + 1) content.size = limit + 1 := Nat.max_eq_left (by omega)
  rw [← hmax, ByteArray.extract_zero_max_size]

theorem source_notText (hr : Advances ⟨content, 0, chunk⟩)
    (h : String.fromUTF8? (content.extract 0 (limit + 1)) = none) :
    source ⟨content, 0, chunk⟩ name limit = .error (.system .notText) := by
  rw [source_eq hr, sourceOfBytes, h]

theorem source_tooLarge (hr : Advances ⟨content, 0, chunk⟩)
    (h : String.fromUTF8? (content.extract 0 (limit + 1)) = some text)
    (hlarge : limit < content.size) :
    source ⟨content, 0, chunk⟩ name limit = .error (.tooLarge name limit) := by
  have hread : limit < (content.extract 0 (limit + 1)).size := by
    rw [ByteArray.size_extract]
    omega
  simp only [source_eq hr, sourceOfBytes, h, if_pos hread]

/-- A source text is read if the bytes are its bytes and are not too many. -/
theorem source_eq_ok_iff (hr : Advances ⟨content, 0, chunk⟩) :
    source ⟨content, 0, chunk⟩ name limit = .ok text ↔
      content = text.toUTF8 ∧ content.size ≤ limit := by
  constructor
  · intro h
    rw [source_eq hr, sourceOfBytes] at h
    split at h
    · cases h
    · next read hread =>
      split at h
      · cases h
      · next hsize =>
        obtain rfl := Except.ok.inj h
        have hsmall : content.size ≤ limit := by
          rw [ByteArray.size_extract] at hsize
          omega
        rw [extract_eq_self hsmall] at hread
        exact ⟨fromUTF8?_eq_some_iff.mp hread, hsmall⟩
  · rintro ⟨rfl, hsmall⟩
    have hread := fromUTF8?_toUTF8 text
    simp only [source_eq hr, sourceOfBytes, extract_eq_self hsmall, hread,
      if_neg (Nat.not_lt.mpr hsmall)]

end Source

end Reader

end Semicolons
