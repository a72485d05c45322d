import Semicolons.Proofs.Conversion
import Semicolons.Proofs.Transfer.Reading

/-!
# What is written

A writer may take the bytes that it is given in pieces of any size, as long as it takes some while
it has room (`Gives`). What it has taken in the end is the longest beginning of the bytes that it
has room for (`Gives.isLongestPart`), and that is what `writeBytes` says (`gives_writeBytes`). So
the pieces on either side of a transfer make no difference to what is transferred
(`transfer_in_pieces`).
-/

namespace Semicolons

/-- What comes of giving bytes to a writer, piece by piece: with room for so many bytes more it
    takes a piece that is not empty, until it has taken all of them or has no room. What it takes
    in all comes before what is left. -/
inductive Gives : Nat → ByteArray → ByteArray → ByteArray → Prop
  | all (room : Nat) : Gives room .empty .empty .empty
  | full (left : ByteArray) : Gives 0 left .empty left
  | piece {room : Nat} {piece bytes taken left : ByteArray} :
      0 < piece.size → piece.size ≤ room → Gives (room - piece.size) bytes taken left →
      Gives room (piece ++ bytes) (piece ++ taken) left

/-- The longest beginning of some bytes that there is room for. -/
def IsLongestPart (room : Nat) (whole part : ByteArray) : Prop :=
  (∃ rest, whole = part ++ rest) ∧ part.size ≤ room ∧
    ∀ other rest, whole = other ++ rest → other.size ≤ room → other.size ≤ part.size

section Pieces

variable {room : Nat} {bytes taken left whole part : ByteArray}

/-- As many bytes are taken as there are or as there is room for. -/
theorem Gives.append_eq (h : Gives room bytes taken left) :
    bytes = taken ++ left ∧ taken.size = min room bytes.size := by
  induction h with
  | all room => simp
  | full left => simp
  | piece _ hroom _ ih =>
    obtain ⟨hbytes, hsize⟩ := ih
    refine ⟨by rw [hbytes, ByteArray.append_assoc], ?_⟩
    rw [ByteArray.size_append, ByteArray.size_append, hsize]
    omega

theorem isLongestPart_of_size (hwhole : whole = part ++ left)
    (hsize : part.size = min room whole.size) : IsLongestPart room whole part := by
  refine ⟨⟨left, hwhole⟩, by omega, ?_⟩
  intro other rest hother hroom
  have hle : other.size ≤ whole.size := by
    rw [hother, ByteArray.size_append]
    omega
  omega

theorem Gives.isLongestPart (h : Gives room bytes taken left) :
    IsLongestPart room bytes taken := by
  obtain ⟨hbytes, hsize⟩ := h.append_eq
  exact isLongestPart_of_size hbytes hsize

/-- There is only one longest beginning. -/
theorem IsLongestPart.eq {other : ByteArray} (h : IsLongestPart room whole part)
    (h' : IsLongestPart room whole other) : part = other := by
  obtain ⟨⟨rest, hpart⟩, hroom, hlongest⟩ := h
  obtain ⟨⟨rest', hother⟩, hroom', hlongest'⟩ := h'
  have hsize : part.size = other.size :=
    Nat.le_antisymm (hlongest' part rest hpart hroom) (hlongest other rest' hother hroom')
  exact ByteArray.append_inj_left (hpart.symm.trans hother) hsize

end Pieces

theorem writeBytes_of_le {room : Nat} {bytes : ByteArray} (h : bytes.size ≤ room) :
    writeBytes (some room) bytes = (bytes, .ok ()) := by
  simp [writeBytes, h]

theorem writeBytes_of_lt {room : Nat} {bytes : ByteArray} (h : room < bytes.size) :
    writeBytes (some room) bytes = (bytes.extract 0 room, .error .writeZero) := by
  simp [writeBytes, Nat.not_le.mpr h]

/-- A writer that takes as much as it can at once comes to the same end. -/
theorem gives_writeBytes (room : Nat) (bytes : ByteArray) :
    ∃ left, Gives room bytes (writeBytes (some room) bytes).1 left := by
  by_cases hsize : bytes.size ≤ room
  · rw [writeBytes_of_le hsize]
    by_cases hempty : bytes.size = 0
    · rw [ByteArray.size_eq_zero_iff.mp hempty]
      exact ⟨_, .all room⟩
    · have hgives := Gives.piece (by omega) hsize (.all (room - bytes.size))
      rw [ByteArray.append_empty] at hgives
      exact ⟨_, hgives⟩
  · rw [writeBytes_of_lt (by omega)]
    have htaken : (bytes.extract 0 room).size = room := by
      rw [ByteArray.size_extract]
      omega
    have hbytes : bytes = bytes.extract 0 room ++ bytes.extract room bytes.size := by
      rw [← ByteArray.extract_eq_extract_append_extract room (by omega) (by omega),
        ByteArray.extract_zero_size]
    by_cases hroom : room = 0
    · subst hroom
      rw [ByteArray.extract_same]
      exact ⟨_, .full bytes⟩
    · have hgives : Gives room (bytes.extract 0 room ++ bytes.extract room bytes.size)
          (bytes.extract 0 room ++ .empty) (bytes.extract room bytes.size) := by
        refine .piece (by omega) (by omega) ?_
        rw [htaken, Nat.sub_self]
        exact .full _
      rw [← hbytes, ByteArray.append_empty] at hgives
      exact ⟨_, hgives⟩

section Transfer

variable {policy : Policy} {name : Option String} {reader : Reader} {room : Nat}
  {capacity : Option Nat} {source : String} {failure : Failure} {r : Conversion}

theorem transfer_unread (h : reader.source (name.getD stdinName) sizeLimit = .error failure) :
    transfer policy name reader capacity = ⟨⟨[], .error failure⟩, .empty⟩ := by
  simp only [transfer, h]

theorem transfer_failed (h : reader.source (name.getD stdinName) sizeLimit = .ok source)
    (hresult : (convert policy name source).result = .error failure) :
    transfer policy name reader capacity =
      ⟨⟨(convert policy name source).log, .error failure⟩, .empty⟩ := by
  simp only [transfer, h, hresult]

theorem transfer_converted (h : reader.source (name.getD stdinName) sizeLimit = .ok source)
    (hresult : (convert policy name source).result = .ok r) :
    transfer policy name reader (some room) =
      ⟨⟨(convert policy name source).log,
          if r.output.utf8ByteSize ≤ room then .ok r else .error (.system .writeZero)⟩,
        (writeBytes (some room) r.output.toUTF8).1⟩ := by
  by_cases hroom : r.output.toUTF8.size ≤ room
  · have hfits : r.output.utf8ByteSize ≤ room := hroom
    simp only [transfer, h, hresult, writeBytes_of_le hroom, if_pos hfits]
  · have hover : ¬ r.output.utf8ByteSize ≤ room := hroom
    simp only [transfer, h, hresult, writeBytes_of_lt (Nat.not_le.mp hroom), if_neg hover]

end Transfer

/-- A transfer comes to the same whatever pieces are read and written. It fails, and nothing is
    written, if the first bytes are no text, or there are too many, or the conversion fails.
    Otherwise the longest beginning of the converted text that the writer has room for is written,
    and the transfer succeeds if that is all of it. -/
theorem transfer_in_pieces (policy : Policy) (name : Option String) (bytes : ByteArray)
    {chunk : Option Nat} (hchunk : ∀ size ∈ chunk, 0 < size) (room : Nat) :
    let run := transfer policy name ⟨bytes, 0, chunk⟩ (some room)
    let head := bytes.extract 0 (sizeLimit + 1)
    (String.fromUTF8? head = none → run = ⟨⟨[], .error (.system .notText)⟩, .empty⟩) ∧
      ∀ source, String.fromUTF8? head = some source →
        (sizeLimit < bytes.size →
          run = ⟨⟨[], .error (.tooLarge (name.getD stdinName) sizeLimit)⟩, .empty⟩) ∧
        (bytes.size ≤ sizeLimit → bytes = source.toUTF8 ∧
          run.log = (convert policy name source).log ∧
          (∀ failure, (convert policy name source).result = .error failure →
            run.result = .error failure ∧ run.written = .empty) ∧
          ∀ r, (convert policy name source).result = .ok r →
            IsLongestPart room r.output.toUTF8 run.written ∧
            (∀ taken left, Gives room r.output.toUTF8 taken left → run.written = taken) ∧
            run.result =
              if r.output.utf8ByteSize ≤ room then .ok r else .error (.system .writeZero)) := by
  have hadvances : Reader.Advances ⟨bytes, 0, chunk⟩ := hchunk
  refine ⟨?_, ?_⟩
  · intro hnone
    exact transfer_unread (Reader.source_notText hadvances hnone)
  · intro source hsource
    refine ⟨fun hlarge => transfer_unread (Reader.source_tooLarge hadvances hsource hlarge), ?_⟩
    intro hsmall
    rw [Reader.extract_eq_self hsmall] at hsource
    have hbytes := fromUTF8?_eq_some_iff.mp hsource
    have hread : Reader.source ⟨bytes, 0, chunk⟩ (name.getD stdinName) sizeLimit = .ok source :=
      (Reader.source_eq_ok_iff hadvances).mpr ⟨hbytes, hsmall⟩
    refine ⟨hbytes, ?_⟩
    cases hresult : (convert policy name source).result with
    | error failure =>
      rw [transfer_failed hread hresult]
      refine ⟨rfl, ?_, ?_⟩
      · intro failure' hfailure
        cases hfailure
        exact ⟨rfl, rfl⟩
      · intro r hr
        cases hr
    | ok r =>
      rw [transfer_converted hread hresult]
      refine ⟨rfl, ?_, ?_⟩
      · intro failure hfailure
        cases hfailure
      · intro r' hr
        obtain rfl := Except.ok.inj hr
        obtain ⟨left, hgives⟩ := gives_writeBytes room r.output.toUTF8
        refine ⟨hgives.isLongestPart, ?_, rfl⟩
        intro taken left' hgives'
        exact hgives.isLongestPart.eq hgives'.isLongestPart

theorem transfer_in_pieces_cut_character :
    let run := transfer .warn (some "a") ⟨"é\n\"x".toUTF8, 0, some 1⟩ (some 3)
    run.written = "é;".toUTF8 ∧ run.result = .error (.system .writeZero) ∧
      run.log = [⟨.warning, "a:2:0 string literal not terminated"⟩] := by
  have hsize : "é\n\"x".toUTF8.size ≤ sizeLimit := by decide
  have hhead : String.fromUTF8? ("é\n\"x".toUTF8.extract 0 (sizeLimit + 1)) =
      some "é\n\"x" := by
    rw [Reader.extract_eq_self hsize, fromUTF8?_toUTF8]
  have hresult : (convert .warn (some "a") "é\n\"x").result =
      .ok ⟨"é;\n\"x", 1, [.lexical "string literal not terminated" ⟨3, 5⟩]⟩ := rfl
  obtain ⟨-, hread⟩ := transfer_in_pieces .warn (some "a") "é\n\"x".toUTF8
    (show ∀ size ∈ some 1, 0 < size by simp) 3
  obtain ⟨-, hlog, -, hconverted⟩ := (hread _ hhead).2 hsize
  obtain ⟨-, hpieces, hfull⟩ := hconverted _ hresult
  have hgives : Gives 3 ("é".toUTF8 ++ (";".toUTF8 ++ "\n\"x".toUTF8))
      ("é".toUTF8 ++ (";".toUTF8 ++ .empty)) "\n\"x".toUTF8 :=
    .piece (by decide) (by decide) (.piece (by decide) (by decide) (.full _))
  refine ⟨(hpieces _ _ hgives).trans (by decide), hfull.trans rfl, hlog.trans ?_⟩
  decide

end Semicolons
