import Semicolons.Conversion

/-!
# Conversion from a reader to a writer

A reader gives its bytes in pieces of bounded size, and a writer may have room for only so many.
A source text is read whole before it is converted, and is refused if it is not text or if it is
too large. At most one byte more than the limit is read to find that out, and the bytes that were
read have to be text for the size to be judged.
-/

namespace Semicolons

/-- The most bytes that a source text may have. -/
def sizeLimit : Nat :=
  104857600

/-- What the standard input is called. -/
def stdinName : String :=
  "<stdin>"

/-- The text that the bytes spell, which were read up to one byte past the limit. -/
def sourceOfBytes (name : String) (limit : Nat) (bytes : ByteArray) : Except Failure String :=
  match String.fromUTF8? bytes with
  | none => .error (.system .notText)
  | some text => if limit < bytes.size then .error (.tooLarge name limit) else .ok text

/-- Bytes that are read from a position on, at most `chunk` at a time. -/
structure Reader where
  content : ByteArray
  position : Nat
  chunk : Option Nat

namespace Reader

/-- The next bytes of a reader, at most `room` of them, and the reader after them. -/
def read (r : Reader) (room : Nat) : ByteArray × Reader :=
  let wanted := (r.chunk.map (min room)).getD room
  let piece := r.content.extract r.position (r.position + wanted)
  (piece, { r with position := r.position + piece.size })

/-- A piece that is not empty brings the reader nearer to its end. -/
theorem read_decreases (r : Reader) (room : Nat) (h : (r.read room).1.size ≠ 0) :
    (r.read room).2.content.size - (r.read room).2.position < r.content.size - r.position := by
  simp only [read, ByteArray.size_extract] at h ⊢
  omega

/-- Reads on until there are `limit` bytes or nothing is left, with the bytes `got` to begin. -/
def gather (r : Reader) (limit : Nat) (got : ByteArray) : ByteArray :=
  let step := r.read (limit - got.size)
  if _h : step.1.size = 0 then got else step.2.gather limit (got ++ step.1)
termination_by r.content.size - r.position
decreasing_by exact read_decreases r (limit - got.size) _h

/-- The source text that a reader gives, called `name` if it is too large. -/
def source (r : Reader) (name : String) (limit : Nat) : Except Failure String :=
  sourceOfBytes name limit (r.gather (limit + 1) ByteArray.empty)

end Reader

/-- The part of the bytes that a writer takes which has room for `capacity` bytes, or for any
    number, and whether it took all of them. -/
def writeBytes (capacity : Option Nat) (bytes : ByteArray) : ByteArray × Except SystemError Unit :=
  match capacity with
  | none => (bytes, .ok ())
  | some room =>
    if bytes.size ≤ room then (bytes, .ok ()) else (bytes.extract 0 room, .error .writeZero)

/-- A conversion from a reader to a writer: its log and result, and the bytes that were written. -/
structure Transfer extends Logged Conversion where
  written : ByteArray

/-- Converts all that a reader gives and writes the text to a writer. Nothing is written unless the
    conversion succeeds. -/
def transfer (policy : Policy) (name : Option String) (reader : Reader) (capacity : Option Nat) :
    Transfer :=
  match reader.source (name.getD stdinName) sizeLimit with
  | .error failure => ⟨⟨[], .error failure⟩, ByteArray.empty⟩
  | .ok source =>
    let run := convert policy name source
    match run.result with
    | .error failure => ⟨⟨run.log, .error failure⟩, ByteArray.empty⟩
    | .ok conversion =>
      match writeBytes capacity conversion.output.toUTF8 with
      | (written, .ok ()) => ⟨⟨run.log, .ok conversion⟩, written⟩
      | (written, .error error) => ⟨⟨run.log, .error (.system error)⟩, written⟩

end Semicolons
