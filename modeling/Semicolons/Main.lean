import Semicolons.CommandLine.Session

/-!
# The program

Reads the input that the command line names, and carries out what a session replies.
-/

namespace Semicolons.CommandLine

/-- What a refusal of the operating system means. -/
def systemErrorOf : IO.Error → SystemError
  | .noFileOrDirectory .. => .notFound
  | .inappropriateType _ code _ => if code = 20 then .notADirectory else .isADirectory
  | error => .other (toString error)

/-- Reads from a stream until it ends or there are more than `limit` bytes. -/
def readUpTo (stream : IO.FS.Stream) (limit : Nat) : IO ByteArray := do
  let mut got := ByteArray.empty
  repeat
    if limit < got.size then break
    let piece ← stream.read 65536
    if piece.isEmpty then break
    got := got ++ piece
  return got.extract 0 (limit + 1)

/-- What the input of a session holds. -/
def readSource (source : Option String) : IO (Except SystemError ByteArray) := do
  try
    let stream ← match source with
      | some path => IO.FS.Stream.ofHandle <$> IO.FS.Handle.mk path .read
      | none => IO.getStdin
    return .ok (← readUpTo stream sizeLimit)
  catch error => return .error (systemErrorOf error)

/-- Gives a text to the output of a session. -/
def writeTarget (target : Option String) (text : String) : IO (Except SystemError Unit) := do
  try
    match target with
    | some path => IO.FS.writeFile path text
    | none => IO.print text
    return .ok ()
  catch error => return .error (systemErrorOf error)

/-- Shows a complaint. -/
def complain (complaint : Complaint) : IO Unit := do
  match complaint with
  | .reports reports =>
    for report in reports do
      IO.eprintln s!"{report.name}: {report.diagnostic.stage.code}: {report.diagnostic.message}"
      if let some help := report.diagnostic.help? then IO.eprintln s!"help: {help}"
  | other => IO.eprintln (other.message?.getD "")

/-- Carries out a session, and gives the exit code. -/
def run (asked : Arguments) : IO UInt32 := do
  let (log, text) := reply asked (← readSource asked.source?)
  for entry in log do
    IO.eprintln s!"{entry.level.name} {entry.text}"
  match text with
  | .error complaint =>
    complain complaint
    return 1
  | .ok text =>
    match ← writeTarget asked.target? text with
    | .error error =>
      complain (.unwritable asked.target? error)
      return 1
    | .ok () => return 0

end Semicolons.CommandLine

open Semicolons.CommandLine in
/-- Reads the command line, carries out the session, and gives the exit code. -/
def main (arguments : List String) : IO UInt32 := do
  match Arguments.parse arguments with
  | .error error =>
    if error.exitCode = 0 then IO.print error.message else IO.eprint error.message
    return error.exitCode.toUInt32
  | .ok asked => run asked
