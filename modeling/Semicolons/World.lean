import Semicolons.Files
import Semicolons.Transfer

/-!
# Conversion of files

What a conversion between files can see and change: the files, the standard input, and the
standard output. An input that is not named is the standard input, and an output that is not
named the standard output.
-/

namespace Semicolons

/-- The files, what the standard input gives, and what the standard output has taken. -/
structure World where
  files : Files
  stdin : ByteArray
  stdout : ByteArray

namespace World

/-- What an input holds. -/
def read (w : World) (input : Option String) : Except SystemError ByteArray :=
  match input with
  | some path => w.files.read path
  | none => .ok w.stdin

/-- Gives a text to an output: a file is replaced, and the standard output is added to. -/
def write (w : World) (output : Option String) (text : String) : Except SystemError World :=
  match output with
  | some path => (w.files.write path text.toUTF8).map fun files => { w with files := files }
  | none => .ok { w with stdout := w.stdout ++ text.toUTF8 }

end World

/-- The source text of an input called `name` of which `found` is what it holds, if it can be
    read. -/
def sourceOfInput (name : String) (found : Except SystemError ByteArray) :
    Except Failure String :=
  match found with
  | .error error => .error (.system error)
  | .ok bytes => Reader.source ⟨bytes, 0, none⟩ name sizeLimit

/-- What a piece of work left behind: the world after it, what it logged, and its result. -/
structure Run (ε α : Type) where
  world : World
  log : List LogEntry
  result : Except ε α

/-- Converts an input into an output. The output is written only when the conversion has
    succeeded, and the log names the input if it is a file. -/
def convertFile (policy : Policy) (input output : Option String) (w : World) :
    Run Failure Conversion :=
  match sourceOfInput (input.getD stdinName) (w.read input) with
  | .error failure => ⟨w, [], .error failure⟩
  | .ok source =>
    let run := convert policy input source
    match run.result with
    | .error failure => ⟨w, run.log, .error failure⟩
    | .ok conversion =>
      match w.write output conversion.output with
      | .error error => ⟨w, run.log, .error (.system error)⟩
      | .ok after => ⟨after, run.log, .ok conversion⟩

end Semicolons
