import Semicolons.CommandLine.Arguments
import Semicolons.Listing
import Semicolons.World

/-!
# A session of the program

A session reads one input, works out a reply, and writes it to one output. The reply is the
converted text or a listing of tokens, or a complaint that stands in its place; nothing is
written then.
-/

namespace Semicolons.CommandLine

/-- A diagnostic with the name of the source text that it is about. -/
structure Report where
  diagnostic : Diagnostic
  name : String
  deriving DecidableEq, Repr

/-- Why a session did not do what it was asked for. -/
inductive Complaint where
  /-- The input cannot be read. -/
  | unreadable (name : String) (error : SystemError)
  /-- The input is too large. -/
  | tooLarge (name : String) (limit : Nat)
  /-- The source text has problems. -/
  | reports (reports : List Report)
  /-- The output cannot be written. -/
  | unwritable (output : Option String) (error : SystemError)
  deriving DecidableEq, Repr

namespace Complaint

/-- The wording of a complaint, where it is more than the reports of problems. -/
def message? : Complaint → Option String
  | .unreadable name error => some ("Cannot read '" ++ name ++ "': " ++ error.message)
  | .tooLarge name limit => some (Failure.tooLarge name limit).message
  | .reports _ => none
  | .unwritable (some path) error =>
    some ("Error writing file '" ++ path ++ "': " ++ error.message)
  | .unwritable none error => some ("Error writing stdout: " ++ error.message)

/-- The complaint that a failed conversion of the named input leads to. -/
def ofFailure (name : String) : Failure → Complaint
  | .system error => .unreadable name error
  | .tooLarge name limit => .tooLarge name limit
  | .fatal diagnostic => .reports [⟨diagnostic, name⟩]

end Complaint

namespace Arguments

/-- The file that a session reads, or none for the standard input. A listing always reads a
    file. -/
def source? (a : Arguments) : Option String :=
  match a.listed with
  | some path => some path
  | none => a.inputFile?

/-- The file that a session writes, or none for the standard output. A listing always goes
    there. -/
def target? (a : Arguments) : Option String :=
  match a.listed with
  | some _ => none
  | none => a.output

end Arguments

/-- The listing of a source text, or a report of every fault of its tokens. -/
def list (name source : String) : Except Complaint String :=
  let stream := tokens source
  match faults stream with
  | [] => .ok (listing stream)
  | found => .error (.reports (found.map fun p => ⟨p.diagnostic, name⟩))

/-- What a session logs, and its reply or complaint, where `found` is what its input holds. -/
def reply (a : Arguments) (found : Except SystemError ByteArray) :
    List LogEntry × Except Complaint String :=
  let name := a.source?.getD stdinName
  match sourceOfInput name found with
  | .error failure => ([], .error (.ofFailure name failure))
  | .ok source =>
    match a.listed with
    | some _ => ([], list name source)
    | none =>
      let run := convert a.policy (some name) source
      (run.log, (run.result.map Conversion.output).mapError (Complaint.ofFailure name))

/-- A session of the program. -/
def execute (a : Arguments) (w : World) : Run Complaint Unit :=
  let (log, text) := reply a (w.read a.source?)
  match text with
  | .error complaint => ⟨w, log, .error complaint⟩
  | .ok text =>
    match w.write a.target? text with
    | .error error => ⟨w, log, .error (.unwritable a.target? error)⟩
    | .ok after => ⟨after, log, .ok ()⟩

/-- The exit code of a session: zero if it did what it was asked for, and one if it did not. -/
def exitCode (result : Except Complaint Unit) : Nat :=
  match result with
  | .ok () => 0
  | .error _ => 1

end Semicolons.CommandLine
