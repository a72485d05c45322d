import Semicolons.Path
import Semicolons.Policy

/-!
# Command line arguments

The command line names an input, and has options for the output, the policy, and a listing of
tokens. An option may be followed by its value or hold it: `--output=a`, `-oa` and `-o=a` say the
same as `-o a`. After `--` every argument is an input.

A value that comes in an argument of its own is looked at only when the next option or input is
reached, or the end; an argument that means nothing is reported without looking at it.
-/

namespace Semicolons.CommandLine

/-- What the command line asks for. -/
structure Arguments where
  input : Option String
  output : Option String
  policy : Policy
  listed : Option String
  deriving DecidableEq, Repr

namespace Arguments

/-- The file to convert, or none for the standard input, which is also called `-`. Slashes and
    names `.` behind the hyphen change nothing, because such a path takes the same single step. -/
def inputFile? (a : Arguments) : Option String :=
  a.input.filter fun path => pathSteps path.toList != [['-']]

end Arguments

/-- Why the command line does not say what to do. Asking for help or for the version stops the
    reading of the command line as well. -/
inductive UsageError where
  | invalidValue
  | unknownArgument
  | argumentConflict
  | tooManyValues
  | displayHelp
  | displayVersion
  deriving DecidableEq, Repr

namespace UsageError

/-- The exit code of the program. -/
def exitCode : UsageError → Nat
  | .displayHelp | .displayVersion => 0
  | _ => 2

/-- The text that answers a question for the version. -/
def versionText : String :=
  "gocolon 0.1.0\n"

/-- The text that answers a question for help. -/
def helpText : String :=
  "Insert explicit statement terminators into Go source\n\n" ++
  "Usage: gocolon [OPTIONS] [INPUT]\n\n" ++
  "Arguments:\n" ++
  "  [INPUT]  Go source file to convert (`-` or nothing reads stdin)\n\n" ++
  "Options:\n" ++
  "  -o, --output <OUTPUT>      Write the converted source here instead of stdout\n" ++
  "      --on-error <ON_ERROR>  What to do about problems: fatal, warn or ignore\n" ++
  "      --lex <FILE>           List the tokens of a file instead\n" ++
  "  -h, --help                 Print help\n" ++
  "  -V, --version              Print version\n"

/-- What the program answers. -/
def message : UsageError → String
  | .invalidValue => "error: a value is missing or not allowed\n"
  | .unknownArgument => "error: unexpected argument\n"
  | .argumentConflict => "error: arguments cannot be used together\n"
  | .tooManyValues => "error: unexpected value for an option that takes none\n"
  | .displayHelp => helpText
  | .displayVersion => versionText

end UsageError

/-- What takes a value on the command line. -/
inductive Slot where
  | input
  | output
  | policy
  | listed
  deriving DecidableEq, Repr

/-- The options, by what they do. -/
inductive Switch where
  | takes (slot : Slot)
  | help
  | version
  deriving DecidableEq, Repr

/-- The option with the given long name. -/
def longOption? (name : List Char) : Option Switch :=
  if name = "output".toList then some (.takes .output)
  else if name = "on-error".toList then some (.takes .policy)
  else if name = "lex".toList then some (.takes .listed)
  else if name = "help".toList then some .help
  else if name = "version".toList then some .version
  else none

/-- The option with the given letter. -/
def shortOption? (letter : Char) : Option Switch :=
  if letter = 'o' then some (.takes .output)
  else if letter = 'h' then some .help
  else if letter = 'V' then some .version
  else none

/-- The command line as far as it has been read. -/
structure Progress where
  input : Option String
  output : Option String
  policy : Option Policy
  listed : Option String
  /-- What waits to be filled, and the value for it if that has been read. -/
  pending : Option (Slot × Option String)
  deriving DecidableEq, Repr

namespace Progress

/-- Before the first argument. -/
def initial : Progress :=
  ⟨none, none, none, none, none⟩

/-- Whether a slot is filled. -/
def isFilled (p : Progress) : Slot → Bool
  | .input => p.input.isSome
  | .output => p.output.isSome
  | .policy => p.policy.isSome
  | .listed => p.listed.isSome

/-- Fills a slot. It needs a value, takes one only once, and takes no empty one. -/
def fill (p : Progress) (slot : Slot) (value : Option String) : Except UsageError Progress :=
  match value with
  | none => .error .invalidValue
  | some value =>
    if p.isFilled slot then .error .argumentConflict
    else
      match slot with
      | .policy =>
        match Policy.ofWord? value false with
        | none => .error .invalidValue
        | some policy => .ok { p with policy := some policy }
      | .input => if value.isEmpty then .error .invalidValue else .ok { p with input := some value }
      | .output =>
        if value.isEmpty then .error .invalidValue else .ok { p with output := some value }
      | .listed =>
        if value.isEmpty then .error .invalidValue else .ok { p with listed := some value }

/-- Fills the slot that waits, if one does. -/
def settle (p : Progress) : Except UsageError Progress :=
  match p.pending with
  | none => .ok p
  | some (slot, value) => { p with pending := none }.fill slot value

/-- Lets a slot wait for the given value, or for the next argument. -/
def await (p : Progress) (slot : Slot) (value : Option String) : Except UsageError Progress :=
  p.settle.map fun p => { p with pending := some (slot, value) }

/-- Reads an input. There can be only one. -/
def readInput (p : Progress) (argument : String) : Except UsageError Progress :=
  let hasInput := p.input.isSome || p.pending.any (·.1 = .input)
  if hasInput then .error .unknownArgument else p.await .input (some argument)

/-- Reads an option that takes a value, which it may hold. -/
def readSlot (p : Progress) (slot : Slot) (held : Option String) : Except UsageError Progress :=
  match held with
  | none => p.await slot none
  | some value => p.settle.bind fun p => p.fill slot (some value)

/-- Reads an option that takes no value. It has no effect but to end the reading. -/
def readQuestion {α : Type} (p : Progress) (question : UsageError) : Except UsageError α :=
  p.settle.bind fun _ => .error question

/-- Reads an option with a long name, whose value follows an equals sign if it holds one. -/
def readLong (p : Progress) (text : List Char) : Except UsageError Progress :=
  let name := text.takeWhile (· != '=')
  let held := (text.dropWhile (· != '=')).tail
  let holds := text.contains '='
  match longOption? name with
  | none => .error .unknownArgument
  | some (.takes slot) => p.readSlot slot (if holds then some (String.ofList held) else none)
  | some .help => if holds then .error .tooManyValues else p.readQuestion .displayHelp
  | some .version => if holds then .error .tooManyValues else p.readQuestion .displayVersion

/-- Reads an option with a letter, which holds the rest of its argument as its value if there is
    any, after an equals sign or without one. -/
def readShort (p : Progress) (letter : Char) (rest : List Char) : Except UsageError Progress :=
  match shortOption? letter with
  | none => .error .unknownArgument
  | some (.takes slot) =>
    match rest with
    | [] => p.readSlot slot none
    | c :: more => p.readSlot slot (some (String.ofList (if c = '=' then more else rest)))
  | some .help => p.readQuestion .displayHelp
  | some .version => p.readQuestion .displayVersion

/-- Reads an argument that does not begin with a hyphen, or is a single one: the value that the
    last option waits for, or else an input. -/
def readValue (p : Progress) (argument : String) : Except UsageError Progress :=
  match p.pending with
  | some (slot, none) => .ok { p with pending := some (slot, some argument) }
  | _ => p.readInput argument

/-- Reads all arguments, of which those after `--` are inputs. -/
def readAll (p : Progress) (onlyInputs : Bool) : List String → Except UsageError Progress
  | [] => p.settle
  | argument :: rest =>
    if onlyInputs then (p.readInput argument).bind fun p => readAll p true rest
    else
      match argument.toList with
      | ['-', '-'] => readAll p true rest
      | '-' :: '-' :: text => (p.readLong text).bind fun p => readAll p false rest
      | '-' :: letter :: text => (p.readShort letter text).bind fun p => readAll p false rest
      | _ => (p.readValue argument).bind fun p => readAll p false rest

/-- What the command line asks for, if it does not ask for both a listing and a conversion. -/
def finish (p : Progress) : Except UsageError Arguments :=
  if p.listed.isSome && (p.input.isSome || p.output.isSome) then .error .argumentConflict
  else .ok ⟨p.input, p.output, p.policy.getD .fatal, p.listed⟩

end Progress

/-- What the command line asks for. -/
def Arguments.parse (arguments : List String) : Except UsageError Arguments :=
  (Progress.initial.readAll false arguments).bind Progress.finish

end Semicolons.CommandLine
