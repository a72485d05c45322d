import Semicolons.Failure
import Semicolons.Insertion
import Semicolons.Policy
import Semicolons.Problem

/-!
# Conversion of a source text

A conversion writes every implied semicolon into a source text and lists the problems of the text.
A policy does not change what is found: it decides what is logged, and whether the first problem
stands in the way of a result.
-/

namespace Semicolons

/-- How urgent an entry of the log is. -/
inductive Level where
  | error
  | warning
  deriving DecidableEq, Repr

/-- The name of a level in the log. -/
def Level.name : Level → String
  | .error => "ERROR"
  | .warning => "WARN"

/-- A line of the log. -/
structure LogEntry where
  level : Level
  text : String
  deriving DecidableEq, Repr

/-- A source text with its semicolons written out, how many were added, and the problems of the
    source text by their place. -/
structure Conversion where
  output : String
  inserted : Nat
  diagnostics : List Diagnostic
  deriving DecidableEq, Repr

/-- A result, or why there is none, with what was logged on the way. -/
structure Logged (α : Type) where
  log : List LogEntry
  result : Except Failure α

/-- What follows a result is logged behind what was logged before; nothing follows a failure. -/
def Logged.bind {α β : Type} (before : Logged α) (next : α → Logged β) : Logged β :=
  match before.result with
  | .ok a =>
    let after := next a
    ⟨before.log ++ after.log, after.result⟩
  | .error failure => ⟨before.log, .error failure⟩

instance : Monad Logged where
  pure a := ⟨[], .ok a⟩
  bind := Logged.bind

namespace Logged

variable {α β : Type} {before : Logged α} {next : α → Logged β}

theorem bind_of_ok {a : α} (h : before.result = .ok a) :
    (before >>= next) = ⟨before.log ++ (next a).log, (next a).result⟩ := by
  show Logged.bind before next = _
  rw [Logged.bind, h]

theorem bind_of_error {failure : Failure} (h : before.result = .error failure) :
    (before >>= next) = ⟨before.log, .error failure⟩ := by
  show Logged.bind before next = _
  rw [Logged.bind, h]

end Logged

/-- The conversion of a source text. -/
def Conversion.ofSource (source : String) : Conversion :=
  let stream := tokens source
  ⟨withSemicolons stream, semicolonCount stream, (problems stream).map Problem.diagnostic⟩

/-- Reports a problem: a policy logs it or passes over it, and gives up with it or goes on. -/
def report (policy : Policy) (name : Option String) (chars : List Char) (d : Diagnostic) :
    Logged Unit :=
  match policy with
  | .fatal => ⟨[⟨.error, d.oneLine name chars⟩], .error (.fatal d)⟩
  | .warn => ⟨[⟨.warning, d.oneLine name chars⟩], .ok ()⟩
  | .ignore => ⟨[], .ok ()⟩

/-- Reports problems one after the other, up to the first one with which the policy gives up. -/
def reportAll (policy : Policy) (name : Option String) (chars : List Char) :
    List Diagnostic → Logged Unit
  | [] => pure ()
  | d :: rest => do
    report policy name chars d
    reportAll policy name chars rest

/-- Converts a source text under a policy. The name, if there is one, only labels the log. -/
def convert (policy : Policy) (name : Option String) (source : String) : Logged Conversion := do
  let conversion := Conversion.ofSource source
  reportAll policy name source.toList conversion.diagnostics
  return conversion

/-- The text of a conversion. -/
def convertedText (policy : Policy) (source : String) : Except Failure String :=
  (convert policy none source).result.map Conversion.output

/-- Whether every semicolon of a source text is written out already. -/
def isExplicit (source : String) : Except Failure Bool :=
  (convert .fatal none source).result.map fun c => c.inserted == 0

end Semicolons
