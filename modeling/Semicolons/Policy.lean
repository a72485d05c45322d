/-!
# Policies

What is to happen when a source text has problems.
-/

namespace Semicolons

/-- Give up at the first problem, warn about every problem and go on, or say nothing. -/
inductive Policy where
  | fatal
  | warn
  | ignore
  deriving DecidableEq, Repr

namespace Policy

/-- Every policy, in the order in which they are presented. -/
def all : List Policy :=
  [.fatal, .warn, .ignore]

/-- The word that chooses a policy. -/
def word : Policy → String
  | .fatal => "fatal"
  | .warn => "warn"
  | .ignore => "ignore"

/-- The policy that a word chooses. Upper and lower case of the Latin letters are told apart
    unless `ignoreCase` holds. -/
def ofWord? (text : String) (ignoreCase : Bool) : Option Policy :=
  let text := if ignoreCase then text.map Char.toLower else text
  all.find? (·.word == text)

/-- The complaint about a word that chooses no policy. -/
def unknownWordMessage (text : String) : String :=
  "invalid variant: " ++ text

/-- Every policy is chosen by its own word. -/
theorem ofWord?_word (p : Policy) : ofWord? p.word false = some p := by
  cases p <;> rfl

end Policy

end Semicolons
