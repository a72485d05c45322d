import Semicolons.Diagnostic

/-!
# Failures

Why a source text was not converted: the system refused, the text is too large, or it has a
problem that the policy does not tolerate.
-/

namespace Semicolons

/-- What the system can refuse when files and streams are read and written. -/
inductive SystemError where
  | notFound
  | notADirectory
  | isADirectory
  | notText
  | writeZero
  | other (reason : String)
  deriving DecidableEq, Repr

/-- The wording of a refusal. -/
def SystemError.message : SystemError → String
  | .notFound => "No such file or directory (os error 2)"
  | .notADirectory => "Not a directory (os error 20)"
  | .isADirectory => "Is a directory (os error 21)"
  | .notText => "stream did not contain valid UTF-8"
  | .writeZero => "failed to write whole buffer"
  | .other reason => reason

/-- Why a conversion failed. -/
inductive Failure where
  | system (error : SystemError)
  | tooLarge (name : String) (limit : Nat)
  | fatal (diagnostic : Diagnostic)
  deriving DecidableEq, Repr

/-- The wording of a failure. -/
def Failure.message : Failure → String
  | .system error => "I/O error: " ++ error.message
  | .tooLarge name limit =>
    name ++ " is too large (max " ++ toString limit ++ " bytes)"
  | .fatal diagnostic => diagnostic.message

end Semicolons
