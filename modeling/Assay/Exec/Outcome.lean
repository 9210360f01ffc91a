/-
# Assay.Exec.Outcome -- what a command came to, wherever it ran
-/
import Assay.Json.Basic

namespace Assay.Exec

set_option autoImplicit false

open Bytes

/-- What a command came to, wherever it ran. -/
structure Outcome where
  code : Int
  output : Bytes
  errors : Bytes
  deriving DecidableEq, Repr

namespace Outcome

def succeeded (outcome : Outcome) : Bool :=
  outcome.code == 0

/-- A command that was not run to its end, with the reason. -/
def failure (reason : Bytes) : Outcome :=
  ⟨1, [], reason⟩

def toJson (outcome : Outcome) : Json :=
  .record [
    ("stdout", .string outcome.output),
    ("stderr", .string outcome.errors),
    ("returncode", .int outcome.code)]

end Outcome

end Assay.Exec
