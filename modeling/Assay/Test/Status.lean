/-
# Assay.Test.Status -- how a test went
-/
import Assay.KeyMap

namespace Assay.Test

set_option autoImplicit false

open Bytes

/-- How a test went. -/
inductive Status where
  | passed
  | failed
  | skipped
  | error
  | expectedFailure
  deriving DecidableEq, Repr

/-- How each reported test went. -/
abbrev Statuses := KeyMap Status

namespace Status

def all : List Status :=
  [passed, failed, skipped, error, expectedFailure]

/-- The word for a status in a test log. -/
def word : Status → Bytes
  | passed => ascii "PASSED"
  | failed => ascii "FAILED"
  | skipped => ascii "SKIPPED"
  | error => ascii "ERROR"
  | expectedFailure => ascii "XFAIL"

/-- The status that a word stands for. -/
def ofWord? (word : Bytes) : Option Status :=
  all.find? fun status => word == status.word

/-- The test did what was wanted of it. -/
def isPass : Status → Bool
  | passed => true
  | expectedFailure => true
  | _ => false

/-- The test broke. -/
def isFailure : Status → Bool
  | failed => true
  | error => true
  | _ => false

end Status

/-- Whether a test is reported and passed. -/
def hasPassed (statuses : Statuses) (test : Bytes) : Bool :=
  (statuses.get? test).any Status.isPass

/-- Whether a test is not reported or broke. -/
def hasFailed (statuses : Statuses) (test : Bytes) : Bool :=
  (statuses.get? test).all Status.isFailure

end Assay.Test
