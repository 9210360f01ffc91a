/-
# Assay.Exec.Result -- what came of executing a command
-/
import Assay.Bytes.Decimal
import Assay.Shell.Dispatch

namespace Assay.Exec

set_option autoImplicit false

open Bytes Shell

/-- What came of executing a command. -/
structure Result where
  /-- The exit code of the command, or one of the two reserved codes. -/
  code : Int
  output : Bytes
  errors : Bytes
  /-- How long it took, in seconds. -/
  duration : Float
  mode : Dispatch

/-- The code of a command that could not be started. -/
def notStarted : Int := -1

/-- The code of a command that was stopped at its deadline. -/
def timedOut : Int := -2

namespace Result

def succeeded (result : Result) : Bool :=
  result.code == 0

/-- Both streams, each between two marks. -/
def report (result : Result) : Bytes :=
  ascii "++++++++START_STDOUT++++++++\n" ++ result.output ++
    ascii "\n++++++++END_STDOUT++++++++\n++++++++START_STDERR++++++++\n" ++ result.errors ++
    ascii "\n++++++++END_STDERR++++++++"

/-- A number of seconds with two decimal places. -/
def secondsText (seconds : Float) : Bytes :=
  fixedPoint 2 seconds

def summary (result : Result) : Bytes :=
  ascii "ExecResult:\x7bcode: " ++ ofInt result.code ++ ascii ", duration: " ++
    secondsText result.duration ++ ascii "s\x7d"

end Result

end Assay.Exec
