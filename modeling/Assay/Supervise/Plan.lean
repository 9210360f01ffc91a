/-
# Assay.Supervise.Plan -- children that follow a plan

A `Plan` says beforehand how a child answers: when it exits, and what it does when it
is asked to end.  With such children a supervisor can be tried out.
-/
import Assay.Supervise.Child

namespace Assay.Supervise

set_option autoImplicit false

open Bytes

/-- What a child does when it is asked to end. -/
inductive Manner where
  | exit
  | ignore
  /-- The request fails. -/
  | fail (text : Bytes)
  deriving DecidableEq, Repr

/-- How a child answers. -/
structure Plan where
  pid : Int := 1
  output : Option Feed := none
  errors : Option Feed := none
  /-- The exit code, when it has exited from the start. -/
  exited : Option Int := none
  /-- After how many polls it exits, and with which code. -/
  exits : Option (Nat × Int) := none
  onTerminate : Manner := .exit
  onKill : Manner := .exit
  deriving DecidableEq, Repr

namespace Plan

/-- The exit code of a child that exits because it was asked to, or killed. -/
def terminatedCode : Int := 143
def killedCode : Int := 137

/-- How far a child has come with its plan. -/
structure Progress where
  polls : Nat
  exited : Option Int
  /-- The answer to the last call. -/
  answer : Except Bytes (Option Int)

/-- The progress after a request to end. -/
def request (progress : Progress) (code : Int) : Manner → Progress
  | .exit =>
      let exited := progress.exited.or (some code)
      { progress with exited, answer := .ok exited }
  | .ignore => { progress with answer := .ok progress.exited }
  | .fail text => { progress with answer := .error text }

/-- The progress after one more call. -/
def step (plan : Plan) (progress : Progress) (asked : Asked) : Progress :=
  match asked.call with
  | .poll =>
      let due := plan.exits.filter fun exit => exit.1 ≤ progress.polls
      let exited := progress.exited.or (due.map (·.2))
      ⟨progress.polls + 1, exited, .ok exited⟩
  | .await _ => { progress with answer := .ok progress.exited }
  | .terminate => request progress terminatedCode plan.onTerminate
  | .kill => request progress killedCode plan.onKill

/-- The child that follows a plan. -/
def child (plan : Plan) : Child where
  pid := plan.pid
  output := plan.output
  errors := plan.errors
  reply calls := (calls.reverse.foldl plan.step ⟨0, plan.exited, .ok plan.exited⟩).answer

end Plan

end Assay.Supervise
