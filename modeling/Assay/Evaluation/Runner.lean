/-
# Assay.Evaluation.Runner -- where the commands of an evaluation run

A `Runner` answers each command with what came of it.  Its answers may depend on
all that happened before, for it acts on the host and may keep what it remembers in
a stream of its own, and it may fail to answer.
-/
import Assay.Container.Client
import Assay.Exec.Executor

namespace Assay.Evaluation

set_option autoImplicit false

open Bytes
open Exec (Outcome)

/-- Why a command has no outcome. -/
inductive Fault where
  /-- The evaluation cannot go on. -/
  | evaluation (message : Bytes)
  /-- There is no container to run it in. -/
  | notReady (cause : Container.NotReady)
  | other (message : Bytes)
  deriving DecidableEq, Repr

def Fault.message : Fault → Bytes
  | evaluation message => message
  | notReady cause => cause.message
  | other message => message

/-- Where the commands of an evaluation run. -/
structure Runner where
  name : Bytes
  /-- Run a command with a limit in seconds. -/
  run : Bytes → Int → Act (Except Fault Outcome)

namespace Runner

/-- Runs commands on the host. -/
def onHost (programs : Programs) (executor : Exec.Executor) : Runner where
  name := ascii "local"
  run command limit := do
    let result ← executor.execute programs { command, timeout := some limit }
    return .ok ⟨result.code, result.output, result.errors⟩

/-- Runs commands in a container, in a directory of it or in the usual one. -/
def inContainer (programs : Programs) (client : Container.Client) (directory : Bytes) : Runner where
  name := ascii "container"
  run command limit := do
    return (← client.execute programs command directory (some limit)).mapError .notReady

end Runner

end Assay.Evaluation
