/-
# Assay.Supervise.Tools -- the tool server and its inspector

`Tools.start` runs the server, and the inspector beside it unless that is not wanted,
under a supervisor, until both are done or something fails.  Whatever happens, all
tasks are stopped at the end.
-/
import Assay.Settings.Basic
import Assay.Supervise.Cooperative

namespace Assay.Supervise

set_option autoImplicit false

open Bytes

/-- What is needed of a supervisor with a state of some kind. -/
structure Supervision (σ : Type) where
  add : Bytes → List Bytes → Environment → Supervised σ Unit
  runUntilComplete : Supervised σ Unit
  stopAll : Bool → Supervised σ Unit

/-- The supervisors that there are. -/
inductive Backend where
  | threads
  | cooperative
  deriving DecidableEq, Repr

namespace Backend

def name : Backend → Bytes
  | threads => ascii "threads"
  | cooperative => ascii "cooperative"

/-- How many steps a run may take.  A run that takes more is left and fails, while the program
itself would go on with it. -/
def patience : Nat := 1000000

/-- A supervisor of the kind, for children that a launcher launches. -/
def supervision (launcher : Launcher) : Backend → Supervision Supervisor
  | threads => {
      add := Supervisor.add launcher
      runUntilComplete := Supervisor.toItsEnd (Supervisor.runUntilComplete patience)
      stopAll := Supervisor.stopAll }
  | cooperative => {
      add := Cooperative.add launcher
      runUntilComplete := Supervisor.toItsEnd (Cooperative.runUntilComplete patience)
      stopAll := Cooperative.stopAll }

end Backend

/-- The commands of the tool server and its inspector. -/
structure Tools where
  serverCommand : List Bytes
  inspectorCommand : List Bytes
  deriving DecidableEq, Repr

namespace Tools

def ofSettings (settings : Settings) : Tools :=
  ⟨settings .serverCommand, settings .inspectorCommand⟩

/-- How long a task that was asked to end is waited for, in milliseconds. -/
def grace (settings : Settings) : Nat :=
  let seconds : Int := settings .stopGrace
  (seconds * 1000).toNat

def serverName : Bytes := ascii "mcp_server"
def inspectorName : Bytes := ascii "inspector"

/-- The command of the server for a directory: the current one if there is no other. -/
def serverWords (tools : Tools) (host : Host) (directory : Bytes) : List Bytes :=
  tools.serverCommand ++
    [if directory.isEmpty || !host.pathExists directory then host.directoryPath else directory]

def inspectorWords (tools : Tools) (inspectorPort : Int) : List Bytes :=
  tools.inspectorCommand ++ [ofInt inspectorPort]

variable {σ : Type}

/-- Start the tasks and wait for them. -/
def runTasks (supervision : Supervision σ) (tools : Tools) (directory : Bytes) (inspectorPort : Int)
    (quiet : Bool) : Supervised σ Unit := do
  supervision.add serverName (tools.serverWords (← getThe Host) directory) ∅
  if !quiet then supervision.add inspectorName (tools.inspectorWords inspectorPort) ∅
  supervision.runUntilComplete

/-- Run the tools until they are done, something fails or a shutdown is requested, and
stop all tasks then. -/
def start (supervision : Supervision σ) (tools : Tools) (directory : Bytes) (inspectorPort : Int)
    (quiet : Bool) : Supervised σ Unit := do
  Log.debug (ascii "[supervisor] Starting tool server and inspector tasks...")
  match ← ExceptT.lift (runTasks supervision tools directory inspectorPort quiet).run with
  | .error text =>
      Log.error (ascii "[supervisor] " ++ text)
      supervision.stopAll true
      throw text
  | .ok () =>
      let host ← getThe Host
      if host.shutdownRequested then
        Log.info (ascii "[supervisor] Received signal " ++ ofInt host.shutdown ++
          ascii ", gracefully shutting down...")
      supervision.stopAll true

end Tools

end Assay.Supervise
