/-
# Assay.Supervise.Cooperative -- supervision on a single thread

The tasks are those of a `Supervisor`, but all that happens to them happens on the
thread that asks.  What cannot be launched is refused before anything is said about
it, and a run that is interrupted stops its tasks.
-/
import Assay.Supervise.Process
import Assay.Supervise.Supervisor

namespace Assay.Supervise.Cooperative

set_option autoImplicit false

open Bytes
open Supervisor (ask endChild register)

/-- Start a task. -/
def add (launcher : Launcher) (name : Bytes) (command : List Bytes) (environment : Environment) :
    Supervised Supervisor Unit := do
  if command.isEmpty then throw (ascii "empty command for task " ++ name)
  match resolveCommand (← getThe Host) environment command with
  | .error cause => throw cause.message
  | .ok _ => pure ()
  let supervisor ← getThe Supervisor
  if supervisor.tasks.contains name then
    Log.warn (ascii "[supervisor] Task " ++ name ++ ascii " already exists, will replace")
  Log.info (ascii "[supervisor] Starting asynchronous task: " ++ name ++ ascii " - " ++
    join command [space])
  match ← (launcher supervisor.clock command environment : Act _) with
  | .error text => throw text
  | .ok child => register name child

/-- End the child of a task unless it has exited; answers whether it has exited then. -/
def halt (name : Bytes) (child : Nat) (force : Bool) : Supervised Supervisor Bool := do
  if (← ask child .poll).isSome then
    Log.info (ascii "[supervisor] Task " ++ name ++ ascii " already stopped")
    return true
  Log.info (ascii "[supervisor] Stopping asynchronous task: " ++ name)
  endChild name child force

/-- Stop a task; answers whether it has exited.  A failure is logged. -/
def stop (name : Bytes) (force : Bool) : Supervised Supervisor Bool := do
  match (← getThe Supervisor).tasks.get? name with
  | none =>
      Log.warn (ascii "[supervisor] Task " ++ name ++ ascii " does not exist")
      return false
  | some task =>
      match ← ExceptT.lift (halt name task.child force).run with
      | .ok stopped => return stopped
      | .error text =>
          Log.error (ascii "[supervisor] Failed to stop task " ++ name ++ ascii ": " ++ text)
          return false

def stopEach (force : Bool) : List Bytes → Supervised Supervisor Unit
  | [] => return
  | name :: rest => do
      let _ ← stop name force
      stopEach force rest

/-- Stop every task, also when some cannot be stopped. -/
def stopAll (force : Bool) : Supervised Supervisor Unit := do
  Log.info (ascii "[supervisor] Stopping all asynchronous tasks...")
  stopEach force (← getThe Supervisor).tasks.keys

/-- Look at the tasks until none runs or the run has to end, but at most so often;
answers whether it came to its end. -/
def waitForTasks : Nat → Supervised Supervisor Bool
  | 0 => return false
  | looks + 1 => do
      if ← Supervisor.mustEnd then return true
      let supervisor ← getThe Supervisor
      if !(← Supervisor.anyRunning supervisor.tasks.toList) then return true
      Supervisor.passTime supervisor.pause
      waitForTasks looks

/-- Wait until no task runs or an interrupt or a shutdown is pending, which stops all
tasks, but look at the tasks at most so often; answers whether it came to its end. -/
def runUntilComplete (looks : Nat) : Supervised Supervisor Bool := do
  if (← getThe Supervisor).size = 0 then
    Log.warn (ascii "[supervisor] No asynchronous tasks to start")
    return true
  Log.info (ascii "[supervisor] Starting asynchronous task supervisor...")
  Supervisor.monitor
  let finished ← waitForTasks looks
  if ← Supervisor.mustEnd then
    Log.info (ascii "[supervisor] Received interrupt signal")
    stopAll true
  modifyThe Supervisor fun supervisor => { supervisor with interrupted := false }
  return finished

end Assay.Supervise.Cooperative
