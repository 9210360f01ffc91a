/-
# Assay.Supervise.Supervisor -- named children that run for long

A `Supervisor` knows its children as tasks under names.  A task is replaced when its
name is given again; the child it had is then left alone.  Output is read, once for
each child, by readers of their own.  `runUntilComplete` waits until no task runs or
it is interrupted; it is made of small steps, between which others may interrupt it.
-/
import Assay.Supervise.Child

namespace Assay.Supervise

set_option autoImplicit false

open Bytes

/-- A child under a name. -/
structure Task where
  /-- The number of the child. -/
  child : Nat
  /-- Whether its output is read. -/
  monitored : Bool
  deriving DecidableEq, Repr

/-- A child with all that it was asked, the latest call in front. -/
structure Watched where
  child : Child
  calls : List Asked

/-- Reads a stream of a child line by line. -/
structure Reader where
  task : Bytes
  /-- The number of the child. -/
  child : Nat
  stream : Stream
  deriving DecidableEq, Repr

/-- Named children that run for long. -/
structure Supervisor where
  /-- How long one waits for a child that was asked to end, in milliseconds. -/
  grace : Nat
  /-- The pause between two looks at the tasks, in milliseconds. -/
  pause : Nat
  tasks : KeyMap Task
  /-- Every child that was launched, by its number. -/
  children : List Watched
  /-- Every reader that was started, in order. -/
  readers : List Reader
  /-- Whether an interrupt is pending. -/
  interrupted : Bool
  /-- Milliseconds since the start. -/
  clock : Nat

/-- What is known of a task. -/
structure TaskStatus where
  pid : Int
  /-- None while it runs. -/
  exitCode : Option Int
  hasOutput : Bool
  hasErrors : Bool
  deriving DecidableEq, Repr

def TaskStatus.running (status : TaskStatus) : Bool :=
  status.exitCode.isNone

/-- Log what a reader reads: each line that is not empty, without the blanks around it. -/
def Reader.run (reader : Reader) (feed : Feed) : Act Unit := do
  logLines feed.lines
  match feed.failure with
  | none => pure ()
  | some text => Log.warn (ascii "[supervisor] Reader for " ++ reader.task ++ ascii " stopped: " ++ text)
where
  logLines : List Bytes → Act Unit
    | [] => return
    | line :: rest => do
        if !line.isEmpty then Log.info (ascii "[" ++ reader.task ++ ascii "] " ++ trim line)
        logLines rest

namespace Supervisor

def new (grace pause : Nat) : Supervisor :=
  ⟨grace, pause, ∅, [], [], false, 0⟩

/-- The grace and the pause when nothing else is asked for, in milliseconds. -/
def usualGrace : Nat := 5000
def usualPause : Nat := 1000

def size (supervisor : Supervisor) : Nat :=
  supervisor.tasks.size

/-- Let time pass. -/
def passTime (time : Nat) : Supervised Supervisor Unit :=
  modifyThe Supervisor fun supervisor => { supervisor with clock := supervisor.clock + time }

/-- Ask a child.  Waiting in vain takes all the time that was allowed. -/
def ask (number : Nat) (call : Call) : Supervised Supervisor (Option Int) := do
  let supervisor ← getThe Supervisor
  match supervisor.children[number]? with
  | none => return none
  | some watched =>
      let calls := ⟨supervisor.clock, call⟩ :: watched.calls
      let children := supervisor.children.set number { watched with calls }
      modifyThe Supervisor fun supervisor => { supervisor with children }
      match watched.child.reply calls with
      | .error text => throw text
      | .ok code =>
          match call, code with
          | .await limit, none => passTime limit
          | _, _ => pure ()
          return code

/-! ## Tasks -/

/-- Let a task have a child that was launched. -/
def register (name : Bytes) (child : Child) : Supervised Supervisor Unit :=
  modifyThe Supervisor fun supervisor => { supervisor with
    tasks := supervisor.tasks.insert name ⟨supervisor.children.length, false⟩
    children := supervisor.children ++ [⟨child, []⟩] }

/-- Start a task. -/
def add (launcher : Launcher) (name : Bytes) (command : List Bytes) (environment : Environment) :
    Supervised Supervisor Unit := do
  let supervisor ← getThe Supervisor
  if supervisor.tasks.contains name then
    Log.warn (ascii "[supervisor] Task " ++ name ++ ascii " already exists, will replace")
  Log.info (ascii "[supervisor] Starting task: " ++ name ++ ascii " - " ++ join command [space])
  match ← (launcher supervisor.clock command environment : Act _) with
  | .error text => throw text
  | .ok child => register name child

/-- What is known of a task whose child has this number. -/
def look (number : Nat) : Supervised Supervisor TaskStatus := do
  let exitCode ← ask number .poll
  let child? := ((← getThe Supervisor).children[number]?).map (·.child)
  return {
    pid := (child?.map (·.pid)).getD (-1)
    exitCode
    hasOutput := (child?.bind (·.output)).isSome
    hasErrors := (child?.bind (·.errors)).isSome }

def lookAtAll : List (Bytes × Task) → Supervised Supervisor (List (Bytes × TaskStatus))
  | [] => return []
  | (name, task) :: rest => do
      let status ← look task.child
      return (name, status) :: (← lookAtAll rest)

/-- What is known of all tasks, in the order of their names. -/
def status : Supervised Supervisor (List (Bytes × TaskStatus)) := do
  lookAtAll (← getThe Supervisor).tasks.toList

def isRunning (name : Bytes) : Supervised Supervisor Bool := do
  match (← getThe Supervisor).tasks.get? name with
  | none => return false
  | some task => return (← ask task.child .poll).isNone

/-! ## Stopping -/

/-- End the child of a task: it is asked to end, or killed at once when `force` is set,
and killed if it is still there after the grace.  Answers whether it has exited. -/
def endChild (name : Bytes) (child : Nat) (force : Bool) : Supervised Supervisor Bool := do
  let _ ← ask child (if force then .kill else .terminate)
  let grace := (← getThe Supervisor).grace
  if (← ask child (.await grace)).isNone then
    Log.warn (ascii "[supervisor] Task " ++ name ++ ascii " ignored the stop request, killing")
    let _ ← ask child .kill
    if (← ask child (.await grace)).isNone then
      Log.error (ascii "[supervisor] Task " ++ name ++ ascii " is still running after kill")
      return false
  Log.info (ascii "[supervisor] Task " ++ name ++ ascii " stopped")
  return true

/-- End the child of a task unless it has exited; answers whether it has exited then. -/
def halt (name : Bytes) (child : Nat) (force : Bool) : Supervised Supervisor Bool := do
  if (← ask child .poll).isSome then
    Log.info (ascii "[supervisor] Task " ++ name ++ ascii " already stopped")
    return true
  endChild name child force

/-- Stop a task; answers whether it has exited.  A failure is logged. -/
def stop (name : Bytes) (force : Bool) : Supervised Supervisor Bool := do
  match (← getThe Supervisor).tasks.get? name with
  | none =>
      Log.warn (ascii "[supervisor] Task " ++ name ++ ascii " does not exist")
      return false
  | some task =>
      match ← ExceptT.lift (halt name task.child force).run with
      | .ok stopped => return stopped
      | .error text =>
          Log.error (ascii "[supervisor] Failed to stop task " ++ name ++ ascii ": " ++ text)
          return false

def stopEach (force : Bool) : List Bytes → Supervised Supervisor Unit
  | [] => return
  | name :: rest => do
      let _ ← stop name force
      stopEach force rest

/-- Stop every task, also when some cannot be stopped. -/
def stopAll (force : Bool) : Supervised Supervisor Unit := do
  Log.info (ascii "[supervisor] Stopping all tasks...")
  stopEach force (← getThe Supervisor).tasks.keys

/-! ## Reading -/

/-- The readers of a task, for the streams that its child has. -/
def readersOf (supervisor : Supervisor) (name : Bytes) (task : Task) : List Reader :=
  [Stream.output, Stream.errors].filterMap fun stream =>
    ((supervisor.children[task.child]?).bind fun watched => watched.child.feed? stream).map
      fun _ => ⟨name, task.child, stream⟩

/-- Start the readers of all tasks that are not read yet. -/
def monitor : Supervised Supervisor Unit :=
  modifyThe Supervisor fun supervisor =>
    let unread := supervisor.tasks.toList.filter fun entry => !entry.2.monitored
    { supervisor with
      readers := supervisor.readers ++ unread.flatMap fun entry => supervisor.readersOf entry.1 entry.2
      tasks := unread.foldl (fun tasks entry => tasks.insert entry.1 { entry.2 with monitored := true })
        supervisor.tasks }

/-- Log what one of the readers reads. -/
def read (supervisor : Supervisor) (reader : Reader) : Act Unit :=
  match (supervisor.children[reader.child]?).bind fun watched => watched.child.feed? reader.stream with
  | none => return
  | some feed => reader.run feed

/-! ## Running -/

/-- Whether a task runs; the tasks are polled in order until one does. -/
def anyRunning : List (Bytes × Task) → Supervised Supervisor Bool
  | [] => return false
  | (_, task) :: rest => do
      if (← ask task.child .poll).isNone then return true
      anyRunning rest

/-- Whether a run has to end. -/
def mustEnd : Supervised Supervisor Bool := do
  if (← getThe Supervisor).interrupted then return true
  return (← getThe Host).shutdownRequested

/-- Have the current run end, or the next one. -/
def interrupt : Supervised Supervisor Unit :=
  modifyThe Supervisor fun supervisor => { supervisor with interrupted := true }

/-- How far a run has come. -/
inductive Stage where
  | starting
  /-- About to look whether it has to end. -/
  | checking
  | polling
  | pausing
  /-- About to say why it ends. -/
  | reporting
  /-- About to take back the interrupt that ended it. -/
  | clearing
  | finished
  deriving DecidableEq, Repr

/-- One step of a run. -/
def advance : Stage → Supervised Supervisor Stage
  | .starting => do
      if (← getThe Supervisor).size = 0 then
        Log.warn (ascii "[supervisor] No tasks to start")
        return .finished
      Log.info (ascii "[supervisor] Starting task supervisor...")
      monitor
      return .checking
  | .checking => return if ← mustEnd then .reporting else .polling
  | .polling => do
      return if ← anyRunning (← getThe Supervisor).tasks.toList then .pausing else .reporting
  | .pausing => do
      passTime (← getThe Supervisor).pause
      return .checking
  | .reporting => do
      if ← mustEnd then Log.info (ascii "[supervisor] Received interrupt signal")
      return .clearing
  | .clearing => do
      modifyThe Supervisor fun supervisor => { supervisor with interrupted := false }
      return .finished
  | .finished => return .finished

/-- At most so many steps of a run; answers how far it came. -/
def runFrom : Nat → Stage → Supervised Supervisor Stage
  | _, .finished => return .finished
  | 0, stage => return stage
  | steps + 1, stage => do runFrom steps (← advance stage)

/-- Wait until no task runs or an interrupt or a shutdown is pending, but for at most so
many steps; answers whether it came to its end. -/
def runUntilComplete (steps : Nat) : Supervised Supervisor Bool := do
  return (← runFrom steps .starting) == .finished

/-- What a run fails with that is left before its end. -/
def unfinished : Bytes := ascii "the run has not come to its end"

/-- A run that has to come to its end. -/
def toItsEnd (run : Supervised Supervisor Bool) : Supervised Supervisor Unit := do
  if !(← run) then throw unfinished

end Supervisor

end Assay.Supervise
