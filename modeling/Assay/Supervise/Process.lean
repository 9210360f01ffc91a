/-
# Assay.Supervise.Process -- processes as children

The number of a process may be given to another one as soon as its status has been
taken.  A `Handle` therefore takes the status once, keeps the exit code, and sends
no signal after that.
-/
import Assay.Supervise.Child

namespace Assay.Supervise

set_option autoImplicit false

open Bytes

/-- A signal at a time, in milliseconds. -/
structure Sent where
  time : Nat
  signal : Int
  deriving DecidableEq, Repr

/-- A process as the host shows it. -/
structure Process where
  pid : Int
  /-- The status that it ended with, if it has ended by a time, given the signals that
  were sent to it, the latest one in front. -/
  status? : Nat → List Sent → Option Int
  /-- Why a signal cannot be sent to it, if the host refuses that. -/
  refuses? : Sent → Option Bytes

/-- What is done to a process. -/
inductive Deed where
  /-- Its status is taken. -/
  | reaped (status : Int)
  | signalled (sent : Sent)
  /-- A signal was to be sent, and the host refused that. -/
  | refused (sent : Sent)
  deriving DecidableEq, Repr

/-- What one has of a process that one started. -/
structure Handle where
  process : Process
  /-- The exit code, once the status has been taken. -/
  exitCode : Option Int
  /-- What was done to the process, the latest deed in front. -/
  deeds : List Deed

def terminateSignal : Int := 15
def killSignal : Int := 9

namespace Handle

def new (process : Process) : Handle :=
  ⟨process, none, []⟩

/-- The signals that were sent. -/
def sent (handle : Handle) : List Sent :=
  handle.deeds.filterMap fun
    | .signalled sent => some sent
    | _ => none

/-- Take the status if the process has ended by a time. -/
def look (handle : Handle) (time : Nat) : Handle :=
  match handle.process.status? time handle.sent with
  | none => handle
  | some status =>
      { handle with exitCode := some (Assay.exitCode status), deeds := .reaped status :: handle.deeds }

/-- Take the status if that was not done before. -/
def reap (handle : Handle) (time : Nat) : Handle :=
  if handle.exitCode.isSome then handle else handle.look time

/-- How long it takes from one look to the next, in milliseconds. -/
def lookPause : Nat := 20

/-- Look until the status is taken, and for the last time after so many pauses. -/
def lookOn (handle : Handle) (time : Nat) : Nat → Handle
  | 0 => handle.look time
  | pauses + 1 =>
      let looked := handle.look time
      if looked.exitCode.isSome then looked else looked.lookOn (time + lookPause) pauses

/-- How many pauses there are until so much time has passed, in milliseconds. -/
def pausesFor (limit : Nat) : Nat :=
  (limit + lookPause - 1) / lookPause

/-- Wait for the status, unless it was taken before. -/
def await (handle : Handle) (time limit : Nat) : Handle :=
  if handle.exitCode.isSome then handle else handle.lookOn time (pausesFor limit)

def refusalText (pid : Int) (reason : Bytes) : Bytes :=
  ascii "kill(" ++ ofInt pid ++ ascii ") failed: " ++ reason

/-- Send a signal, unless the process has ended; answers why that could not be done. -/
def signal (handle : Handle) (sent : Sent) : Handle × Option Bytes :=
  let handle := handle.reap sent.time
  if handle.exitCode.isSome then (handle, none)
  else
    match handle.process.refuses? sent with
    | none => ({ handle with deeds := .signalled sent :: handle.deeds }, none)
    | some reason =>
        ({ handle with deeds := .refused sent :: handle.deeds },
          some (refusalText handle.process.pid reason))

/-- Do what is asked; answers what went wrong, if anything did. -/
def heed (handle : Handle) (asked : Asked) : Handle × Option Bytes :=
  match asked.call with
  | .poll => (handle.reap asked.time, none)
  | .await limit => (handle.await asked.time limit, none)
  | .terminate => handle.signal ⟨asked.time, terminateSignal⟩
  | .kill => handle.signal ⟨asked.time, killSignal⟩

/-- The handle after what is asked. -/
def answer (handle : Handle) (asked : Asked) : Handle :=
  (handle.heed asked).1

/-- Do all that is asked, in order. -/
def answerAll (handle : Handle) (calls : List Asked) : Handle :=
  calls.foldl answer handle

/-- The answer to what is asked: the exit code once it is known, or what went wrong. -/
def reply (handle : Handle) (asked : Asked) : Except Bytes (Option Int) :=
  match (handle.heed asked).2 with
  | none => .ok (handle.answer asked).exitCode
  | some reason => .error reason

end Handle

/-- A process as a child. -/
def Child.ofProcess (process : Process) (output errors : Bytes) : Child where
  pid := process.pid
  output := some ⟨output, none⟩
  errors := some ⟨errors, none⟩
  reply
    | [] => .ok none
    | asked :: earlier => ((Handle.new process).answerAll earlier.reverse).reply asked

/-! ## Starting processes -/

/-- What a program that is started and left alone does. -/
structure Spawned where
  /-- How many milliseconds after the start it ends by itself, and its status. -/
  ends : Option (Nat × Int)
  /-- Whether it goes on when it is asked to end. -/
  stubborn : Bool
  output : Bytes
  errors : Bytes
  deriving DecidableEq, Repr

/-- What programs do that are started and left alone: the reason why one could not be
started, or what it does; and the files after it. -/
abbrev Spawner := Host → Launch → Except Bytes Spawned × FileTree

namespace Spawned

/-- How long it takes until a program runs, in milliseconds. -/
def startup : Nat := 20

/-- Whether a signal ends it. -/
def endsBy (spawned : Spawned) (sent : Sent) : Bool :=
  sent.signal == killSignal || !spawned.stubborn

/-- Its status at a time, when it was started at `start`: the first thing that ended it. -/
def status? (spawned : Spawned) (start time : Nat) (signals : List Sent) : Option Int :=
  let natural := (spawned.ends.map fun ending => (start + startup + ending.1, ending.2)).filter
    fun ending => ending.1 ≤ time
  match natural, signals.reverse.find? spawned.endsBy with
  | some (due, status), some sent => some (if due ≤ sent.time then status else sent.signal)
  | some (_, status), none => some status
  | none, some sent => some sent.signal
  | none, none => none

end Spawned

/-- Why a child could not be launched. -/
inductive LaunchError where
  | emptyCommand
  | programMissing (name : Bytes)
  /-- The host refused to start it. -/
  | refused (reason : Bytes)
  deriving DecidableEq, Repr

def LaunchError.message (fault : LaunchError) : Bytes :=
  untilZero <| match fault with
    | emptyCommand => ascii "empty command"
    | programMissing name => ascii "executable not found: " ++ name
    | refused reason => reason

/-- The program that a command names, with its arguments and its environment.  The
program is looked for where the child itself would look. -/
def resolveCommand (host : Host) (overlay : Environment) :
    List Bytes → Except LaunchError Launch
  | [] => .error .emptyCommand
  | name :: arguments =>
      let environment := Environment.build host.environ [some overlay] false
      match host.findProgram environment.searchPath name with
      | none => .error (.programMissing name)
      | some program =>
          .ok {
            program
            arguments
            environ := environment.toEntries
            directory := host.directoryPath
            input := [] }

/-- The number of the first process. -/
def firstPid : Int := 1000

/-- Launches children as processes of the host. -/
def Launcher.ofSpawner (spawner : Spawner) : Launcher := fun clock command overlay => do
  let host ← get
  match resolveCommand host overlay command with
  | .error cause => return .error cause.message
  | .ok request =>
      let (spawned, files) := spawner host request
      set { host with files, launches := request :: host.launches }
      match spawned with
      | .error reason => return .error (LaunchError.refused reason).message
      | .ok spawned =>
          let process : Process := {
            pid := firstPid + host.launches.length
            status? := spawned.status? clock
            refuses? := fun _ => none }
          return .ok (.ofProcess process spawned.output spawned.errors)

end Assay.Supervise
