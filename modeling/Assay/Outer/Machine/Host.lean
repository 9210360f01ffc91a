/-
# Assay.Outer.Machine.Host -- a machine that programs run on

`programs` is what launched programs do on a plain machine: a standard shell, a
few small programs beside it, and the scripts among the files.  Time on the
machine is its own, so that waiting for a program takes no real time.
-/
import Assay.Outer.Machine.Interpreter
import Assay.Supervise.Process

namespace Assay.Outer.Machine

set_option autoImplicit false

open Bytes

/-- The programs of a plain machine. -/
def programNames : List Bytes :=
  [ascii "[", ascii "bash", ascii "cat", ascii "dash", ascii "echo", ascii "env", ascii "false",
    ascii "ln", ascii "mv", ascii "printf", ascii "pwd", ascii "rm", ascii "sh", ascii "sleep",
    ascii "test", ascii "timeout", ascii "true"]

/-- The directories of a plain machine. -/
def directoryNames : List Bytes :=
  [ascii "/bin", ascii "/dev", ascii "/dev/shm", ascii "/etc", ascii "/home", ascii "/opt",
    ascii "/root", ascii "/sbin", ascii "/tmp", ascii "/usr", ascii "/usr/bin",
    ascii "/usr/local", ascii "/usr/local/bin", ascii "/usr/sbin", ascii "/var"]

/-- The files of a plain machine. -/
def plainFiles : FileTree :=
  let directories := directoryNames.map fun location => (location, Node.directory)
  let programs := [ascii "/bin", ascii "/usr/bin"].flatMap fun directory =>
    programNames.map fun name => (FileTree.child directory name, Node.program name)
  let device := (ascii "/dev/null", Node.nullDevice)
  putFull { FileTree.bare false with nodes := KeyMap.ofList (device :: directories ++ programs) }
    fullDevice

/-- What a program did until it ended or its deadline came. -/
structure Outcome where
  written : List (Stream × Bytes)
  /-- The status as the host reports it; none when the program is still there. -/
  status : Option Nat
  /-- Whether the program, when it is still there, does not end on a request. -/
  stubborn : Bool
  /-- Milliseconds since the launch. -/
  clock : Nat
  files : FileTree

/-- The number of the first process of a machine. -/
def firstPid : Nat := 1000

/-- The state in which a launched program begins. -/
def begin (files : FileTree) (directory : Bytes) (request : Launch) (deadline : Option Nat) : State where
  world := {
    files
    clock := 0
    deadline
    channels := #[.source request.input, .captured .output, .captured .errors]
    captured := []
    lastPid := firstPid }
  process := {
    name := request.program
    arguments := request.arguments
    bindings := KeyMap.ofList (request.environ.filterMap fun entry =>
      (cut? [equals] entry).map fun found => (found.1, ⟨found.2, true⟩))
    functions := []
    directory
    descriptors := [(0, 0), (1, 1), (2, 2)]
    status := 0
    outputStatus := 0
    pid := firstPid
    stopsOnFailure := false
    ignored := []
    handlers := []
    faulty := false
    flavour := .plain }

/-- Run a launched program until it ends or its deadline comes. -/
def execute (files : FileTree) (directory : Bytes) (request : Launch) (deadline : Option Nat) :
    Outcome :=
  let (flow, state) := (runImage depthBound request.program request.arguments).run
    (begin files directory request deadline)
  { written := state.world.captured.reverse
    status := match flow with
      | .late => none
      | .killed signal => some signal
      | _ => some (state.process.status % 256 * 256)
    stubborn := state.process.ignored.elem signalTerminate ||
      state.process.handlers.any fun entry => entry.1 == signalTerminate
    clock := state.world.clock
    files := state.world.files }

/-- The location of the directory in which a program starts, or why it cannot be
launched: there is no such directory, or the file cannot be run from there. -/
def startingPlace (host : Host) (request : Launch) : Except FileError Bytes := do
  let location ← host.files.resolve host.directory request.directory
  if host.files.node? location != some .directory then .error .notDirectory
  else
    let _ ← host.files.look location request.program
    if host.files.isExecutable location request.program then .ok location else .error .denied

/-- What launched programs do on the machine. -/
def programs : Programs := fun host request limit =>
  match startingPlace host request with
  | .error reason => (.error reason.message, host.files)
  | .ok directory =>
      if limit.any (· ≤ 0) then (.ok ⟨[], [], .outlived, 0⟩, host.files)
      else
        let outcome := execute host.files directory request (limit.map (·.toNat * 1000))
        let ending := match outcome.status with
          | some status => Ending.reaped status
          | none => Ending.outlived
        (.ok ⟨outcome.written, [], ending, Float.ofNat outcome.clock / 1000⟩, outcome.files)

/-- How long a program that was left alone is looked at, in milliseconds.  One that is
there for longer counts as one that never ends by itself. -/
def horizon : Nat := 10000

/-- What programs do on the machine that are started and left alone. -/
def spawner : Supervise.Spawner := fun host request =>
  match startingPlace host request with
  | .error reason => (.error reason.message, host.files)
  | .ok directory =>
      let outcome := execute host.files directory request (some horizon)
      let on := fun stream => (outcome.written.filter fun piece => piece.1 == stream).flatMap (·.2)
      (.ok {
        ends := outcome.status.map fun status => (outcome.clock, (status : Int))
        stubborn := outcome.stubborn
        output := on .output
        errors := on .errors }, outcome.files)

end Assay.Outer.Machine
