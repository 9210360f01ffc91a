/-
# Assay.Container.Client -- one container, by way of the runtime's command line

A `Client` starts a container or is bound to one that runs already, executes
commands in it, and releases it once.  A client is a value: what changes it
answers with the changed client.
-/
import Assay.Container.Config
import Assay.Exec.Outcome
import Assay.Programs

namespace Assay.Container

set_option autoImplicit false

open Bytes Shell
open Exec (Outcome)

/-- What a client has to do with a container. -/
inductive State where
  /-- It has none. -/
  | unbound
  /-- It has started one. -/
  | started
  /-- It was given one that runs already. -/
  | bound
  /-- It has let go of it. -/
  | released
  deriving DecidableEq, Repr

namespace State

def name : State → Bytes
  | unbound => ascii "unbound"
  | started => ascii "started"
  | bound => ascii "bound"
  | released => ascii "released"

def all : List State :=
  [unbound, started, bound, released]

/-- Whether commands can be executed. -/
def isReady : State → Bool
  | started => true
  | bound => true
  | _ => false

end State

/-- Why there is no container. -/
inductive ContainerError where
  /-- The runtime could not be invoked to start it. -/
  | notInvoked (name reason : Bytes)
  | startTimedOut (name : Bytes) (seconds : Int)
  /-- The runtime refused to start it. -/
  | startFailed (name : Bytes) (code : Int) (detail : Bytes)
  /-- None of that name is listed. -/
  | unmatched (name : Bytes) (namespaces : List Bytes)
  /-- The host is not a member of a group of containers. -/
  | podUnknown
  | namespacesMissing
  /-- It was looked for in vain. -/
  | notFound
  deriving DecidableEq, Repr

def ContainerError.message (fault : ContainerError) : Bytes :=
  untilZero <| match fault with
    | notInvoked name reason => ascii "failed to start container " ++ name ++ ascii ": " ++ reason
    | startTimedOut name seconds =>
        ascii "starting container " ++ name ++ ascii " timed out after " ++ ofInt seconds ++
          ascii " seconds"
    | startFailed name code detail =>
        ascii "failed to start container " ++ name ++ ascii " (exit " ++ ofInt code ++ ascii "): " ++
          detail
    | unmatched name namespaces =>
        ascii "no container matched '" ++ name ++ ascii "' in namespaces [" ++
          join namespaces (ascii ", ") ++ ascii "]"
    | podUnknown => ascii "env POD_NAME or env POD_NAMESPACE not set"
    | namespacesMissing => ascii "container namespace not set"
    | notFound => ascii "Failed to find target container"

/-- A command was to be executed, but no container is started or bound. -/
structure NotReady where
  deriving DecidableEq, Repr

def NotReady.message (_ : NotReady) : Bytes :=
  ascii "Container not started"

/-! ## The runtime -/

/-- Where the runtime is looked for. -/
def runtimePath (host : Host) : Bytes :=
  let path := host.getVariable Environment.pathName
  if path.isEmpty then Environment.securePath else path

/-- Invoke the runtime and wait for it; answers why it could not be invoked, or its run. -/
def invoke (programs : Programs) (words : List Bytes) (limit : Int) :
    Act (Except Bytes ChildRun) := do
  let host ← get
  let name := words.headD []
  match host.findProgram (runtimePath host) name with
  | none => return .error (untilZero (ascii "No such file or directory: '" ++ name ++ ascii "'"))
  | some program =>
      launch programs
        { program
          arguments := words.tail
          environ := host.environ
          directory := host.directoryPath
          input := [] }
        (some limit)

/-! ## Clients -/

/-- One container, or the means to start one. -/
structure Client where
  config : Config
  state : State

namespace Client

/-- A client that is bound if its configuration names a container. -/
def new (config : Config) : Client :=
  ⟨config, if config.identifier.isEmpty then .unbound else .bound⟩

/-- What a runtime that did not start a container has to say about it. -/
def startDetail (run : ChildRun) : Bytes :=
  let complaint := run.on .errors
  trim (if complaint.isEmpty then run.on .output else complaint)

/-- Start a container; the client is as before when that fails. -/
def start (programs : Programs) (client : Client) : Act (Except ContainerError Client) := do
  let name := ascii "evalbox-" ++ (← randomHex 8)
  let words := client.config.startWords name
  Log.debug (ascii "[container] Starting container with command: " ++ quoteWords words)
  match ← invoke programs words client.config.startTimeout with
  | .error reason => return .error (.notInvoked name reason)
  | .ok run =>
      match run.ending with
      | .outlived => return .error (.startTimedOut name client.config.startTimeout)
      | .reaped status =>
          let code := exitCode status
          if code ≠ 0 then return .error (.startFailed name code (startDetail run))
          let identifier := trim (run.on .output)
          Log.info (ascii "[container] Started container " ++ name ++ ascii " with ID " ++ identifier)
          return .ok ⟨{ client.config with identifier }, .started⟩

/-- The mark of a command that was not run to its end. -/
def dispatchMark : Bytes := ascii "run err:"

/-- What a command in the container came to.  Both its streams are its output. -/
def commandOutcome (command : Bytes) (limit : Int) : Except Bytes ChildRun → Outcome
  | .error reason => .failure (dispatchMark ++ reason)
  | .ok run =>
      match run.ending with
      | .outlived =>
          .failure (dispatchMark ++ ascii "Command '" ++ command ++ ascii "' timed out after " ++
            ofInt limit ++ ascii " seconds")
      | .reaped status => ⟨exitCode status, run.merged, []⟩

/-- Execute a command in the container, in its usual directory unless another is given. -/
def execute (programs : Programs) (client : Client) (command directory : Bytes)
    (timeout : Option Int) : Act (Except NotReady Outcome) := do
  if !client.state.isReady then return .error {}
  let directory := if directory.isEmpty then client.config.directory else directory
  let words := client.config.commandWords (← get) command directory
  let limit := timeout.getD client.config.timeout
  Log.info (ascii "[container] Executing command: " ++ quoteWords words)
  return .ok (commandOutcome command limit (← invoke programs words limit))

/-- The shell that releases containers. -/
def shellProgram : Bytes := ascii "/bin/sh"

/-- Let go of the container, if there is one and it was not let go of before.  The
runtime is left to it in the background. -/
def release (programs : Programs) (client : Client) : Act Client := do
  if client.state = .released ∨ client.config.identifier = [] then return client
  let host ← get
  let run ← launch programs
    { program := shellProgram
      arguments := [ascii "-c", client.config.releaseLine]
      environ := host.environ
      directory := host.directoryPath
      input := [] }
    none
  match run with
  | .ok _ => Log.info (ascii "[container] Released container " ++ client.config.identifier)
  | .error reason =>
      Log.warn (ascii "[container] Release of " ++ client.config.identifier ++ ascii " failed: " ++ reason)
  return { client with state := .released }

/-- Start a container for a limited scope: should that fail, what the client has is
released before the error is answered. -/
def startScoped (programs : Programs) (config : Config) : Act (Except ContainerError Client) := do
  let client := new config
  match ← client.start programs with
  | .ok client => return .ok client
  | .error cause =>
      let _ ← client.release programs
      return .error cause

/-- Do something with a new container, and release it whatever comes of that. -/
def withScoped {α : Type} (programs : Programs) (config : Config) (body : Client → Act α) :
    Act (Except ContainerError α) := do
  match ← startScoped programs config with
  | .error cause => return .error cause
  | .ok client =>
      let result ← body client
      let _ ← client.release programs
      return .ok result

/-- What a client stands for, as values for a template. -/
def templateValues (client : Client) : Json :=
  let config := client.config
  .record [
    ("image", .string config.image),
    ("cwd", .string config.directory),
    ("env", .object (config.environment.toList.map fun entry => (entry.1, .string entry.2))),
    ("forward_env", .ofStrings config.forwarded),
    ("timeout", .int config.timeout),
    ("executable", .string config.executable),
    ("run_args", .ofStrings config.runArguments),
    ("container_timeout", .string config.lifetime),
    ("pull_timeout", .int config.startTimeout),
    ("namespace", .string config.namespaceName),
    ("container_id", .string config.identifier),
    ("state", .string client.state.name)]

end Client

end Assay.Container
