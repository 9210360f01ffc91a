/-
# Assay.Cli.Commands -- the commands of the program

`evaluate` tries the patch of a job on the host or in a container, `reward` has a
patch evaluated for an instance of a dataset, and `serve` runs the tools.  Each
answers with an exit code.  What is printed goes to the output stream, complaints
go to the error stream.  Without settings a command does nothing and is aborted.
-/
import Assay.Cli.Options
import Assay.Container.Discovery
import Assay.Evaluation.Reward
import Assay.Evaluation.Trial

namespace Assay.Cli

set_option autoImplicit false

open Bytes Container Evaluation Supervise

/-- What a command has to work with. -/
structure Tooling where
  library : Json.Library
  programs : Programs
  spawner : Spawner
  /-- What comes over the standard input. -/
  input : Bytes

def printLine (text : Bytes) : Act Unit :=
  emit outputStream (text ++ [newline])

def complainLine (text : Bytes) : Act Unit :=
  emit errorStream (text ++ [newline])

/-- Take up the logger that the settings ask for: with a file if a path is given, and
with the error stream if that is wanted or there is no such file to be had. -/
def useLogger (settings : Settings) (path : Option Bytes) (console : Bool) : Act Unit := do
  let threshold := (Log.Level.parse? (settings .logLevel)).getD .info
  modify fun host => { host with logger := ⟨threshold, []⟩ }
  let opened ← match path with
    | none => pure true
    | some path => do
        let opened ← Log.addFile path false
        if !opened then complainLine (ascii "[cli] cannot open log file " ++ path)
        pure opened
  if console || settings .logEcho || !opened then Log.addStream errorStream

/-- How the host sees a program that was aborted: 128 and the number of the signal. -/
def abortedCode : Int := 134

/-- Do what needs the settings; without them the program is aborted. -/
def withSettings (tooling : Tooling) (command : Settings → Act Int) : Act Int := do
  let host ← get
  match Settings.load tooling.library host (Settings.usualPath host) with
  | .ok settings => command settings
  | .error _ => return abortedCode

/-! ## Evaluating -/

/-- Have a trial made by a runner. -/
def tryWith (trial : Trial) (job : Job) (runner : Runner) : Act (Except Bytes Verdict) := do
  let (verdict, _) ← (trial.run runner job).run.run []
  return verdict.mapError Fault.message

/-- The executor that the settings ask for. -/
def executorOf (host : Host) (settings : Settings) : Exec.Executor :=
  .new host (settings .executorTimeout) (settings .executorDirectory) (settings .executorEnvironment)

/-- How a container of an image is run: the work directory is shared with it. -/
def imageConfig (settings : Settings) (image : Bytes) : Config :=
  let config := Config.ofSettings settings
  let directory : Bytes := settings .workDirectory
  { config with
    image
    runArguments := config.runArguments ++ [ascii "-v", directory ++ colon :: directory] }

/-- Make the trial of a job where the options say. -/
def tryWhere (tooling : Tooling) (settings : Settings) (options : EvaluateOptions) (trial : Trial)
    (job : Job) : Act (Except Bytes Verdict) := do
  let programs := tooling.programs
  if !options.image.isEmpty then
    let done ← Client.withScoped programs (imageConfig settings options.image) fun client =>
      tryWith trial job (.inContainer programs client [])
    match done with
    | .ok verdict => return verdict
    | .error cause => return .error cause.message
  else if options.discover then
    match ← Container.load tooling.library programs (.ofSettings settings)
        (settings .containerNamespaces) (settings .containerName) with
    | .ok client => tryWith trial job (.inContainer programs client [])
    | .error cause => return .error cause.message
  else tryWith trial job (.onHost programs (executorOf (← get) settings))

/-- The trial that the settings ask for. -/
def trialOf (settings : Settings) : Trial :=
  ⟨settings .workDirectory, settings .evaluationTimeout, settings .testsStatus⟩

/-- Evaluate the job in a descriptor. -/
def evaluateJob (tooling : Tooling) (settings : Settings) (options : EvaluateOptions) :
    Act (Except Bytes Verdict) := do
  match Job.load tooling.library (← get) options.descriptorPath with
  | .error cause => return .error cause.message
  | .ok job =>
      tryWhere tooling settings options (trialOf settings)
        { job with codeSpace := settings .codeSpace }

/-- What is printed of a verdict. -/
def reportOf (tooling : Tooling) (verdict : Verdict) : Except Bytes (Bytes × Bool) :=
  (tooling.library.dumpIndented verdict.toJson).map fun text => (text, verdict.resolved)

def evaluateWith (tooling : Tooling) (settings : Settings) (arguments : List Bytes) : Act Int := do
  match EvaluateOptions.read? ⟨settings .descriptorPath, false, []⟩ arguments with
  | none =>
      complainLine usage
      return 2
  | some options =>
      let directory : Bytes := settings .workDirectory
      let _ ← makeDirectories directory
      useLogger settings (some (Path.under directory (ascii "run_instance.log"))) false
      match (← evaluateJob tooling settings options).bind (reportOf tooling) with
      | .ok (report, resolved) =>
          printLine report
          return if resolved then 0 else 1
      | .error text =>
          Log.error (ascii "[eval] " ++ text)
          complainLine (ascii "[eval] " ++ text)
          return 1

def evaluate (tooling : Tooling) (arguments : List Bytes) : Act Int := do
  withSettings tooling fun settings => evaluateWith tooling settings arguments

/-! ## Rewarding -/

/-- The patch that an argument stands for: what comes over the standard input, or the
content of a file. -/
def patchOf (tooling : Tooling) (host : Host) (argument : Bytes) : Except Bytes Bytes :=
  if argument = ascii "-" then .ok tooling.input
  else if host.isRegular argument then .ok (host.text argument)
  else .error (ascii "patch file not found: " ++ argument)

/-- The limit that an argument stands for, or the usual one. -/
def limitOf (settings : Settings) : Option Bytes → Except Bytes Int
  | none => .ok (settings .rewardTimeout)
  | some argument => (positive (ascii "timeout") argument).mapError NotPositive.message

/-- Have a patch evaluated for an instance. -/
def rewardPatch (tooling : Tooling) (settings : Settings) (identifier patch : Bytes) (limit : Int) :
    Act (Except Bytes Exec.Outcome) := do
  match ← Container.load tooling.library tooling.programs (.ofSettings settings)
      (settings .containerNamespaces) (settings .containerName) with
  | .error cause => return .error cause.message
  | .ok client =>
      let rewarder := Rewarder.ofSettings settings client
      let _ ← rewarder.stage
      match ← rewarder.load tooling.library (settings .datasetPath) with
      | .error cause => return .error cause.message
      | .ok rewarder =>
          return (← rewarder.evaluate tooling.library tooling.programs identifier patch
            limit).mapError Fault.message

/-- The same, for a patch and a limit that arguments stand for. -/
def rewardFor (tooling : Tooling) (settings : Settings) (identifier patch : Bytes)
    (timeout : Option Bytes) : Act (Except Bytes Exec.Outcome) := do
  match limitOf settings timeout with
  | .error text => return .error text
  | .ok limit =>
      match patchOf tooling (← get) patch with
      | .error text => return .error text
      | .ok patch => rewardPatch tooling settings identifier patch limit

/-- What is printed of an outcome. -/
def answerOf (tooling : Tooling) (outcome : Exec.Outcome) : Except Bytes (Bytes × Bool) :=
  (tooling.library.dumpIndented outcome.toJson).map fun text => (text, outcome.succeeded)

def rewardWith (tooling : Tooling) (settings : Settings) (identifier patch : Bytes)
    (timeout : Option Bytes) : Act Int := do
  useLogger settings none true
  match (← rewardFor tooling settings identifier patch timeout).bind (answerOf tooling) with
  | .ok (answer, succeeded) =>
      printLine answer
      return if succeeded then 0 else 1
  | .error text =>
      Log.error (ascii "[reward] " ++ text)
      return 1

def reward (tooling : Tooling) (arguments : List Bytes) : Act Int := do
  match arguments with
  | identifier :: patch :: more =>
      if more.length ≤ 1 then
        withSettings tooling fun settings =>
          rewardWith tooling settings identifier patch more.head?
      else
        complainLine usage
        return 2
  | _ =>
      complainLine usage
      return 2

/-! ## Serving -/

/-- Log what the tasks have written. -/
def readTasks : Supervised Supervisor Unit := do
  let supervisor ← getThe Supervisor
  readEach supervisor supervisor.readers
where
  readEach (supervisor : Supervisor) : List Reader → Supervised Supervisor Unit
    | [] => return
    | reader :: rest => do
        (supervisor.read reader : Act Unit)
        readEach supervisor rest

/-- A supervisor that logs what its tasks have written when a run is over. -/
def readingSupervision (tooling : Tooling) (backend : Backend) : Supervision Supervisor :=
  let plain := backend.supervision (.ofSpawner tooling.spawner)
  { plain with runUntilComplete := do
      plain.runUntilComplete
      readTasks }

def serveTools (tooling : Tooling) (settings : Settings) (options : ServeOptions) : Act Int := do
  Log.info (ascii "[supervisor] Using " ++ options.backend.name ++ ascii " backend")
  let session := (Tools.ofSettings settings).start (readingSupervision tooling options.backend)
    options.directory options.inspectorPort options.quiet
  let supervisor := Supervisor.new (Tools.grace settings) Supervisor.usualPause
  match ← session.run.run supervisor with
  | (.ok (), _) => return 0
  | (.error text, _) =>
      Log.error (ascii "[supervisor] " ++ text)
      return 1

def serveWith (tooling : Tooling) (settings : Settings) (arguments : List Bytes) : Act Int := do
  useLogger settings none true
  match ServeOptions.read (settings .inspectorPort) arguments with
  | .ok options => serveTools tooling settings options
  | .error cause =>
      complainLine (cause.message ++ newline :: usage)
      return 2

def serve (tooling : Tooling) (arguments : List Bytes) : Act Int := do
  withSettings tooling fun settings => serveWith tooling settings arguments

/-! ## The program -/

/-- Run the command that the arguments name. -/
def run (tooling : Tooling) : List Bytes → Act Int
  | command :: arguments =>
      if command = ascii "evaluate" then evaluate tooling arguments
      else if command = ascii "reward" then reward tooling arguments
      else if command = ascii "serve" then serve tooling arguments
      else showUsage
  | [] => showUsage
where
  showUsage : Act Int := do
    printLine usage
    return 1

end Assay.Cli
