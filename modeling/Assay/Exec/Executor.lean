/-
# Assay.Exec.Executor -- executing commands

An `Executor` runs one command at a time with a deadline.  A command is given as
words, or as a line that is run directly or by the shell.  Whatever goes wrong,
`execute` answers with a result: a command that cannot be started, or that is
stopped at its deadline, has a reserved code.

What a command reads and writes is handed over as it is.  Left out are the temporary files in
which it is kept meanwhile, with what can go wrong with them, and streams that stay open when
the command has ended: their readers are not left behind here, but read to the end.
-/
import Assay.Environment
import Assay.Exec.Readers
import Assay.Exec.Result
import Assay.Shell.Words

namespace Assay.Exec

set_option autoImplicit false

open Bytes Shell

/-- A command to be executed. -/
structure Request where
  /-- The line to run when there are no words. -/
  command : Bytes := []
  words : List Bytes := []
  /-- Empty for the directory of the executor. -/
  directory : Bytes := []
  environment : Environment := ∅
  /-- In seconds; none for the limit of the executor. -/
  timeout : Option Int := none
  input : Option Bytes := none
  /-- A file for the output, which is then not part of the result; empty for none. -/
  recordPath : Bytes := []
  onLine : Option LineHandler := none

/-- Runs commands. -/
structure Executor where
  /-- In seconds. -/
  timeout : Int
  directory : Bytes
  environment : Environment

/-- An executor whose directory, when none is given, is the current one. -/
def Executor.new (host : Host) (timeout : Int) (directory : Bytes) (environment : Environment) :
    Executor :=
  ⟨timeout, if directory.isEmpty then host.directoryPath else directory, environment⟩

/-! ## Invocations -/

/-- Why a command cannot be started. -/
inductive StartError where
  | words (cause : WordError)
  | emptyCommand
  | programMissing (name : Bytes)
  /-- The host refused to launch it. -/
  | refused (reason : Bytes)
  deriving DecidableEq, Repr

/-- The complaint about a program that is not there. -/
def programMissingText (name : Bytes) : Bytes :=
  ascii "No such file or directory: '" ++ name ++ ascii "'"

def StartError.message (fault : StartError) : Bytes :=
  untilZero <| match fault with
    | .words cause => cause.message
    | .emptyCommand => ascii "empty command"
    | .programMissing name => programMissingText name
    | .refused reason => reason

/-- A program with its arguments. -/
structure Invocation where
  program : Bytes
  arguments : List Bytes
  mode : Dispatch
  deriving DecidableEq, Repr

/-- The shell that runs lines. -/
def shellProgram : Bytes := ascii "/bin/sh"

/-- The invocation of a row of words, the first naming the program. -/
def invoke (host : Host) (searchPath : Bytes) : List Bytes → Except StartError Invocation
  | [] => .error .emptyCommand
  | name :: arguments =>
      match host.findProgram searchPath name with
      | some program => .ok ⟨program, arguments, .direct⟩
      | none => .error (.programMissing name)

/-- The invocation of a line, by the shell or directly. -/
def invokeLine (host : Host) (searchPath line : Bytes) : Except StartError Invocation :=
  match dispatch line with
  | .shell => .ok ⟨shellProgram, [ascii "-c", line], .shell⟩
  | .direct =>
      match splitWords line with
      | .error cause => .error (.words cause)
      | .ok words => invoke host searchPath words

/-- The invocation that a request asks for. -/
def prepare (host : Host) (request : Request) (searchPath : Bytes) :
    Except StartError Invocation :=
  if request.words.isEmpty then invokeLine host searchPath request.command
  else invoke host searchPath request.words

/-- How a request is run. -/
def Request.mode (request : Request) : Dispatch :=
  if request.words.isEmpty then dispatch request.command else .direct

/-- A request as log records show it. -/
def Request.description (request : Request) : Bytes :=
  if request.words.isEmpty then request.command else join request.words [space]

/-! ## Execution -/

def timeoutText (seconds : Int) : Bytes :=
  ascii "Timeout after " ++ ofInt seconds ++ ascii " seconds"

/-- The result of a command whose output is taken as a whole, both streams in one. -/
def captured (request : Request) (mode : Dispatch) (limit : Int) (run : ChildRun) : Act Result := do
  let recording := !request.recordPath.isEmpty
  if recording then
    modify fun host =>
      match host.files.write host.directory request.recordPath run.merged with
      | .ok files => { host with files := files }
      | .error _ => host
  match run.ending with
  | .outlived => return ⟨timedOut, [], timeoutText limit, Float.ofInt limit, mode⟩
  | .reaped status =>
      return ⟨exitCode status, if recording then [] else run.merged, [], run.seconds, mode⟩

/-- The result of a command whose lines are handed on while it runs. -/
def streamed (handler : LineHandler) (mode : Dispatch) (limit : Int) (run : ChildRun) :
    Act Result := do
  let reading ← readBoth handler run
  if !reading.fault.isEmpty then
    Log.warn (ascii "[exec] line callback failed: " ++ reading.fault)
  let output := reading.output.text
  let errors := reading.errors.text
  match run.ending with
  | .outlived =>
      return ⟨timedOut, output, errors ++ newline :: timeoutText limit, run.seconds, mode⟩
  | .reaped status => return ⟨exitCode status, output, errors, run.seconds, mode⟩

/-- Start a command and wait for it. -/
def attempt (programs : Programs) (executor : Executor) (request : Request) (directory : Bytes)
    (limit : Int) : Act (Except StartError Result) := do
  let host ← get
  let environment :=
    Environment.build host.environ [some executor.environment, some request.environment] true
  match prepare host request environment.searchPath with
  | .error fault => return .error fault
  | .ok invocation => do
      let run ← launch programs
        { program := invocation.program
          arguments := invocation.arguments
          environ := environment.toEntries
          directory
          input := request.input.getD [] }
        (some limit)
      match run with
      | .error reason => return .error (.refused reason)
      | .ok run =>
          match request.onLine with
          | some handler => return .ok (← streamed handler invocation.mode limit run)
          | none => return .ok (← captured request invocation.mode limit run)

def Executor.execute (programs : Programs) (executor : Executor) (request : Request) :
    Act Result := do
  let limit := request.timeout.getD executor.timeout
  let directory := if request.directory.isEmpty then executor.directory else request.directory
  Log.info (ascii "[exec] ++++++++Begin executing command++++++++")
  Log.info (ascii "[exec] Command:" ++ request.description ++ ascii " Workdir: " ++ directory ++
    ascii ", Timeout: " ++ ofInt limit ++ ascii "s")
  let result ← do
    match ← attempt programs executor request directory limit with
    | .ok result => pure result
    | .error fault => do
        Log.error (ascii "[exec] Execution failed after " ++ Result.secondsText 0 ++ ascii "s: " ++
          fault.message)
        pure ⟨notStarted, [], ascii "Execution error: " ++ fault.message, 0, request.mode⟩
  Log.info (ascii "[exec] ++++++++End executing command++++++++")
  return result

end Assay.Exec
