/-
# Assay.Evaluation.Trial -- trying a patch

A trial applies the patch of a job, strictly or else leniently, runs the script
that tests it, and grades what the script wrote.  A patch that does not apply is
never tested.  Every command goes to a runner, and all that were issued are kept
in order, each with what it met and what came of it.
-/
import Assay.Evaluation.Runner
import Assay.Evaluation.Verdict
import Assay.Bytes.Search

namespace Assay.Evaluation

set_option autoImplicit false

open Bytes
open Exec (Outcome)

/-- A command that was issued. -/
structure Issued where
  command : Bytes
  /-- In seconds. -/
  limit : Int
  /-- The host in which it was issued. -/
  host : Host
  /-- What came of it. -/
  answer : Except Fault Outcome

/-- Acts on the host that issue commands and may fail. -/
abbrev Session := ExceptT Fault (StateT (List Issued) Act)

/-- Do what may fail; answers why it failed, if it did. -/
def Session.attempt {α : Type} (body : Session α) : Session (Except Fault α) :=
  ExceptT.lift body.run

/-- How a patch is tried. -/
structure Trial where
  /-- The directory for the patch, the script and the log. -/
  directory : Bytes
  /-- The limit of each command, in seconds. -/
  timeout : Int
  /-- Whether the verdict lists the tests. -/
  withTests : Bool
  deriving DecidableEq, Repr

namespace Trial

def patchPath (trial : Trial) : Bytes :=
  Path.under trial.directory (ascii "patch.diff")

/-- Where a script goes that has no place of its own. -/
def scriptPath (trial : Trial) : Bytes :=
  Path.under trial.directory (ascii "eval.sh")

def logPath (trial : Trial) : Bytes :=
  Path.under trial.directory (ascii "test_output.txt")

/-- Issue a command and wait for what comes of it. -/
def issue (trial : Trial) (runner : Runner) (command : Bytes) : Session Outcome := do
  let host ← getThe Host
  let answer ← (runner.run command trial.timeout : Act (Except Fault Outcome))
  modifyThe (List Issued) (· ++ [⟨command, trial.timeout, host, answer⟩])
  match answer with
  | .ok outcome => return outcome
  | .error fault => throw fault

/-! ## The commands -/

/-- A command that runs in the directory of the code. -/
def inCodeSpace (job : Job) (command : Bytes) : Bytes :=
  ascii "cd " ++ job.codeSpace ++ ascii " && " ++ command

def strictCommand (trial : Trial) (job : Job) : Bytes :=
  inCodeSpace job (ascii "git apply -v " ++ trial.patchPath)

def lenientCommand (trial : Trial) (job : Job) : Bytes :=
  inCodeSpace job (ascii "patch --batch --fuzz=5 -p1 -i " ++ trial.patchPath)

def diffCommand (job : Job) : Bytes :=
  inCodeSpace job (ascii "git diff")

def testCommand (script : Bytes) : Bytes :=
  ascii "/bin/bash " ++ script

/-! ## The stages -/

/-- A patch as it is written: with a newline at its end, unless it is empty. -/
def patchText (patch : Bytes) : Bytes :=
  if patch.isEmpty || patch.getLast? == some newline then patch else patch ++ [newline]

/-- Write the patch of a job and apply it. -/
def applyPatch (trial : Trial) (runner : Runner) (job : Job) : Session Unit := do
  if !(← writeFile trial.patchPath (patchText (job.patch.getD []))) then
    throw (.evaluation (EvaluationError.patchNotWritten trial.patchPath).message)
  let strict ← trial.issue runner (trial.strictCommand job)
  if strict.succeeded then
    Log.info (ascii "[eval] " ++ Test.Log.applied ++ ascii ":\n" ++ strict.output)
  else
    Log.info (ascii "[eval] Failed to apply patch to container, trying again...")
    let lenient ← trial.issue runner (trial.lenientCommand job)
    if lenient.succeeded then
      Log.info (ascii "[eval] " ++ Test.Log.applied ++ ascii ":\n" ++ lenient.output)
    else
      Log.info (ascii "[eval] " ++ Test.Log.applyFailed ++ ascii ":\n" ++
        if lenient.errors.isEmpty then lenient.output else lenient.errors)
      throw (.evaluation EvaluationError.patchNotApplied.message)

/-- A script as it is written: a request to make locales names one. -/
def scriptText (script : Bytes) : Bytes :=
  replaceAll script (ascii "locale-gen") (ascii "locale-gen en_US.UTF-8")

/-- Where the script of a job is to be written. -/
def scriptPlace (trial : Trial) (job : Job) : Bytes :=
  if job.scriptPath.isEmpty then trial.scriptPath else job.scriptPath

/-- Have the script of a job in a file; answers its path.  A script that names a file
is that file. -/
def placeScript (trial : Trial) (job : Job) : Act Bytes := do
  let host ← get
  if !job.script.isEmpty && host.isRegular job.script then return job.script
  let path := trial.scriptPlace job
  if !(← writeFile path (scriptText job.script)) then
    Log.warn (ascii "[eval] Failed to write eval script " ++ path)
  return path

/-- The changes in the code, as they are at a time. -/
def captureDiff (trial : Trial) (runner : Runner) (job : Job) (time : Bytes) : Session Bytes := do
  let outcome ← trial.issue runner (diffCommand job)
  Log.info (ascii "[eval] Git diff " ++ time ++ ascii " command status:" ++
    (if outcome.succeeded then ascii "true" else ascii "false") ++ ascii ", output:" ++
    outcome.output ++ ascii ", error:" ++ outcome.errors)
  return outcome.output

/-- Test what was applied, and grade it. -/
def test (trial : Trial) (runner : Runner) (job : Job) : Session Verdict := do
  let before ← trial.captureDiff runner job (ascii "before")
  let script ← trial.placeScript job
  let outcome ← trial.issue runner (testCommand script)
  Log.info (ascii "[eval] run eval script result: code=" ++ ofInt outcome.code)
  if !(← writeFile trial.logPath outcome.output) then
    Log.warn (ascii "[eval] Failed to write " ++ trial.logPath)
  let after ← trial.captureDiff runner job (ascii "after")
  if after != before then
    Log.info (ascii "[eval] Git diff changed after running eval script")
  Log.info (ascii "[eval] Grading answer for " ++ job.identifier ++ ascii "...")
  let host ← getThe Host
  let verdict := Verdict.ofLog job (testLog? host trial.logPath) trial.withTests
  Log.info (ascii "[eval] Result for " ++ job.identifier ++ ascii ": resolved: " ++
    if verdict.resolved then ascii "true" else ascii "false")
  return verdict

/-- Say which job is tried, and where. -/
def announce (runner : Runner) (job : Job) : Act Unit :=
  Log.info (ascii "[eval] Running instance " ++ job.identifier ++ ascii " via " ++ runner.name ++
    ascii " runner")

/-- Make the directory of the trial; it goes on when that is refused. -/
def openDirectory (trial : Trial) : Act Unit := do
  match ← makeDirectories trial.directory with
  | some reason =>
      Log.warn (ascii "[eval] Could not create work dir " ++ trial.directory ++ ascii ": " ++ reason.message)
  | none => return

/-- Try the patch of a job. -/
def run (trial : Trial) (runner : Runner) (job : Job) : Session Verdict := do
  announce runner job
  if job.patch.isNone then
    Log.info (ascii "[eval] Patch for " ++ job.identifier ++ ascii " is null, skipping evaluation")
    return .withoutPatch job.identifier
  trial.openDirectory
  match ← Session.attempt (trial.applyPatch runner job) with
  | .ok () => trial.test runner job
  | .error (.evaluation message) =>
      Log.error (ascii "[eval] " ++ message)
      return .untested job.identifier
  | .error fault => throw fault

end Trial

end Assay.Evaluation
