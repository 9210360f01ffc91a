/-
# Assay.Proofs.Stages -- a trial in three stages

What is graded is read from a file, and between the test that the file is about and the
reading other things happen: the log is written, or its writing is refused, and the
changes in the code are looked at once more.  To speak of the hosts at these times a
trial is cut at them.  It comes to its test or is settled before it (`toTest`), it runs
the test and keeps the log (`runTest`), and it grades what the log holds then (`grade`).
The three in order are the trial (`run_eq_stages`).
-/
import Assay.Proofs.Acts
import Assay.Proofs.Sessions

namespace Assay.Evaluation

set_option autoImplicit false

open Bytes
open Exec (Outcome)

/-- What a trial comes to before its test. -/
inductive Stage where
  /-- There is nothing to test. -/
  | settled (verdict : Verdict)
  /-- The patch is applied, the changes in the code are known and the script is there. -/
  | ready (changes script : Bytes)
  deriving DecidableEq, Repr

namespace Trial

/-- The trial up to its test. -/
def toTest (trial : Trial) (runner : Runner) (job : Job) : Session Stage := do
  announce runner job
  if job.patch.isNone then
    Log.info (ascii "[eval] Patch for " ++ job.identifier ++ ascii " is null, skipping evaluation")
    return .settled (.withoutPatch job.identifier)
  trial.openDirectory
  match ← Session.attempt (trial.applyPatch runner job) with
  | .ok () =>
      let changes ← trial.captureDiff runner job (ascii "before")
      return .ready changes (← trial.placeScript job)
  | .error (.evaluation message) =>
      Log.error (ascii "[eval] " ++ message)
      return .settled (.untested job.identifier)
  | .error fault => throw fault

/-- The test, up to the reading of its log: answers its outcome, and whether its output
was written to the log. -/
def runTest (trial : Trial) (runner : Runner) (job : Job) (changes script : Bytes) :
    Session (Outcome × Bool) := do
  let outcome ← trial.issue runner (testCommand script)
  Log.info (ascii "[eval] run eval script result: code=" ++ ofInt outcome.code)
  let logged ← writeFile trial.logPath outcome.output
  if !logged then
    Log.warn (ascii "[eval] Failed to write " ++ trial.logPath)
  let after ← trial.captureDiff runner job (ascii "after")
  if after != changes then
    Log.info (ascii "[eval] Git diff changed after running eval script")
  Log.info (ascii "[eval] Grading answer for " ++ job.identifier ++ ascii "...")
  return (outcome, logged)

/-- The verdict on the log as it is. -/
def grade (trial : Trial) (job : Job) : Act Verdict := do
  let host ← get
  let verdict := Verdict.ofLog job (testLog? host trial.logPath) trial.withTests
  Log.info (ascii "[eval] Result for " ++ job.identifier ++ ascii ": resolved: " ++
    if verdict.resolved then ascii "true" else ascii "false")
  return verdict

/-- Testing is to run the test and to grade it. -/
theorem test_eq_stages (trial : Trial) (runner : Runner) (job : Job) :
    trial.test runner job = (do
      let changes ← trial.captureDiff runner job (ascii "before")
      let script ← trial.placeScript job
      let _ ← trial.runTest runner job changes script
      trial.grade job) := by
  unfold test runTest
  simp only [bind_assoc]
  refine bind_congr fun changes => bind_congr fun script => bind_congr fun outcome =>
    bind_congr fun _ => bind_congr fun logged => ?_
  -- a record that is written at times leaves what follows as it is
  cases logged
  · simp only [Bool.not_false, if_true, bind_assoc]
    refine bind_congr fun _ => bind_congr fun after => ?_
    split <;> (simp only [bind_assoc, pure_bind]; rfl)
  · simp only [Bool.not_true, Bool.false_eq_true, if_false, bind_assoc]
    refine bind_congr fun after => ?_
    split <;> (simp only [bind_assoc, pure_bind]; rfl)

/-- **A trial is its three stages**, one after the other. -/
theorem run_eq_stages (trial : Trial) (runner : Runner) (job : Job) :
    trial.run runner job = (do
      match ← trial.toTest runner job with
      | .settled verdict => return verdict
      | .ready changes script =>
          let _ ← trial.runTest runner job changes script
          trial.grade job) := by
  unfold run toTest
  simp only [bind_assoc]
  refine bind_congr fun _ => ?_
  split
  · simp only [bind_assoc, pure_bind]
  · simp only [bind_assoc]
    refine bind_congr fun _ => bind_congr fun applied => ?_
    rcases applied with (message | cause | message) | _
    · simp only [bind_assoc, pure_bind]
    · rfl
    · rfl
    · simp only [bind_assoc, pure_bind, test_eq_stages]

/-- A trial that comes to its test, and through it, ends with the grade of what is there
then. -/
theorem run_of_tested {trial : Trial} {runner : Runner} {job : Job} {host met graded : Host}
    {journal between later : List Issued} {changes script : Bytes} {tested : Outcome × Bool}
    (ready : ((trial.toTest runner job).run.run journal).run host =
      ((.ok (.ready changes script), between), met))
    (ran : ((trial.runTest runner job changes script).run.run between).run met =
      ((.ok tested, later), graded)) :
    ((trial.run runner job).run.run journal).run host =
      ((.ok ((trial.grade job).run graded).1, later), ((trial.grade job).run graded).2) := by
  rw [run_eq_stages, Session.run_bind, ready]
  dsimp only
  rw [Session.run_bind, ran]
  rfl

end Trial

end Assay.Evaluation
