/-
# Assay.Proofs.Course -- which commands a trial issues

A trial tries to apply a patch and, only when that succeeded, tests it.  `Attempt`
lists what applying comes to and `Tested` what testing does, each with the commands
that were issued for it; a `Course` puts the two together.  Every trial with a runner
that always answers follows a course (`Trial.run_tried`), whatever the runner
remembers and whatever it does to the host, and so the script runs once when the
patch was applied and never otherwise (`Course.scripts_eq`).

A trial believes what it is told of the writing of the patch.  On a storage that is full its
commands are issued all the same, and what they are given is an empty file
(`fullStorage_tried`).
-/
import Assay.Proofs.Acts
import Assay.Proofs.Files
import Assay.Proofs.Sessions

namespace Assay.Evaluation

set_option autoImplicit false

open Bytes

/-- It runs a script. -/
def Issued.runsScript (issued : Issued) : Bool :=
  startsWith issued.command (ascii "/bin/bash ")

namespace Trial

/-- It applied the patch of the job, one way or the other. -/
def appliedBy (trial : Trial) (job : Job) (issued : Issued) : Bool :=
  issued.succeeded &&
    (issued.command == trial.strictCommand job || issued.command == trial.lenientCommand job)

/-- The host in which the patch of a job is written. -/
def openedHost (trial : Trial) (runner : Runner) (job : Job) (host : Host) : Host :=
  (trial.openDirectory.run ((announce runner job).run host).2).2

/-- Whether the trial is told that the patch of a job was written. -/
def writesPatch (trial : Trial) (runner : Runner) (job : Job) (host : Host) : Bool :=
  ((writeFile trial.patchPath (patchText (job.patch.getD []))).run
    (trial.openedHost runner job host)).1

end Trial

/-! ## Courses -/

/-- What the storage keeps of the patch was there when the strict command met the host. -/
structure FirstTry (trial : Trial) (job : Job) (strict : Issued) : Prop where
  was : strict.Was (trial.strictCommand job)
  met : strict.host.Holds trial.patchPath
    (strict.host.kept trial.patchPath (Trial.patchText (job.patch.getD [])))

/-- What applying a patch comes to: the commands that were issued, and whether one of
them applied it. -/
inductive Attempt (trial : Trial) (job : Job) : (written : Bool) → List Issued → Bool → Prop
  | notWritten : Attempt trial job false [] false
  | strictly {strict : Issued} (first : FirstTry trial job strict)
      (applied : strict.succeeded = true) : Attempt trial job true [strict] true
  | leniently {strict lenient : Issued} (first : FirstTry trial job strict)
      (failed : strict.succeeded = false) (second : lenient.Was (trial.lenientCommand job))
      (applied : lenient.succeeded = true) : Attempt trial job true [strict, lenient] true
  | neither {strict lenient : Issued} (first : FirstTry trial job strict)
      (failed : strict.succeeded = false) (second : lenient.Was (trial.lenientCommand job))
      (failed' : lenient.succeeded = false) : Attempt trial job true [strict, lenient] false

/-- What testing a patch does: the script is placed and run, between two looks at the
changes in the code, and the log that it leaves is graded. -/
inductive Tested (trial : Trial) (job : Job) : List Issued → Verdict → Prop
  | graded {before tested after : Issued} {placing ending : Host} {script : Bytes}
      (looked : before.Was (Trial.diffCommand job))
      (placed : (trial.placeScript job).run placing = (script, tested.host))
      (ran : tested.Was (Trial.testCommand script))
      (lookedAgain : after.Was (Trial.diffCommand job)) :
      Tested trial job [before, tested, after]
        (.ofLog job (testLog? ending trial.logPath) trial.withTests)

/-- The commands that a trial issues, and its verdict. -/
inductive Course (trial : Trial) (job : Job) (written : Bool) : List Issued → Verdict → Prop
  | noPatch (missing : job.patch = none) :
      Course trial job written [] (.withoutPatch job.identifier)
  | untested {patch : Bytes} {journal : List Issued} (present : job.patch = some patch)
      (attempt : Attempt trial job written journal false) :
      Course trial job written journal (.untested job.identifier)
  | tested {patch : Bytes} {applying testing : List Issued} {verdict : Verdict}
      (present : job.patch = some patch) (attempt : Attempt trial job written applying true)
      (test : Tested trial job testing verdict) :
      Course trial job written (applying ++ testing) verdict

/-! ## The stages -/

section

variable {runner : Runner} {host : Host} {journal : List Issued}
variable {bad : Fault → List Issued → Host → Prop}

theorem Trial.captureDiff_ends (answers : runner.AlwaysAnswers) (trial : Trial) (job : Job)
    (time : Bytes) :
    (trial.captureDiff runner job time).Ends host journal
      (fun _ later _ => ∃ issued, issued.Was (diffCommand job) ∧ later = journal ++ [issued])
      bad := by
  refine Session.Ends.bind (trial.issue_ends answers (diffCommand job)) ?_
  rintro outcome _ after ⟨issued, was, -, -, rfl⟩
  exact Session.Ends.act_bind (Session.Ends.pure ⟨issued, was, rfl⟩)

theorem Trial.test_ends (answers : runner.AlwaysAnswers) (trial : Trial) (job : Job) :
    (trial.test runner job).Ends host journal
      (fun verdict later _ => ∃ testing, Tested trial job testing verdict ∧
        later = journal ++ testing) bad := by
  refine Session.Ends.bind (trial.captureDiff_ends answers job _) ?_
  rintro _ _ placing ⟨before, looked, rfl⟩
  refine Session.Ends.act_bind ?_
  refine Session.Ends.bind (trial.issue_ends answers _) ?_
  rintro outcome _ _ ⟨tested, ran, placed, -, rfl⟩
  refine Session.Ends.act_bind (Session.Ends.act_bind ?_)
  refine Session.Ends.act_or_not fun host => ?_
  refine Session.Ends.bind (trial.captureDiff_ends answers job _) ?_
  rintro _ _ _ ⟨after, lookedAgain, rfl⟩
  refine Session.Ends.act_or_not fun host => ?_
  refine Session.Ends.act_bind (Session.Ends.get_bind ?_)
  refine Session.Ends.act_bind (Session.Ends.pure ?_)
  refine ⟨[before, tested, after], .graded looked (Prod.ext rfl placed.symm) ran lookedAgain, ?_⟩
  simp only [List.append_assoc, List.cons_append, List.nil_append]

/-- The patch is written, and then both ways to apply it are tried in turn. -/
theorem Trial.applyPatch_ends (answers : runner.AlwaysAnswers) (trial : Trial) (job : Job)
    {written : Bool}
    (writes : ((writeFile trial.patchPath (patchText (job.patch.getD []))).run host).1 = written) :
    (trial.applyPatch runner job).Ends host []
      (fun _ journal _ => Attempt trial job written journal true)
      (fun fault journal _ => (∃ message, fault = .evaluation message) ∧
        Attempt trial job written journal false) := by
  refine Session.Ends.act_bind ?_
  rw [writes]
  cases written with
  | false => exact Session.Ends.throw ⟨⟨_, rfl⟩, .notWritten⟩
  | true =>
      refine Session.Ends.bind (trial.issue_ends answers (trial.strictCommand job)) ?_
      rintro outcome _ _ ⟨strict, was, here, same, rfl⟩
      have first : FirstTry trial job strict := by
        refine ⟨was, ?_⟩
        rw [here]
        exact writeFile_holds writes
      cases applied : outcome.succeeded with
      | true => exact .strictly first (same.trans applied)
      | false =>
          refine Session.Ends.act_bind ?_
          refine Session.Ends.bind (trial.issue_ends answers (trial.lenientCommand job)) ?_
          rintro outcome' _ _ ⟨lenient, second, -, same', rfl⟩
          cases applied' : outcome'.succeeded with
          | true =>
              exact .leniently first (same.trans applied) second (same'.trans applied')
          | false =>
              refine Session.Ends.act_bind (Session.Ends.throw ⟨⟨_, rfl⟩, ?_⟩)
              exact .neither first (same.trans applied) second (same'.trans applied')

end

/-! ## Telling the commands apart -/

namespace Trial

variable (trial : Trial) (job : Job)

theorem inCodeSpace_inj {first second : Bytes}
    (same : inCodeSpace job first = inCodeSpace job second) : first = second :=
  List.append_cancel_left same

theorem startsWith_inCodeSpace (command : Bytes) :
    startsWith (inCodeSpace job command) (ascii "/bin/bash ") = false :=
  rfl

theorem startsWith_testCommand (script : Bytes) :
    startsWith (testCommand script) (ascii "/bin/bash ") = true :=
  List.isPrefixOf_iff_prefix.2 (List.prefix_append _ _)

theorem diffCommand_ne_strictCommand : diffCommand job ≠ trial.strictCommand job := by
  intro same
  have told : startsWith (ascii "git diff") (ascii "git a") =
      startsWith (ascii "git apply -v " ++ trial.patchPath) (ascii "git a") :=
    congrArg (startsWith · (ascii "git a")) (inCodeSpace_inj job same)
  cases told

theorem diffCommand_ne_lenientCommand : diffCommand job ≠ trial.lenientCommand job := by
  intro same
  have told : startsWith (ascii "git diff") (ascii "p") =
      startsWith (ascii "patch --batch --fuzz=5 -p1 -i " ++ trial.patchPath) (ascii "p") :=
    congrArg (startsWith · (ascii "p")) (inCodeSpace_inj job same)
  cases told

theorem appliedBy_strictCommand {issued : Issued} (was : issued.Was (trial.strictCommand job)) :
    trial.appliedBy job issued = issued.succeeded := by
  simp [appliedBy, was.1]

theorem appliedBy_lenientCommand {issued : Issued} (was : issued.Was (trial.lenientCommand job)) :
    trial.appliedBy job issued = issued.succeeded := by
  simp [appliedBy, was.1]

theorem not_appliedBy_diffCommand {issued : Issued} (looked : issued.Was (diffCommand job)) :
    trial.appliedBy job issued = false := by
  have notStrict := diffCommand_ne_strictCommand trial job
  have notLenient := diffCommand_ne_lenientCommand trial job
  simp [appliedBy, looked.1, notStrict, notLenient]

theorem not_appliedBy_testCommand {issued : Issued} {script : Bytes}
    (ran : issued.Was (testCommand script)) : trial.appliedBy job issued = false := by
  have other : ∀ command, testCommand script ≠ inCodeSpace job command := by
    intro command same
    have told := congrArg (startsWith · (ascii "/bin/bash ")) same
    simp only [startsWith_testCommand, startsWith_inCodeSpace] at told
    cases told
  simp [appliedBy, ran.1, strictCommand, lenientCommand, other]

end Trial

theorem Issued.Was.not_runsScript {issued : Issued} {job : Job} {command : Bytes}
    (was : issued.Was (Trial.inCodeSpace job command)) : issued.runsScript = false := by
  rw [runsScript, was.1]
  exact Trial.startsWith_inCodeSpace job command

/-! ## What a course tells -/

section

variable {trial : Trial} {job : Job} {written applied : Bool} {journal : List Issued}
variable {verdict : Verdict}

/-- Applying a patch runs no script. -/
theorem Attempt.scripts_eq (attempt : Attempt trial job written journal applied) :
    journal.countP Issued.runsScript = 0 := by
  cases attempt with
  | notWritten => rfl
  | strictly first _ => simp [first.was.not_runsScript]
  | leniently first _ second _ => simp [first.was.not_runsScript, second.not_runsScript]
  | neither first _ second _ => simp [first.was.not_runsScript, second.not_runsScript]

theorem Attempt.any_appliedBy (attempt : Attempt trial job written journal applied) :
    journal.any (trial.appliedBy job) = applied := by
  cases attempt with
  | notWritten => rfl
  | strictly first done => simp [trial.appliedBy_strictCommand job first.was, done]
  | leniently first failed second done =>
      simp [trial.appliedBy_strictCommand job first.was, failed,
        trial.appliedBy_lenientCommand job second, done]
  | neither first failed second failed' =>
      simp [trial.appliedBy_strictCommand job first.was, failed,
        trial.appliedBy_lenientCommand job second, failed']

/-- Testing a patch runs one script. -/
theorem Tested.scripts_eq (test : Tested trial job journal verdict) :
    journal.countP Issued.runsScript = 1 := by
  obtain ⟨looked, -, ran, lookedAgain⟩ := test
  have runs : ∀ {issued script}, Issued.Was issued (Trial.testCommand script) →
      issued.runsScript = true := by
    intro issued script was
    rw [Issued.runsScript, was.1]
    exact Trial.startsWith_testCommand script
  simp [looked.not_runsScript, runs ran, lookedAgain.not_runsScript]

theorem Tested.any_appliedBy (test : Tested trial job journal verdict) :
    journal.any (trial.appliedBy job) = false := by
  obtain ⟨looked, -, ran, lookedAgain⟩ := test
  simp [trial.not_appliedBy_diffCommand job looked, trial.not_appliedBy_testCommand job ran,
    trial.not_appliedBy_diffCommand job lookedAgain]

/-- The script runs once when the patch was applied, and never otherwise. -/
theorem Course.scripts_eq (course : Course trial job written journal verdict) :
    journal.countP Issued.runsScript = if journal.any (trial.appliedBy job) then 1 else 0 := by
  cases course with
  | noPatch missing => rfl
  | untested present attempt =>
      rw [attempt.any_appliedBy, attempt.scripts_eq]
      rfl
  | tested present attempt test =>
      rw [List.countP_append, attempt.scripts_eq, test.scripts_eq, List.any_append,
        attempt.any_appliedBy]
      rfl

/-- A patch that was not applied is not graded. -/
theorem Course.untested_of_not_applied {patch : Bytes} (present : job.patch = some patch)
    (course : Course trial job written journal verdict)
    (notApplied : journal.any (trial.appliedBy job) = false) :
    verdict = .untested job.identifier := by
  cases course with
  | noPatch missing =>
      rw [present] at missing
      cases missing
  | untested _ _ => rfl
  | tested _ attempt test =>
      rw [List.any_append, attempt.any_appliedBy] at notApplied
      cases notApplied

/-- The strict command comes first, unless there is none at all. -/
theorem Attempt.begins (attempt : Attempt trial job written journal applied) :
    (journal = [] ∧ applied = false) ∨
      ∃ strict rest, journal = strict :: rest ∧ FirstTry trial job strict := by
  cases attempt with
  | notWritten => exact Or.inl ⟨rfl, rfl⟩
  | strictly first _ => exact Or.inr ⟨_, _, rfl, first⟩
  | leniently first _ _ _ => exact Or.inr ⟨_, _, rfl, first⟩
  | neither first _ _ _ => exact Or.inr ⟨_, _, rfl, first⟩

/-- What is kept of the patch is in place when the first command is issued. -/
theorem Course.patch_met (course : Course trial job written journal verdict) :
    ∀ first ∈ journal.head?, first.host.Holds trial.patchPath
      (first.host.kept trial.patchPath (Trial.patchText (job.patch.getD []))) := by
  intro first isFirst
  cases course with
  | noPatch missing => cases isFirst
  | untested present attempt =>
      rcases attempt.begins with ⟨rfl, -⟩ | ⟨strict, rest, rfl, begun⟩
      · cases isFirst
      · cases isFirst
        exact begun.met
  | tested present attempt test =>
      rcases attempt.begins with ⟨-, notApplied⟩ | ⟨strict, rest, rfl, begun⟩
      · cases notApplied
      · cases isFirst
        exact begun.met

end

/-- What a trial of a job comes to that begins in this host: the commands follow a
course, the file for the patch holds what the storage keeps of it before the first of them,
the script runs once if the patch was applied and never otherwise, and a patch that was not
applied is reported as such. -/
structure Tried (trial : Trial) (runner : Runner) (job : Job) (host : Host) (verdict : Verdict)
    (journal : List Issued) : Prop where
  course : Course trial job (trial.writesPatch runner job host) journal verdict
  patchMet : ∀ patch, job.patch = some patch → ∀ first ∈ journal.head?,
    first.host.Holds trial.patchPath (first.host.kept trial.patchPath (Trial.patchText patch))
  scripts : journal.countP Issued.runsScript =
    if journal.any (trial.appliedBy job) then 1 else 0
  notApplied : ∀ patch, job.patch = some patch → journal.any (trial.appliedBy job) = false →
    verdict = { identifier := job.identifier, patchMissing := false, patchExists := true,
                patchApplied := false, resolved := false, tests := none }

/-- **A trial follows a course.**  With a runner that always answers it ends with a
verdict, and the commands that it issued are those of a course.  Whether it goes beyond the
writing of the patch is decided by what it is told of it, and not by what is stored. -/
theorem Trial.run_tried {runner : Runner} (answers : runner.AlwaysAnswers) (trial : Trial)
    (job : Job) (host : Host) :
    (trial.run runner job).Ends host []
      (fun verdict journal _ => Tried trial runner job host verdict journal)
      (fun _ _ _ => False) := by
  -- every way in which the trial ends is a course, and all else is known of courses
  have followed : ∀ {journal verdict},
      Course trial job (trial.writesPatch runner job host) journal verdict →
        Tried trial runner job host verdict journal := by
    intro journal verdict course
    refine ⟨course, ?_, course.scripts_eq, fun _ present => course.untested_of_not_applied present⟩
    intro patch present
    have met := course.patch_met
    rw [present] at met
    exact met
  refine Session.Ends.act_bind ?_
  cases present : job.patch with
  | none =>
      refine Session.Ends.act_bind (Session.Ends.pure ?_)
      exact followed (.noPatch present)
  | some patch =>
      refine Session.Ends.act_bind ?_
      have tried : (Session.attempt (trial.applyPatch runner job)).Ends
          (trial.openedHost runner job host) []
          (fun answer journal _ => match answer with
            | .ok _ => Attempt trial job (trial.writesPatch runner job host) journal true
            | .error fault => (∃ message, fault = .evaluation message) ∧
                Attempt trial job (trial.writesPatch runner job host) journal false)
          (fun _ _ _ => False) :=
        Session.Ends.attempt (trial.applyPatch_ends answers job rfl)
      refine Session.Ends.bind tried ?_
      intro answer journal after come
      cases answer with
      | ok _ =>
          refine (trial.test_ends answers job).mono ?_
          rintro verdict _ _ ⟨testing, test, rfl⟩
          exact followed (.tested present come test)
      | error fault =>
          obtain ⟨⟨message, rfl⟩, attempt⟩ := come
          refine Session.Ends.act_bind (Session.Ends.pure ?_)
          exact followed (.untested present attempt)

/-- A runner that refuses its first command and does all others; it keeps count in a
stream of its own. -/
def reluctantRunner : Runner where
  name := ascii "reluctant"
  run command _ := do
    let host ← get
    let earlier := (host.streams.get? (ascii "asked")).getD []
    emit (ascii "asked") command
    return .ok ⟨if earlier.isEmpty then 1 else 0, [], []⟩

def smallTrial : Trial :=
  ⟨ascii "work", 60, false⟩

def smallJob : Job where
  identifier := ascii "job"
  repository := []
  version := []
  patch := some (ascii "+1")
  script := ascii "true"
  testCommand := []
  scriptPath := []
  codeSpace := usualCodeSpace
  expected := ∅

/-- The first way to apply the patch fails and the second works. -/
theorem reluctantRunner_tried :
    reluctantRunner.AlwaysAnswers ∧
    (smallTrial.run reluctantRunner smallJob).Ends Host.bare []
      (fun verdict journal _ => Tried smallTrial reluctantRunner smallJob Host.bare verdict journal)
      (fun _ _ _ => False) ∧
    (((smallTrial.run reluctantRunner smallJob).run.run []).run Host.bare).1.2.map
      Issued.succeeded = [false, true, true, true, true] := by
  have answers : reluctantRunner.AlwaysAnswers := fun _ _ _ => ⟨_, rfl⟩
  refine ⟨answers, Trial.run_tried answers smallTrial smallJob Host.bare, ?_⟩
  decide +kernel

/-- On a full storage all commands are issued, the first of them with an empty file in the place
of the patch. -/
theorem fullStorage_tried :
    let issued := (((smallTrial.run reluctantRunner smallJob).run.run []).run Host.full).1.2
    issued.map Issued.command =
        [smallTrial.strictCommand smallJob, smallTrial.lenientCommand smallJob,
          Trial.diffCommand smallJob, Trial.testCommand smallTrial.scriptPath,
          Trial.diffCommand smallJob] ∧
      issued.head?.map (fun first => first.host.text smallTrial.patchPath) = some [] ∧
      smallJob.patch.map Trial.patchText = some (ascii "+1\n") := by
  decide +kernel

end Assay.Evaluation
