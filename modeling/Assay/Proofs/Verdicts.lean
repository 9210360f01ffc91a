/-
# Assay.Proofs.Verdicts -- how the flags of a verdict hang together

A verdict is made in three places: where there is no patch, where a patch could not be
tested, and from the log of a test.  In each of them its flags follow one another, and it
lists the tests just where it was asked to and a patch was tested (`Progressive`).

Whether it is asked to makes no other difference: a trial that lists the tests and one that
does not are the same session but for the list (`unlisted_run`).  A trial that ends without
a verdict ends with a fault of its runner, that of the command it issued last (`Refused`).
-/
import Assay.Proofs.Stages

namespace Assay.Evaluation

set_option autoImplicit false

open Bytes
open Exec (Outcome)

namespace Verdict

/-- What the flags of a verdict say of one another, of the job and of the trial. -/
structure Progressive (trial : Trial) (job : Job) (verdict : Verdict) : Prop where
  identifier : verdict.identifier = job.identifier
  missing : verdict.patchMissing = true ↔ job.patch = none
  present : verdict.patchExists = true ↔ verdict.patchMissing = false
  applied : verdict.patchApplied = true → verdict.patchExists = true
  resolved : verdict.resolved = true → verdict.patchApplied = true
  listed : verdict.tests.isSome = true ↔ verdict.patchApplied = true ∧ trial.withTests = true

variable {trial : Trial} {job : Job}

theorem withoutPatch_progressive (missing : job.patch = none) :
    (withoutPatch job.identifier).Progressive trial job := by
  constructor <;> simp [withoutPatch, missing]

theorem untested_progressive (present : job.patch ≠ none) :
    (untested job.identifier).Progressive trial job := by
  constructor <;> simp [untested, present]

theorem ofStatuses_progressive (present : job.patch ≠ none) (statuses : Test.Statuses) :
    (ofStatuses job statuses trial.withTests).Progressive trial job := by
  constructor <;> simp [ofStatuses, present]

/-- Whatever the log holds, and if there is none, the flags follow one another. -/
theorem ofLog_progressive (log : Option Bytes) :
    (ofLog job log trial.withTests).Progressive trial job := by
  unfold ofLog
  cases patch : job.patch with
  | none => exact withoutPatch_progressive patch
  | some text =>
      have present : job.patch ≠ none := by rw [patch]; exact Option.some_ne_none text
      cases log.bind Test.Log.grade? with
      | none => exact untested_progressive present
      | some statuses => exact ofStatuses_progressive present statuses

/-! ## With and without the tests -/

/-- The verdict without its list of tests. -/
def unlisted (verdict : Verdict) : Verdict :=
  { verdict with tests := none }

/-- To be asked for the tests changes nothing but that they are listed. -/
theorem unlisted_ofLog (job : Job) (log : Option Bytes) (withTests : Bool) :
    (ofLog job log withTests).unlisted = ofLog job log false := by
  unfold ofLog
  cases job.patch with
  | none => rfl
  | some text =>
      cases log.bind Test.Log.grade? with
      | none => rfl
      | some statuses => rfl

theorem resolved_ofLog (job : Job) (log : Option Bytes) (withTests : Bool) :
    (ofLog job log withTests).resolved = (ofLog job log false).resolved := by
  rw [← unlisted_ofLog job log withTests]
  rfl

end Verdict

namespace Trial

/-- Grading looks at what it lists for nothing else. -/
theorem unlisted_grade (trial : Trial) (job : Job) (withTests : Bool) :
    Verdict.unlisted <$> { trial with withTests }.grade job =
      Verdict.unlisted <$> trial.grade job := by
  unfold grade logPath
  simp only [map_bind, map_pure, Verdict.unlisted_ofLog, Verdict.resolved_ofLog]

/-- **A trial that lists the tests is the one that does not, but for the list.** -/
theorem unlisted_run (trial : Trial) (runner : Runner) (job : Job) (withTests : Bool) :
    Verdict.unlisted <$> { trial with withTests }.run runner job =
      Verdict.unlisted <$> trial.run runner job := by
  have lift : ∀ grading : Act Verdict,
      Verdict.unlisted <$> (liftM grading : Session Verdict) =
        (liftM (Verdict.unlisted <$> grading) : Session Verdict) := fun _ => rfl
  rw [run_eq_stages, run_eq_stages]
  simp only [map_bind]
  refine bind_congr fun stage => ?_
  cases stage with
  | settled verdict => rfl
  | ready changes script =>
      simp only [map_bind]
      refine bind_congr fun tested => ?_
      rw [lift, lift, unlisted_grade]

/-! ## Trials without a verdict -/

/-- The command that was issued last came to this fault. -/
def Refused (fault : Fault) (journal : List Issued) (_ : Host) : Prop :=
  ∃ issued, journal.getLast? = some issued ∧ issued.answer = .error fault

/-- The patch cannot be applied, for a reason of the trial or of the runner. -/
def Unapplied (fault : Fault) (journal : List Issued) (host : Host) : Prop :=
  (∃ message, fault = .evaluation message) ∨ Refused fault journal host

section

variable (trial : Trial) (job : Job) {runner : Runner} {host : Host} {journal : List Issued}

theorem issue_refused (command : Bytes) :
    (trial.issue runner command).Ends host journal (fun _ _ _ => True) Refused := by
  refine Session.Ends.get_bind (Session.Ends.act_bind (Session.Ends.modify_bind ?_))
  cases ((runner.run command trial.timeout).run host).1 with
  | ok outcome => exact Session.Ends.pure trivial
  | error fault => exact Session.Ends.throw ⟨_, List.getLast?_concat, rfl⟩

theorem captureDiff_refused (time : Bytes) :
    (trial.captureDiff runner job time).Ends host journal (fun _ _ _ => True) Refused :=
  Session.Ends.bind (trial.issue_refused _) fun _ _ _ _ =>
    Session.Ends.act_bind (Session.Ends.pure trivial)

theorem applyPatch_unapplied :
    (trial.applyPatch runner job).Ends host journal (fun _ _ _ => True) Unapplied := by
  have issued : ∀ command journal host,
      (trial.issue runner command).Ends host journal (fun _ _ _ => True) Unapplied :=
    fun command _ _ => (trial.issue_refused command).mono_fault fun _ _ _ => Or.inr
  refine Session.Ends.act_bind ?_
  split
  · exact Session.Ends.throw (Or.inl ⟨_, rfl⟩)
  · refine Session.Ends.bind (issued _ _ _) fun strict _ _ _ => ?_
    split
    · exact Session.Ends.act trivial
    · refine Session.Ends.act_bind (Session.Ends.bind (issued _ _ _) fun lenient _ _ _ => ?_)
      split
      · exact Session.Ends.act trivial
      · exact Session.Ends.act_bind (Session.Ends.throw (Or.inl ⟨_, rfl⟩))

/-- Before its test a trial is settled by a verdict of its own, if it is. -/
theorem toTest_progressive :
    (trial.toTest runner job).Ends host journal
      (fun stage _ _ => ∀ verdict, stage = .settled verdict → verdict.Progressive trial job)
      Refused := by
  refine Session.Ends.act_bind ?_
  cases patch : job.patch with
  | none =>
      refine Session.Ends.act_bind (Session.Ends.pure ?_)
      rintro _ ⟨⟩
      exact Verdict.withoutPatch_progressive patch
  | some text =>
      have present : job.patch ≠ none := by rw [patch]; exact Option.some_ne_none text
      refine Session.Ends.act_bind ?_
      have tried : (Session.attempt (trial.applyPatch runner job)).Ends
          (trial.openDirectory.run ((announce runner job).run host).2).2 journal
          (fun answer later after => ∀ fault, answer = .error fault → Unapplied fault later after)
          Refused := by
        refine Session.Ends.attempt ?_
        refine ((trial.applyPatch_unapplied job).mono fun _ _ _ _ => ?_).mono_fault
          fun fault _ _ unapplied => ?_
        · rintro _ ⟨⟩
        · rintro _ ⟨⟩
          exact unapplied
      refine Session.Ends.bind tried fun answer later after failed => ?_
      rcases answer with fault | _
      · cases fault with
        | evaluation message =>
            refine Session.Ends.act_bind (Session.Ends.pure ?_)
            rintro _ ⟨⟩
            exact Verdict.untested_progressive present
        | notReady cause =>
            refine Session.Ends.throw ((failed _ rfl).resolve_left ?_)
            rintro ⟨_, ⟨⟩⟩
        | other message =>
            refine Session.Ends.throw ((failed _ rfl).resolve_left ?_)
            rintro ⟨_, ⟨⟩⟩
      · refine Session.Ends.bind (trial.captureDiff_refused job _) fun changes _ _ _ => ?_
        refine Session.Ends.act_bind (Session.Ends.pure ?_)
        rintro _ ⟨⟩

theorem runTest_refused (changes script : Bytes) :
    (trial.runTest runner job changes script).Ends host journal (fun _ _ _ => True) Refused := by
  refine Session.Ends.bind (trial.issue_refused _) fun outcome _ _ _ => ?_
  refine Session.Ends.act_bind (Session.Ends.act_bind ?_)
  refine Session.Ends.act_or_not fun _ => ?_
  refine Session.Ends.bind (trial.captureDiff_refused job _) fun after _ _ _ => ?_
  refine Session.Ends.act_or_not fun _ => ?_
  exact Session.Ends.act_bind (Session.Ends.pure trivial)

/-- **The flags of a verdict follow one another**, in whatever host, with whatever runner and
after whatever commands the trial began; it ends without a verdict only where the runner has
no outcome for a command.  Whether the tests are listed makes no other difference. -/
theorem run_progressive (trial : Trial) (runner : Runner) (job : Job) (host : Host)
    (journal : List Issued) :
    (trial.run runner job).Ends host journal
        (fun verdict _ _ => verdict.Progressive trial job) Refused ∧
      ∀ withTests, Verdict.unlisted <$> { trial with withTests }.run runner job =
        Verdict.unlisted <$> trial.run runner job := by
  refine ⟨?_, trial.unlisted_run runner job⟩
  rw [run_eq_stages]
  refine Session.Ends.bind (trial.toTest_progressive job) fun stage _ _ settled => ?_
  cases stage with
  | settled verdict => exact Session.Ends.pure (settled verdict rfl)
  | ready changes script =>
      refine Session.Ends.bind (trial.runTest_refused job changes script) fun _ _ _ _ => ?_
      exact Session.Ends.act (Verdict.ofLog_progressive _)

end

end Trial

end Assay.Evaluation
