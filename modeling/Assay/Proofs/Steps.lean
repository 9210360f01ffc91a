/-
# Assay.Proofs.Steps -- what a trial keeps from command to command

Between two commands a trial writes files and logs, and does nothing else to the host.
So an invariant of the journal and the host that does not look at files and streams
(`Indifferent`) is kept by a whole trial as soon as it is kept by each command that is
issued (`Trial.run_maintains`), whichever way the trial ends.  `Trial.Due` says which
commands these are, and in which hosts.
-/
import Assay.Proofs.Acts
import Assay.Proofs.Sessions

namespace Assay

set_option autoImplicit false

open Bytes

/-- The host but for its files, its sinks and its streams. -/
def Host.beyond (host : Host) : Host :=
  { host with files := .bare false, logger := ⟨.error, []⟩, streams := ∅ }

/-- An act that keeps what is beyond files, sinks and streams changes nothing but these. -/
theorem Keeps.run_eq {α : Type} {act : Act α} (keeps : Keeps Host.beyond act) (host : Host) :
    (act.run host).2 =
      { host with
        files := (act.run host).2.files
        logger := (act.run host).2.logger
        streams := (act.run host).2.streams } := by
  have same := keeps host
  generalize (act.run host).2 = after at same ⊢
  cases host
  cases after
  simp only [Host.beyond, Host.mk.injEq] at same ⊢
  simp only [same, and_self]

theorem keeps_beyond_log (level : Log.Level) (message : Bytes) :
    Keeps Host.beyond (Log.log level message) :=
  Log.keeps_log (fun _ _ _ _ => rfl) level message

theorem keeps_beyond_writeFile (path content : Bytes) :
    Keeps Host.beyond (writeFile path content) :=
  keeps_modifyGet fun _ => rfl

theorem keeps_beyond_makeDirectories (path : Bytes) :
    Keeps Host.beyond (makeDirectories path) :=
  keeps_modifyGet fun _ => rfl

namespace Evaluation

/-- What holds of the journal and the host. -/
abbrev Invariant := List Issued → Host → Prop

/-- Files, sinks and streams do not matter to it. -/
def Invariant.Indifferent (invariant : Invariant) : Prop :=
  ∀ journal (host : Host) files logger streams, invariant journal host →
    invariant journal { host with files := files, logger := logger, streams := streams }

namespace Session

/-- The invariant holds after the session, however it ends, when it held before. -/
def Maintains {α : Type} (invariant : Invariant) (session : Session α) : Prop :=
  ∀ journal host, invariant journal host →
    session.Ends host journal (fun _ => invariant) (fun _ => invariant)

section

variable {α β : Type} {invariant : Invariant}

/-- What a session that maintains the invariant leaves. -/
theorem Maintains.holds {session : Session α} (maintains : session.Maintains invariant)
    {journal : List Issued} {host : Host} (before : invariant journal host) :
    invariant ((session.run.run journal).run host).1.2 ((session.run.run journal).run host).2 := by
  have ends := maintains journal host before
  unfold Ends at ends
  generalize (session.run.run journal).run host = ended at ends ⊢
  obtain ⟨⟨answer, later⟩, after⟩ := ended
  cases answer with
  | ok a => exact ends
  | error fault => exact ends

theorem Maintains.pure (a : α) : Maintains invariant (pure a) :=
  fun _ _ holds => holds

theorem Maintains.throw (fault : Fault) : Maintains invariant (throw fault : Session α) :=
  fun _ _ holds => holds

theorem Maintains.bind {first : Session α} {next : α → Session β}
    (start : first.Maintains invariant) (rest : ∀ a, (next a).Maintains invariant) :
    (first >>= next).Maintains invariant :=
  fun journal host holds =>
    Ends.bind (start journal host holds) fun a journal host holds => rest a journal host holds

theorem Maintains.attempt {body : Session α} (tried : body.Maintains invariant) :
    (attempt body).Maintains invariant :=
  fun journal host holds => Ends.attempt (tried journal host holds)

variable (indifferent : invariant.Indifferent)

include indifferent

/-- After an act that changes files and streams only, the invariant still holds. -/
theorem holds_after {act : Act α} (keeps : Keeps Host.beyond act) {journal : List Issued}
    {host : Host} (holds : invariant journal host) : invariant journal (act.run host).2 := by
  rw [keeps.run_eq host]
  exact indifferent journal host _ _ _ holds

theorem Maintains.act {act : Act α} (keeps : Keeps Host.beyond act) :
    Maintains invariant (act : Session α) :=
  fun _ _ holds => holds_after indifferent keeps holds

theorem Maintains.log (level : Log.Level) (message : Bytes) :
    Maintains invariant (Log.log level message : Session Unit) :=
  Maintains.act indifferent (keeps_beyond_log level message)

/-- A record that is written at times. -/
theorem Maintains.log_or_not {condition : Prop} [Decidable condition] (level : Log.Level)
    (message : Bytes) {next : Unit → Session β} (rest : (next ()).Maintains invariant) :
    Maintains invariant
      (if condition then (Log.log level message : Session Unit) >>= next else next ()) := by
  split
  · exact (Maintains.log indifferent level message).bind fun _ => rest
  · exact rest

end

end Session

namespace Trial

/-- A command is entered in the journal with the host that it met, and what the host is
then is up to the runner. -/
theorem issue_enters (trial : Trial) (runner : Runner) (command : Bytes) {host : Host}
    {journal : List Issued} {holds : List Issued → Host → Prop}
    (answered : ∀ issued : Issued, issued.command = command → issued.host = host →
      holds (journal ++ [issued]) ((runner.run command trial.timeout).run host).2) :
    (trial.issue runner command).Ends host journal (fun _ => holds) (fun _ => holds) := by
  refine Session.Ends.get_bind (Session.Ends.act_bind (Session.Ends.modify_bind ?_))
  cases ((runner.run command trial.timeout).run host).1 with
  | ok outcome => exact Session.Ends.pure (answered _ rfl rfl)
  | error fault => exact Session.Ends.throw (answered _ rfl rfl)

/-- The commands that a trial of a job may issue in a host: the script that is run is
the one that was placed last. -/
inductive Due (trial : Trial) (job : Job) (host : Host) : Bytes → Prop
  | strict : Due trial job host (trial.strictCommand job)
  | lenient : Due trial job host (trial.lenientCommand job)
  | diff : Due trial job host (diffCommand job)
  | test {placing : Host} {script : Bytes}
      (placed : (trial.placeScript job).run placing = (script, host)) :
      Due trial job host (testCommand script)

theorem keeps_beyond_openDirectory (trial : Trial) : Keeps Host.beyond trial.openDirectory := by
  refine (keeps_beyond_makeDirectories _).bind fun refused => ?_
  cases refused with
  | none => exact Keeps.pure ()
  | some reason => exact keeps_beyond_log _ _

theorem keeps_beyond_placeScript (trial : Trial) (job : Job) :
    Keeps Host.beyond (trial.placeScript job) := by
  refine Keeps.bind (fun _ => rfl) fun host => ?_
  split
  · exact Keeps.pure _
  · refine (keeps_beyond_writeFile _ _).bind fun written => ?_
    cases written with
    | true => exact Keeps.pure _
    | false => exact (keeps_beyond_log _ _).bind fun _ => Keeps.pure _

section

variable {invariant : Invariant} {runner : Runner} (trial : Trial) (job : Job)
variable (indifferent : invariant.Indifferent)
variable (issues : ∀ command journal host, trial.Due job host command → invariant journal host →
  (trial.issue runner command).Ends host journal (fun _ => invariant) (fun _ => invariant))

include indifferent issues

theorem captureDiff_maintains (time : Bytes) :
    (trial.captureDiff runner job time).Maintains invariant :=
  Session.Maintains.bind (fun journal host => issues _ journal host .diff) fun _ =>
    (Session.Maintains.log indifferent _ _).bind fun _ => Session.Maintains.pure _

theorem applyPatch_maintains : (trial.applyPatch runner job).Maintains invariant := by
  refine (Session.Maintains.act indifferent (keeps_beyond_writeFile _ _)).bind fun written => ?_
  cases written with
  | false => exact Session.Maintains.throw _
  | true =>
      refine Session.Maintains.bind (fun journal host => issues _ journal host .strict)
        fun strict => ?_
      cases strict.succeeded with
      | true => exact Session.Maintains.log indifferent _ _
      | false =>
          refine (Session.Maintains.log indifferent _ _).bind fun _ => ?_
          refine Session.Maintains.bind (fun journal host => issues _ journal host .lenient)
            fun lenient => ?_
          cases lenient.succeeded with
          | true => exact Session.Maintains.log indifferent _ _
          | false =>
              exact (Session.Maintains.log indifferent _ _).bind fun _ => Session.Maintains.throw _

theorem test_maintains : (trial.test runner job).Maintains invariant := by
  refine (trial.captureDiff_maintains job indifferent issues _).bind fun before => ?_
  -- the script is run in the very host in which it was placed
  intro journal host holds
  refine Session.Ends.act_bind ?_
  refine Session.Ends.bind (issues _ journal _ (.test rfl) ?_) fun outcome later after holds => ?_
  · exact Session.holds_after indifferent (trial.keeps_beyond_placeScript job) holds
  · refine ((Session.Maintains.log indifferent _ _).bind fun _ => ?_) later after holds
    refine (Session.Maintains.act indifferent (keeps_beyond_writeFile _ _)).bind fun written => ?_
    refine Session.Maintains.log_or_not indifferent _ _ ?_
    refine (trial.captureDiff_maintains job indifferent issues _).bind fun after => ?_
    refine Session.Maintains.log_or_not indifferent _ _ ?_
    refine (Session.Maintains.log indifferent _ _).bind fun _ => ?_
    refine Session.Maintains.bind (fun _ _ holds => holds) fun host => ?_
    exact (Session.Maintains.log indifferent _ _).bind fun _ => Session.Maintains.pure _

/-- **A trial keeps what each of its commands keeps.** -/
theorem run_maintains : (trial.run runner job).Maintains invariant := by
  refine (Session.Maintains.log indifferent _ _).bind fun _ => ?_
  split
  · exact (Session.Maintains.log indifferent _ _).bind fun _ => Session.Maintains.pure _
  · refine (Session.Maintains.act indifferent trial.keeps_beyond_openDirectory).bind fun _ => ?_
    refine (Session.Maintains.attempt (trial.applyPatch_maintains job indifferent issues)).bind
      fun applied => ?_
    rcases applied with (message | cause | message) | _
    · exact (Session.Maintains.log indifferent _ _).bind fun _ => Session.Maintains.pure _
    · exact Session.Maintains.throw _
    · exact Session.Maintains.throw _
    · exact trial.test_maintains job indifferent issues

end

end Trial

end Evaluation

end Assay
