/-
# Assay.Proofs.Sessions -- what a session comes to

`Ends session host journal good bad` says how a session ends that begins in a host
with a journal: `good` holds of what it answers, or `bad` of the fault it fails with,
and of the journal and the host that it leaves.  The rule for each step of a session
asks only for what the step itself does; faults pass through to `bad` by themselves.
-/
import Assay.Evaluation.Trial
import Assay.Proofs.Acts

namespace Assay

set_option autoImplicit false

namespace Evaluation

open Bytes
open Exec (Outcome)

namespace Session

/-- What comes next begins with the journal and in the host that the first part leaves,
unless that failed. -/
theorem run_bind {α β : Type} (first : Session α) (next : α → Session β) (journal : List Issued)
    (host : Host) :
    ((first >>= next).run.run journal).run host =
      match (first.run.run journal).run host with
      | ((.ok a, later), after) => ((next a).run.run later).run after
      | ((.error fault, later), after) => ((.error fault, later), after) := by
  rw [run_failing_bind]
  rcases (first.run.run journal).run host with ⟨⟨a | fault, later⟩, after⟩ <;> rfl

theorem run_act_bind {α β : Type} (act : Act α) (next : α → Session β) (journal : List Issued)
    (host : Host) :
    ((liftM act >>= next).run.run journal).run host =
      ((next (act.run host).1).run.run journal).run (act.run host).2 :=
  rfl

theorem run_get_bind {α : Type} (next : Host → Session α) (journal : List Issued) (host : Host) :
    ((getThe Host >>= next).run.run journal).run host =
      ((next host).run.run journal).run host :=
  rfl

theorem run_modify_bind {α : Type} (change : List Issued → List Issued) (next : Unit → Session α)
    (journal : List Issued) (host : Host) :
    ((modifyThe (List Issued) change >>= next).run.run journal).run host =
      ((next ()).run.run (change journal)).run host :=
  rfl

/-- The session, begun in this host with this journal, ends well as `good` says, or
fails as `bad` says. -/
def Ends {α : Type} (session : Session α) (host : Host) (journal : List Issued)
    (good : α → List Issued → Host → Prop) (bad : Fault → List Issued → Host → Prop) : Prop :=
  match ((session.run.run journal).run host) with
  | ((.ok a, journal), host) => good a journal host
  | ((.error fault, journal), host) => bad fault journal host

section

variable {α β : Type} {host : Host} {journal : List Issued}
variable {good : α → List Issued → Host → Prop} {bad : Fault → List Issued → Host → Prop}

theorem Ends.pure {a : α} (here : good a journal host) :
    Ends (pure a) host journal good bad :=
  here

theorem Ends.throw {fault : Fault} (here : bad fault journal host) :
    Ends (throw fault) host journal good bad :=
  here

theorem Ends.mono {session : Session α} {weaker : α → List Issued → Host → Prop}
    (ends : session.Ends host journal good bad)
    (follows : ∀ a journal host, good a journal host → weaker a journal host) :
    session.Ends host journal weaker bad := by
  unfold Ends at ends ⊢
  rcases ended : (session.run.run journal).run host with ⟨⟨answer, later⟩, after⟩
  rw [ended] at ends
  cases answer with
  | ok a => exact follows a later after ends
  | error fault => exact ends

theorem Ends.mono_fault {session : Session α} {weaker : Fault → List Issued → Host → Prop}
    (ends : session.Ends host journal good bad)
    (follows : ∀ fault journal host, bad fault journal host → weaker fault journal host) :
    session.Ends host journal good weaker := by
  unfold Ends at ends ⊢
  rcases ended : (session.run.run journal).run host with ⟨⟨answer, later⟩, after⟩
  rw [ended] at ends
  cases answer with
  | ok a => exact ends
  | error fault => exact follows fault later after ends

/-- Every session ends somehow. -/
theorem Ends.anyhow {session : Session α} :
    session.Ends host journal (fun _ _ _ => True) (fun _ _ _ => True) := by
  unfold Ends
  split <;> trivial

/-- An act does not fail, and issues nothing. -/
theorem Ends.act {act : Act α} (here : good (act.run host).1 journal (act.run host).2) :
    Ends (act : Session α) host journal good bad :=
  here

/-- What comes next begins where the first part ended well. -/
theorem Ends.bind {first : Session α} {next : α → Session β}
    {between : α → List Issued → Host → Prop} {done : β → List Issued → Host → Prop}
    (start : first.Ends host journal between bad)
    (rest : ∀ a journal host, between a journal host → (next a).Ends host journal done bad) :
    (first >>= next).Ends host journal done bad := by
  unfold Ends at start ⊢
  rw [run_bind]
  rcases ended : (first.run.run journal).run host with ⟨⟨answer, later⟩, after⟩
  rw [ended] at start
  cases answer with
  | ok a => exact rest a later after start
  | error fault => exact start

/-- What comes after an act begins in the host that the act leaves. -/
theorem Ends.act_bind {act : Act β} {next : β → Session α}
    (rest : (next (act.run host).1).Ends (act.run host).2 journal good bad) :
    Ends (liftM act >>= next) host journal good bad :=
  rest

/-- An act that is left out at times makes no difference to what holds in any host. -/
theorem Ends.act_or_not {condition : Prop} [Decidable condition] {act : Act Unit}
    {next : Unit → Session α} (rest : ∀ host, (next ()).Ends host journal good bad) :
    Ends (if condition then liftM act >>= next else next ()) host journal good bad := by
  split
  · exact Ends.act_bind (rest _)
  · exact rest host

theorem Ends.get_bind {next : Host → Session α} (rest : (next host).Ends host journal good bad) :
    Ends (getThe Host >>= next) host journal good bad :=
  rest

theorem Ends.modify_bind {change : List Issued → List Issued} {next : Unit → Session α}
    (rest : (next ()).Ends host (change journal) good bad) :
    Ends (modifyThe (List Issued) change >>= next) host journal good bad :=
  rest

/-- An attempt does not fail: it answers what came of its body. -/
theorem Ends.attempt {body : Session β} {good : Except Fault β → List Issued → Host → Prop}
    (tried : body.Ends host journal (fun b => good (.ok b)) (fun fault => good (.error fault))) :
    (attempt body).Ends host journal good bad := by
  unfold Ends at tried ⊢
  rw [Session.attempt, ExceptT.run_lift, StateT.run_map, StateT.run_map]
  rcases ended : (body.run.run journal).run host with ⟨⟨answer, later⟩, after⟩
  rw [ended] at tried
  cases answer with
  | ok b => exact tried
  | error fault => exact tried

end

end Session

/-! ## Runners that answer -/

/-- The runner has an outcome for each command, whatever happened before. -/
def Runner.AlwaysAnswers (runner : Runner) : Prop :=
  ∀ command limit host, ∃ outcome, ((runner.run command limit).run host).1 = .ok outcome

namespace Issued

/-- It was this command, and it has an outcome. -/
def Was (issued : Issued) (command : Bytes) : Prop :=
  issued.command = command ∧ ∃ outcome, issued.answer = .ok outcome

def succeeded (issued : Issued) : Bool :=
  match issued.answer with
  | .ok outcome => outcome.succeeded
  | .error _ => false

end Issued

/-- What a runner that always answers makes of a command: it is entered in the
journal, with the host that it met and an outcome. -/
theorem Trial.issue_ends {runner : Runner} (answers : runner.AlwaysAnswers) (trial : Trial)
    (command : Bytes) {host : Host} {journal : List Issued}
    {bad : Fault → List Issued → Host → Prop} :
    (trial.issue runner command).Ends host journal
      (fun outcome later _ => ∃ issued : Issued, issued.Was command ∧ issued.host = host ∧
        issued.succeeded = outcome.succeeded ∧ later = journal ++ [issued]) bad := by
  obtain ⟨outcome, answered⟩ := answers command trial.timeout host
  refine Session.Ends.get_bind (Session.Ends.act_bind (Session.Ends.modify_bind ?_))
  rw [answered]
  exact Session.Ends.pure ⟨_, ⟨rfl, outcome, rfl⟩, rfl, rfl, rfl⟩

/-- What a session answers when a command has an outcome is that outcome. -/
theorem Trial.issue_outcome {runner : Runner} (trial : Trial) {command : Bytes} {host : Host}
    {journal : List Issued} {bad : Fault → List Issued → Host → Prop}
    (fails : ∀ fault, ((runner.run command trial.timeout).run host).1 = .error fault →
      ∀ later after, bad fault later after) :
    (trial.issue runner command).Ends host journal
      (fun outcome _ _ => ((runner.run command trial.timeout).run host).1 = .ok outcome) bad := by
  refine Session.Ends.get_bind (Session.Ends.act_bind (Session.Ends.modify_bind ?_))
  cases answered : ((runner.run command trial.timeout).run host).1 with
  | ok outcome => exact Session.Ends.pure rfl
  | error fault => exact Session.Ends.throw (fails fault answered _ _)

end Evaluation

end Assay
