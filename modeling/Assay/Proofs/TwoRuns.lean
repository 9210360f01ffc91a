/-
# Assay.Proofs.TwoRuns -- two runs side by side

What an act answers may depend on all of the host.  To say that some part of the host
makes no difference to it, the act is run twice, in hosts that differ in that part:
`Respects related act` says that from related hosts it answers the same and leaves
related hosts.  The rules follow the steps of an act, and of a session
(`Session.Agrees`); the journals of two sessions may differ, for they hold the hosts.
-/
import Assay.Proofs.Sessions

namespace Assay

set_option autoImplicit false

/-- The act answers the same in two hosts, and leaves related ones. -/
def Respects {α : Type} (related : Host → Host → Prop) (act : Act α) : Prop :=
  ∀ left right, related left right →
    (act.run left).1 = (act.run right).1 ∧ related (act.run left).2 (act.run right).2

section

variable {α β : Type} {related : Host → Host → Prop}

theorem Respects.pure (a : α) : Respects related (pure a : Act α) :=
  fun _ _ both => ⟨rfl, both⟩

theorem Respects.bind {act : Act α} {next : α → Act β} (first : Respects related act)
    (second : ∀ a, Respects related (next a)) : Respects related (act >>= next) := by
  intro left right both
  obtain ⟨same, after⟩ := first left right both
  have rest := second (act.run left).1 _ _ after
  change ((next (act.run left).1).run _).1 = ((next (act.run right).1).run _).1 ∧
    related ((next (act.run left).1).run _).2 ((next (act.run right).1).run _).2
  rw [← same]
  exact rest

/-- An act that looks at the host first does the same in both when what it sees there
leads it to the same. -/
theorem Respects.get_bind {next : Host → Act α} (same : ∀ left right, related left right →
      next left = next right) (rest : ∀ host, Respects related (next host)) :
    Respects related (get >>= next) := by
  intro left right both
  have after := rest left left right both
  change ((next left).run left).1 = ((next right).run right).1 ∧
    related ((next left).run left).2 ((next right).run right).2
  rw [← same left right both]
  exact after

/-- Hosts that are the same under a condition stay so. -/
theorem Respects.when_same (condition : Prop) {act : Act α} (respects : Respects related act) :
    Respects (fun left right => related left right ∧ (condition → left = right)) act := by
  rintro left right ⟨both, same⟩
  obtain ⟨answer, after⟩ := respects left right both
  exact ⟨answer, after, fun holds => by rw [same holds]⟩

theorem respects_modifyGet {change : Host → α × Host}
    (same : ∀ left right, related left right →
      (change left).1 = (change right).1 ∧ related (change left).2 (change right).2) :
    Respects related (modifyGet change : Act α) :=
  same

end

namespace Evaluation

open Exec (Outcome)

namespace Session

/-- The session answers the same in two hosts, with any journals, and what it answers
and the hosts that it leaves are as `post` has them. -/
def Agrees {α : Type} (session : Session α) (left right : Host)
    (post : Except Fault α → Host → Host → Prop) : Prop :=
  ∀ earlier later : List Issued,
    ((session.run.run earlier).run left).1.1 = ((session.run.run later).run right).1.1 ∧
      post ((session.run.run earlier).run left).1.1 ((session.run.run earlier).run left).2
        ((session.run.run later).run right).2

section

variable {α β : Type} {left right : Host} {related : Host → Host → Prop}
variable {post : Except Fault α → Host → Host → Prop}

theorem Agrees.pure {a : α} (here : post (.ok a) left right) : Agrees (pure a) left right post :=
  fun _ _ => ⟨rfl, here⟩

theorem Agrees.throw {fault : Fault} (here : post (.error fault) left right) :
    Agrees (throw fault) left right post :=
  fun _ _ => ⟨rfl, here⟩

theorem Agrees.act {act : Act α} (respects : Respects related act) (both : related left right)
    (here : ∀ a after after', related after after' → post (.ok a) after after') :
    Agrees (act : Session α) left right post := by
  intro earlier later
  obtain ⟨same, after⟩ := respects left right both
  exact ⟨congrArg Except.ok same, here _ _ _ after⟩

/-- What comes next agrees where the first part was answered; its faults are those of
the whole. -/
theorem Agrees.bind {first : Session α} {next : α → Session β}
    {done : Except Fault β → Host → Host → Prop} (start : first.Agrees left right post)
    (rest : ∀ a after after', post (.ok a) after after' → (next a).Agrees after after' done)
    (fails : ∀ fault after after', post (.error fault) after after' →
      done (.error fault) after after') :
    (first >>= next).Agrees left right done := by
  intro earlier later
  obtain ⟨same, ended⟩ := start earlier later
  rw [run_bind, run_bind]
  generalize (first.run.run earlier).run left = atLeft, (first.run.run later).run right = atRight
    at same ended ⊢
  obtain ⟨⟨answer, journal⟩, after⟩ := atLeft
  obtain ⟨⟨answer', journal'⟩, after'⟩ := atRight
  obtain rfl : answer = answer' := same
  cases answer with
  | ok a => exact rest a after after' ended journal journal'
  | error fault => exact ⟨rfl, fails fault after after' ended⟩

/-- What comes after an act agrees in the hosts that the act leaves. -/
theorem Agrees.act_bind {act : Act α} {next : α → Session β}
    {done : Except Fault β → Host → Host → Prop} (respects : Assay.Respects related act)
    (both : related left right)
    (rest : ∀ a after after', related after after' → (next a).Agrees after after' done) :
    (liftM act >>= next).Agrees left right done := by
  intro earlier later
  obtain ⟨same, after⟩ := respects left right both
  rw [run_act_bind, run_act_bind, ← same]
  exact rest (act.run left).1 _ _ after earlier later

/-- An act that is left out at times. -/
theorem Agrees.act_or_not {condition : Prop} [Decidable condition] {act : Act Unit}
    {next : Unit → Session β} {done : Except Fault β → Host → Host → Prop}
    (respects : Assay.Respects related act) (both : related left right)
    (rest : ∀ after after', related after after' → (next ()).Agrees after after' done) :
    (if condition then liftM act >>= next else next ()).Agrees left right done := by
  split
  · exact Agrees.act_bind respects both fun _ => rest
  · exact rest left right both

/-- An attempt answers what came of its body. -/
theorem Agrees.attempt {body : Session β} {post : Except Fault (Except Fault β) → Host → Host → Prop}
    (tried : body.Agrees left right fun answer => post (.ok answer)) :
    (attempt body).Agrees left right post := by
  intro earlier later
  obtain ⟨same, ended⟩ := tried earlier later
  rw [Session.attempt, ExceptT.run_lift, StateT.run_map, StateT.run_map, StateT.run_map,
    StateT.run_map]
  exact ⟨congrArg Except.ok same, ended⟩

/-- The session answers the same in related hosts, and leaves related ones. -/
def Respects (related : Host → Host → Prop) (session : Session α) : Prop :=
  ∀ left right, related left right → session.Agrees left right fun _ => related

theorem Respects.pure (a : α) : Respects related (pure a) :=
  fun _ _ both => Agrees.pure both

theorem Respects.throw (fault : Fault) : Respects related (throw fault : Session α) :=
  fun _ _ both => Agrees.throw both

theorem Respects.act {act : Act α} (respects : Assay.Respects related act) :
    Respects related (act : Session α) :=
  fun _ _ both => Agrees.act respects both fun _ _ _ after => after

theorem Respects.bind {first : Session α} {next : α → Session β} (start : Respects related first)
    (rest : ∀ a, Respects related (next a)) : Respects related (first >>= next) :=
  fun left right both => Agrees.bind (start left right both)
    (fun a after after' ended => rest a after after' ended) fun _ _ _ ended => ended

theorem Respects.attempt {body : Session α} (tried : Respects related body) :
    Respects related (attempt body) :=
  fun left right both => Agrees.attempt (tried left right both)

end

end Session

/-- To issue a command is to run it, and to enter it with the host that it met. -/
theorem Trial.issue_run (trial : Trial) (runner : Runner) (command : Bytes)
    (journal : List Issued) (host : Host) :
    ((trial.issue runner command).run.run journal).run host =
      (let ended := (runner.run command trial.timeout).run host
      ((ended.1, journal ++ [⟨command, trial.timeout, host, ended.1⟩]), ended.2)) := by
  rw [Trial.issue, Session.run_get_bind, Session.run_act_bind, Session.run_modify_bind]
  generalize (runner.run command trial.timeout).run host = ended
  obtain ⟨answer | answer, after⟩ := ended <;> rfl

/-- A command is issued alike when the runner respects what relates the hosts. -/
theorem Trial.respects_issue {runner : Runner} {related : Host → Host → Prop} (trial : Trial)
    {command : Bytes} (runs : Respects related (runner.run command trial.timeout)) :
    Session.Respects related (trial.issue runner command) := by
  intro left right both earlier later
  obtain ⟨same, after⟩ := runs left right both
  rw [trial.issue_run, trial.issue_run]
  exact ⟨same, after⟩

end Evaluation

end Assay
