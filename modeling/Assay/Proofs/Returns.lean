/-
# Assay.Proofs.Returns -- when a run of a supervisor returns

Between any two steps of a run others may add tasks, interrupt it, request a shutdown or take such
a request back, and time passes.  `playEvents` lets all this happen in an order that is given, one
run after the other.

A run of no tasks returns with its first step.  Any other returns three steps at the earliest
behind the one that decides it (`Watch.Decides`): that finds an interrupt or a shutdown pending, or
has each task say that it has exited.  All that a run asks of a child is whether it has exited
(`OnlyPolled`), and its last step takes a pending interrupt back, so that the next run is decided
by something else (`run_returns`).
-/
import Assay.Proofs.Interrupts
import Assay.Proofs.Registry
import Assay.Proofs.Stopping
import Mathlib.Data.List.Infix

namespace Assay.Supervise

set_option autoImplicit false

open Bytes
open Supervised (Leaves Ends)

/-! ## What happens to a supervisor -/

/-- What can happen to a supervisor and its host. -/
inductive Event where
  /-- A run begins, goes on by a step, or is interrupted. -/
  | move (made : Move)
  /-- A task is added, or cannot be. -/
  | add (launcher : Launcher) (name : Bytes) (command : List Bytes) (environment : Environment)
  /-- A signal requests a shutdown; zero takes the request back. -/
  | shutdown (signal : Int)
  /-- So many milliseconds pass. -/
  | pass (time : Nat)

namespace Event

/-- What comes of an event. -/
def make : Event → Watch → Watch
  | .move made, watch => made.make watch
  | .add launcher name command environment, watch =>
      let ((_, supervisor), host) :=
        ((Supervisor.add launcher name command environment).run.run watch.supervisor).run watch.host
      { watch with supervisor, host }
  | .shutdown signal, watch => { watch with host := ((requestShutdown signal).run watch.host).2 }
  | .pass time, watch =>
      let ((_, supervisor), host) :=
        ((Supervisor.passTime time).run.run watch.supervisor).run watch.host
      { watch with supervisor, host }

/-- The event is a step of the run. -/
def isStep : Event → Bool
  | .move .step => true
  | _ => false

theorem eq_step {event : Event} (isStep : event.isStep = true) : event = .move .step := by
  cases event with
  | move made =>
      cases made with
      | step => rfl
      | begin | interrupt => cases isStep
  | add | shutdown | pass => cases isStep

/-- The event is an interrupt. -/
def isInterrupt : Event → Bool
  | .move .interrupt => true
  | _ => false

end Event

/-- Let events happen, one after the other. -/
def playEvents (events : List Event) (watch : Watch) : Watch :=
  events.foldl (fun watch event => event.make watch) watch

theorem playEvents_concat (events : List Event) (event : Event) (watch : Watch) :
    playEvents (events ++ [event]) watch = event.make (playEvents events watch) := by
  rw [playEvents, List.foldl_append]
  rfl

/-- Where nothing else happens, the steps are a run. -/
theorem playEvents_steps (steps : Nat) (watch : Watch) :
    playEvents (List.replicate steps (.move .step)) watch =
      .reached (((Supervisor.runFrom steps watch.stage).run.run watch.supervisor).run
        watch.host) := by
  rw [← play_steps, ← List.map_replicate, playEvents, List.foldl_map]
  rfl

namespace Supervisor

variable {start between later supervisor : Supervisor}

/-! ## Polling -/

/-- All that was asked of the child of this number, the latest call in front. -/
def callsOf (supervisor : Supervisor) (number : Nat) : List Asked :=
  ((supervisor.children[number]?).map (·.calls)).getD []

/-- From the one supervisor to the other nothing was asked of any child but whether it has
exited. -/
def OnlyPolled (start later : Supervisor) : Prop :=
  ∀ number, ∃ new, later.callsOf number = new ++ start.callsOf number ∧
    ∀ asked ∈ new, asked.call = .poll

theorem OnlyPolled.of_children (same : later.children = start.children) :
    OnlyPolled start later := by
  intro number
  refine ⟨[], ?_, by simp⟩
  rw [callsOf, callsOf, same, List.nil_append]

theorem OnlyPolled.refl (supervisor : Supervisor) : OnlyPolled supervisor supervisor :=
  .of_children rfl

theorem OnlyPolled.trans (first : OnlyPolled start between) (second : OnlyPolled between later) :
    OnlyPolled start later := by
  intro number
  obtain ⟨early, isEarly, polls⟩ := first number
  obtain ⟨late, isLate, morePolls⟩ := second number
  refine ⟨late ++ early, ?_, List.forall_mem_append.2 ⟨morePolls, polls⟩⟩
  rw [isLate, isEarly, List.append_assoc]

theorem entering_onlyPolled {number : Nat} {watched : Watched}
    (found : supervisor.children[number]? = some watched) :
    OnlyPolled supervisor (supervisor.entering number watched .poll) := by
  intro other
  by_cases same : number = other
  · subst same
    refine ⟨[⟨supervisor.clock, .poll⟩], ?_, by simp⟩
    obtain ⟨known, -⟩ := List.getElem?_eq_some_iff.1 found
    rw [callsOf, callsOf, found, entering, List.getElem?_set_self known]
    rfl
  · refine ⟨[], ?_, by simp⟩
    rw [callsOf, callsOf, entering, List.getElem?_set_ne same, List.nil_append]

theorem registering_onlyPolled (name : Bytes) (child : Child) :
    OnlyPolled supervisor (supervisor.registering name child) := by
  intro number
  refine ⟨[], ?_, by simp⟩
  rw [callsOf, callsOf, registering, List.nil_append, List.getElem?_append]
  split
  · rfl
  · -- a child that was not there before was asked nothing, nor is a new one
    rename_i outside
    rw [List.getElem?_eq_none (Nat.le_of_not_lt outside)]
    cases found : [(⟨child, []⟩ : Watched)][number - supervisor.children.length]? with
    | none => rfl
    | some watched =>
        rw [List.mem_singleton.1 (List.mem_of_getElem? found)]
        rfl

/-- The tasks are polled one after the other, and each says that it has exited. -/
def SeesExits : List (Bytes × Task) → Supervisor → Prop
  | [], _ => True
  | (_, task) :: rest, supervisor => ∃ watched code,
      supervisor.children[task.child]? = some watched ∧
        watched.child.reply (⟨supervisor.clock, .poll⟩ :: watched.calls) = .ok (some code) ∧
        SeesExits rest (supervisor.entering task.child watched .poll)

/-- A poll that answers an exit code was entered with the child that gave it. -/
theorem poll_ends (number : Nat) :
    (ask number .poll).Ends supervisor fun answer later => ∀ code, answer = .ok (some code) →
      ∃ watched, supervisor.children[number]? = some watched ∧
        watched.child.reply (⟨supervisor.clock, .poll⟩ :: watched.calls) = .ok (some code) ∧
        later = supervisor.entering number watched .poll := by
  refine Ends.get_bind ?_
  split
  · exact Ends.pure nofun
  · rename_i watched found
    refine Ends.modify_bind ?_
    dsimp only
    cases replied : watched.child.reply (⟨supervisor.clock, .poll⟩ :: watched.calls) with
    | error text => exact fun _ => nofun
    | ok answer =>
        refine Ends.pure fun code exited => ?_
        cases exited
        exact ⟨watched, found, replied, rfl⟩

/-- **No task runs just where all of them say so, in one pass.** -/
theorem anyRunning_ends (entries : List (Bytes × Task)) :
    (anyRunning entries).Ends supervisor fun answer _ =>
      answer = .ok false → SeesExits entries supervisor := by
  induction entries generalizing supervisor with
  | nil => exact Ends.pure fun _ => trivial
  | cons entry rest ih =>
      obtain ⟨name, task⟩ := entry
      refine (poll_ends task.child).bind (fun text _ _ failed => by cases failed) ?_
      intro code later polled
      cases code with
      | none => exact Ends.pure nofun
      | some code =>
          obtain ⟨watched, found, replied, rfl⟩ := polled code rfl
          exact ih.mono fun _ _ sees none => ⟨watched, code, found, replied, sees none⟩

/-! ## One step -/

section

variable {post : Supervisor → Prop} (here : post supervisor)
  (polled : ∀ before number watched, post before → before.children[number]? = some watched →
    post (before.entering number watched .poll))
  (waited : ∀ before time, post before → post { before with clock := before.clock + time })

include here polled waited

/-- What polls, readers, the clock and the taking back of an interrupt keep, a step of a run
keeps. -/
theorem advance_leaves (read : ∀ before, post before → post before.reading)
    (cleared : ∀ before, post before → post { before with interrupted := false })
    (stage : Stage) : (advance stage).Leaves supervisor post := by
  cases stage with
  | starting =>
      refine Leaves.get_bind ?_
      split
      · exact Leaves.act_bind fun _ => Leaves.pure here
      · exact Leaves.act_bind fun _ => Leaves.modify_bind (Leaves.pure (read supervisor here))
  | checking => exact (mustEnd_leaves here).then fun _ _ here => Leaves.pure here
  | polling =>
      refine Leaves.get_bind ?_
      exact (anyRunning_leaves here polled waited _).then fun _ _ here => Leaves.pure here
  | pausing =>
      exact Leaves.get_bind (Leaves.modify_bind (Leaves.pure (waited supervisor _ here)))
  | reporting =>
      refine (mustEnd_leaves here).then fun ending _ here => ?_
      dsimp only
      split
      · exact Leaves.act_bind fun _ => Leaves.pure here
      · exact Leaves.pure here
  | clearing => exact Leaves.modify_bind (Leaves.pure (cleared supervisor here))
  | finished => exact Leaves.pure here

end

theorem advance_onlyPolls (supervisor : Supervisor) (stage : Stage) :
    (advance stage).Leaves supervisor (OnlyPolled supervisor) :=
  advance_leaves (.refl supervisor)
    (fun _ _ _ before found => before.trans (entering_onlyPolled found))
    (fun _ _ before => before.trans (.of_children rfl))
    (fun _ before => before.trans (.of_children rfl))
    (fun _ before => before.trans (.of_children rfl)) stage

/-- No step of a run makes an interrupt. -/
theorem advance_uninterrupted (none : supervisor.interrupted = false) (stage : Stage) :
    (advance stage).Leaves supervisor fun later => later.interrupted = false :=
  advance_leaves none (fun _ _ _ before _ => before) (fun _ _ => id) (fun _ => id)
    (fun _ _ => rfl) stage

end Supervisor

namespace Watch

variable {watch : Watch}

/-- The next step of the run. -/
def stepped (watch : Watch) : Watch :=
  Move.step.make watch

theorem reached_supervisor (ended : (Except Bytes Supervisor.Stage × Supervisor) × Host) :
    (reached ended).supervisor = ended.1.2 := by
  obtain ⟨⟨text | stage, later⟩, host⟩ := ended <;> rfl

theorem reached_stage (ended : (Except Bytes Supervisor.Stage × Supervisor) × Host) :
    (reached ended).stage = ended.1.1.toOption.getD .finished := by
  obtain ⟨⟨text | stage, later⟩, host⟩ := ended <;> rfl

theorem stepped_supervisor (watch : Watch) : watch.stepped.supervisor =
    (((Supervisor.advance watch.stage).run.run watch.supervisor).run watch.host).1.2 :=
  reached_supervisor _

/-- What the next step of the run answers. -/
def answer (watch : Watch) : Except Bytes Supervisor.Stage :=
  (((Supervisor.advance watch.stage).run.run watch.supervisor).run watch.host).1.1

theorem stepped_stage (watch : Watch) :
    watch.stepped.stage = watch.answer.toOption.getD .finished :=
  reached_stage _

/-- The run is in progress, and returns with its next step. -/
def Returns (watch : Watch) : Prop :=
  watch.stage ≠ .finished ∧ watch.answer = .ok .finished

/-- The next step looks for an interrupt, and one is pending. -/
structure FindsInterrupt (watch : Watch) : Prop where
  checking : watch.stage = .checking
  pending : watch.supervisor.interrupted = true

/-- The next step looks for a shutdown, and one is requested. -/
structure FindsShutdown (watch : Watch) : Prop where
  checking : watch.stage = .checking
  requested : watch.host.shutdownRequested = true

/-- The next step polls all tasks, and each says that it has exited. -/
structure FindsExits (watch : Watch) : Prop where
  polling : watch.stage = .polling
  exits : Supervisor.SeesExits watch.supervisor.tasks.toList watch.supervisor

/-- The next step of the run decides that it is to end. -/
inductive Decides (watch : Watch) : Prop
  | interrupt (finds : watch.FindsInterrupt)
  | shutdown (finds : watch.FindsShutdown)
  | exits (finds : watch.FindsExits)

/-- What a step of a run can answer, and where. -/
inductive CanAnswer (watch : Watch) : Except Bytes Supervisor.Stage → Prop
  | empty (starting : watch.stage = .starting) (none : watch.supervisor.size = 0) :
      CanAnswer watch (.ok .finished)
  | begun (starting : watch.stage = .starting) (some : watch.supervisor.size ≠ 0) :
      CanAnswer watch (.ok .checking)
  | decided (decides : watch.Decides) : CanAnswer watch (.ok .reporting)
  | toPoll (checking : watch.stage = .checking) : CanAnswer watch (.ok .polling)
  | toPause (polling : watch.stage = .polling) : CanAnswer watch (.ok .pausing)
  | failed (polling : watch.stage = .polling) (text : Bytes) : CanAnswer watch (.error text)
  | toCheck (pausing : watch.stage = .pausing) : CanAnswer watch (.ok .checking)
  | reported (reporting : watch.stage = .reporting) : CanAnswer watch (.ok .clearing)
  | cleared (clearing : watch.stage = .clearing) : CanAnswer watch (.ok .finished)
  | rested (finished : watch.stage = .finished) : CanAnswer watch (.ok .finished)

/-- A run begins where there are tasks. -/
theorem answer_starting (starting : watch.stage = .starting) :
    watch.answer = .ok (if watch.supervisor.size = 0 then .finished else .checking) := by
  obtain ⟨supervisor, stage, host⟩ := watch
  dsimp only at starting
  subst starting
  change (((ite (supervisor.size = 0) _ _ :
    Supervised Supervisor Supervisor.Stage).run.run supervisor).run host).1.1 = _
  dsimp only
  split <;> rfl

/-- **All that one step can come to.** -/
theorem canAnswer_answer (watch : Watch) : watch.CanAnswer watch.answer := by
  obtain ⟨supervisor, stage, host⟩ := watch
  cases stage with
  | starting =>
      rw [answer_starting rfl]
      split
      · rename_i none
        exact .empty rfl none
      · rename_i some
        exact .begun rfl some
  | checking =>
      have answers : answer ⟨supervisor, .checking, host⟩ =
          .ok (if supervisor.interrupted || host.shutdownRequested then .reporting
            else .polling) := by
        unfold answer Supervisor.advance
        rw [run_failing_bind, Supervisor.mustEnd_run]
        rfl
      rw [answers]
      cases pending : supervisor.interrupted with
      | true => exact .decided (.interrupt ⟨rfl, pending⟩)
      | false =>
          cases requested : host.shutdownRequested with
          | true => exact .decided (.shutdown ⟨rfl, requested⟩)
          | false => exact .toPoll rfl
  | polling =>
      have polls : answer ⟨supervisor, .polling, host⟩ =
          (((Supervisor.anyRunning supervisor.tasks.toList >>= fun running =>
            (pure (if running then .pausing else .reporting) :
              Supervised Supervisor Supervisor.Stage)).run.run supervisor).run host).1.1 := rfl
      have sees : (Supervisor.anyRunning supervisor.tasks.toList).Ends supervisor _ :=
        Supervisor.anyRunning_ends supervisor.tasks.toList
      have seen := sees host
      rw [polls, run_failing_bind]
      rcases ended : ((Supervisor.anyRunning supervisor.tasks.toList).run.run supervisor).run host
        with ⟨⟨text | running, later⟩, after⟩
      · exact .failed rfl text
      · cases running with
        | true => exact .toPause rfl
        | false =>
            rw [ended] at seen
            exact .decided (.exits ⟨rfl, seen rfl⟩)
  | pausing => exact .toCheck rfl
  | reporting =>
      have answers : answer ⟨supervisor, .reporting, host⟩ = .ok .clearing := by
        unfold answer Supervisor.advance
        rw [run_failing_bind, Supervisor.mustEnd_run]
        cases supervisor.interrupted || host.shutdownRequested <;> rfl
      rw [answers]
      exact .reported rfl
  | clearing => exact .cleared rfl
  | finished => exact .rested rfl

/-- A step that comes to a stage in which the run is still in progress answered that stage. -/
theorem canAnswer_of_stepped {stage : Supervisor.Stage} (stepped : watch.stepped.stage = stage)
    (goesOn : stage ≠ .finished) : watch.CanAnswer (.ok stage) := by
  have answers := watch.canAnswer_answer
  rw [stepped_stage] at stepped
  cases answered : watch.answer with
  | error text =>
      rw [answered] at stepped
      exact absurd stepped.symm goesOn
  | ok next =>
      rw [answered] at stepped answers
      exact stepped ▸ answers

theorem decides_of_reporting (reporting : watch.stepped.stage = .reporting) : watch.Decides := by
  cases canAnswer_of_stepped reporting nofun with
  | decided decides => exact decides

theorem reporting_of_clearing (clearing : watch.stepped.stage = .clearing) :
    watch.stage = .reporting := by
  cases canAnswer_of_stepped clearing nofun with
  | reported reporting => exact reporting

theorem stepped_ne_starting (watch : Watch) : watch.stepped.stage ≠ .starting :=
  fun starting => nomatch canAnswer_of_stepped starting nofun

/-- A run returns where it has no tasks, or with the step in which it takes an interrupt back. -/
theorem Returns.stage_cases (returns : watch.Returns) :
    watch.stage = .starting ∧ watch.supervisor.size = 0 ∨ watch.stage = .clearing := by
  obtain ⟨inProgress, answered⟩ := returns
  have answers := watch.canAnswer_answer
  rw [answered] at answers
  cases answers with
  | empty starting none => exact .inl ⟨starting, none⟩
  | cleared clearing => exact .inr clearing
  | rested finished => exact absurd finished inProgress

/-! ## One event -/

/-- What is not a step of the run does not bring it on, but may begin another one. -/
theorem stage_of_make {event : Event} (noStep : event.isStep = false)
    (notBegun : (event.make watch).stage ≠ .starting) :
    watch.stage = (event.make watch).stage := by
  cases event with
  | move made =>
      cases made with
      | step => cases noStep
      | interrupt => rfl
      | begin =>
          change (ite (watch.stage = .finished) _ _ : Watch).stage ≠ .starting at notBegun
          change watch.stage = (ite (watch.stage = .finished) _ _ : Watch).stage
          by_cases finished : watch.stage = .finished
          · rw [if_pos finished] at notBegun
            exact absurd rfl notBegun
          · rw [if_neg finished]
  | add | shutdown | pass => rfl

theorem begin_supervisor (watch : Watch) :
    (Move.begin.make watch).supervisor = watch.supervisor := by
  unfold Move.make
  dsimp only
  split <;> rfl

theorem make_onlyPolls (event : Event) (watch : Watch) :
    Supervisor.OnlyPolled watch.supervisor (event.make watch).supervisor := by
  cases event with
  | move made =>
      cases made with
      | begin => exact .of_children (congrArg Supervisor.children watch.begin_supervisor)
      | interrupt => exact .of_children rfl
      | step =>
          change Supervisor.OnlyPolled _ watch.stepped.supervisor
          rw [stepped_supervisor]
          exact Supervisor.advance_onlyPolls watch.supervisor watch.stage watch.host
  | add launcher name command environment =>
      change Supervisor.OnlyPolled _ (((Supervisor.add launcher name command environment).run.run
        watch.supervisor).run watch.host).1.2
      rw [Supervisor.add_run]
      rcases (watch.supervisor.launching launcher name command environment).run watch.host
        with ⟨text | child, after⟩
      · exact .refl watch.supervisor
      · exact Supervisor.registering_onlyPolled name child
  | shutdown signal => exact .refl watch.supervisor
  | pass time => exact .of_children rfl

theorem make_uninterrupted (event : Event) (quiet : event.isInterrupt = false)
    (none : watch.supervisor.interrupted = false) :
    (event.make watch).supervisor.interrupted = false := by
  cases event with
  | move made =>
      cases made with
      | interrupt => cases quiet
      | begin => exact (congrArg Supervisor.interrupted watch.begin_supervisor).trans none
      | step =>
          change watch.stepped.supervisor.interrupted = false
          rw [stepped_supervisor]
          exact Supervisor.advance_uninterrupted none watch.stage watch.host
  | add launcher name command environment =>
      change (((Supervisor.add launcher name command environment).run.run
        watch.supervisor).run watch.host).1.2.interrupted = false
      rw [Supervisor.add_run]
      rcases (watch.supervisor.launching launcher name command environment).run watch.host
        with ⟨text | child, after⟩ <;> exact none
  | shutdown | pass => exact none

/-! ## All events of a run -/

theorem playEvents_onlyPolls (events : List Event) (watch : Watch) :
    Supervisor.OnlyPolled watch.supervisor (playEvents events watch).supervisor := by
  induction events generalizing watch with
  | nil => exact .refl watch.supervisor
  | cons event rest ih => exact (make_onlyPolls event watch).trans (ih (event.make watch))

theorem playEvents_uninterrupted {events : List Event}
    (quiet : ∀ event ∈ events, event.isInterrupt = false)
    (none : watch.supervisor.interrupted = false) :
    (playEvents events watch).supervisor.interrupted = false := by
  induction events generalizing watch with
  | nil => exact none
  | cons event rest ih =>
      obtain ⟨now, later⟩ := List.forall_mem_cons.1 quiet
      exact ih later (make_uninterrupted event now none)

/-- The run that is in progress goes on through these events, and returns with the step behind
them. -/
structure ReturnsAfter (watch : Watch) (events : List Event) : Prop where
  goesOn : ∀ front, front <+: events → (playEvents front watch).stage ≠ .finished
  returns : (playEvents events watch).Returns

/-- Among the events is a step that is made where `here` holds, and so many are behind it. -/
def StepsAt (here : Watch → Prop) (behind : Nat) (watch : Watch) (events : List Event) : Prop :=
  ∃ front back, events = front ++ .move .step :: back ∧ here (playEvents front watch) ∧
    back.countP Event.isStep = behind

theorem StepsAt.now {here : Watch → Prop} {events : List Event}
    (holds : here (playEvents events watch)) : StepsAt here 0 watch (events ++ [.move .step]) :=
  ⟨events, [], rfl, holds, rfl⟩

theorem StepsAt.concat {here : Watch → Prop} {behind : Nat} {events : List Event}
    (steps : StepsAt here behind watch events) (event : Event) :
    StepsAt here (behind + if event.isStep then 1 else 0) watch (events ++ [event]) := by
  obtain ⟨front, back, rfl, holds, rfl⟩ := steps
  refine ⟨front, back ++ [event], by simp, holds, ?_⟩
  rw [List.countP_append, List.countP_singleton]

/-- What has been decided was decided by the last step that was made. -/
theorem decided_of_reporting {events : List Event} (notYet : watch.stage ≠ .reporting)
    (reporting : (playEvents events watch).stage = .reporting) :
    StepsAt Decides 0 watch events := by
  induction events using List.reverseRecOn with
  | nil => exact absurd reporting notYet
  | append_singleton before event ih =>
      rw [playEvents_concat] at reporting
      cases isStep : event.isStep with
      | true =>
          rw [Event.eq_step isStep] at reporting ⊢
          exact .now (decides_of_reporting reporting)
      | false =>
          have still : (playEvents before watch).stage = _ :=
            stage_of_make isStep (by simp [reporting])
          have steps := (ih (still.trans reporting)).concat event
          rwa [isStep] at steps

/-- A run that is about to take an interrupt back was decided by the last step but one. -/
theorem decided_of_clearing {events : List Event} (notDecided : watch.stage ≠ .reporting)
    (notYet : watch.stage ≠ .clearing) (clearing : (playEvents events watch).stage = .clearing) :
    StepsAt Decides 1 watch events := by
  induction events using List.reverseRecOn with
  | nil => exact absurd clearing notYet
  | append_singleton before event ih =>
      rw [playEvents_concat] at clearing
      cases isStep : event.isStep with
      | true =>
          rw [Event.eq_step isStep] at clearing ⊢
          exact (decided_of_reporting notDecided (reporting_of_clearing clearing)).concat _
      | false =>
          have still : (playEvents before watch).stage = _ :=
            stage_of_make isStep (by simp [clearing])
          have steps := (ih (still.trans clearing)).concat event
          rwa [isStep] at steps

/-- While a run goes on, no other begins. -/
theorem playEvents_ne_starting {events : List Event} (begun : watch.stage ≠ .starting)
    (goesOn : ∀ front, front <+: events → (playEvents front watch).stage ≠ .finished) :
    (playEvents events watch).stage ≠ .starting := by
  induction events using List.reverseRecOn with
  | nil => exact begun
  | append_singleton before event ih =>
      have earlier := ih fun front within => goesOn front (within.trans (List.prefix_append ..))
      have inProgress := goesOn before (List.prefix_append ..)
      rw [playEvents_concat]
      cases event with
      | move made =>
          cases made with
          | step => exact stepped_ne_starting _
          | interrupt => exact earlier
          | begin =>
              change (ite _ _ _ : Watch).stage ≠ .starting
              rw [if_neg inProgress]
              exact earlier
      | add | shutdown | pass => exact earlier

/-! ## The whole run -/

/-- A run is over with its first step just where there are no tasks. -/
theorem returns_iff_of_starting (starting : watch.stage = .starting) :
    watch.Returns ↔ watch.supervisor.size = 0 := by
  constructor
  · intro returns
    rcases returns.stage_cases with ⟨-, none⟩ | clearing
    · exact none
    · rw [starting] at clearing
      cases clearing
  · intro none
    refine ⟨by rw [starting]; nofun, ?_⟩
    rw [answer_starting starting, if_pos none]

/-- A run that has begun returns from the stage in which it takes an interrupt back. -/
theorem ReturnsAfter.clearing {events : List Event} (run : watch.ReturnsAfter events)
    (begun : watch.stage = .checking) : (playEvents events watch).stage = .clearing := by
  rcases run.returns.stage_cases with ⟨starting, -⟩ | clearing
  · exact absurd starting (playEvents_ne_starting (by simp [begun]) run.goesOn)
  · exact clearing

theorem ReturnsAfter.decided {events : List Event} (run : watch.ReturnsAfter events)
    (begun : watch.stage = .checking) : StepsAt Decides 1 watch events :=
  decided_of_clearing (by simp [begun]) (by simp [begun]) (run.clearing begun)

/-- A run that goes on behind its first step has tasks. -/
theorem ReturnsAfter.begun {events : List Event} (starting : watch.stage = .starting)
    (run : watch.stepped.ReturnsAfter events) : watch.stepped.stage = .checking := by
  have inProgress : watch.stepped.stage ≠ .finished := run.goesOn [] List.nil_prefix
  rw [stepped_stage, answer_starting starting] at inProgress ⊢
  split at inProgress
  · exact absurd rfl inProgress
  · rename_i some
    rw [if_neg some]
    rfl

/-- **When a run returns.**  A run of no tasks returns at once, and leaves all as it was.  Any
other, whatever happens meanwhile, returns behind a step that found an interrupt or a shutdown
pending, or had all tasks say in one pass that they have exited; it asks no child for anything
else; and it leaves no interrupt pending, so that the next run, if it is neither interrupted nor
finds a shutdown requested, returns behind such a pass. -/
theorem run_returns {called : Watch} (starting : called.stage = .starting) :
    (called.Returns ↔ called.supervisor.size = 0) ∧
      (called.supervisor.size = 0 → called.stepped.supervisor = called.supervisor) ∧
      ∀ during, called.stepped.ReturnsAfter during →
        let returned := (playEvents during called.stepped).stepped
        StepsAt Decides 1 called.stepped during ∧
          Supervisor.OnlyPolled called.supervisor returned.supervisor ∧
          returned.supervisor.interrupted = false ∧
          ∀ idle later, let again := playEvents idle returned
            again.stage = .starting → again.stepped.ReturnsAfter later →
              (∀ event ∈ idle ++ later, event.isInterrupt = false) →
              (∀ front, front <+: later →
                (playEvents front again.stepped).host.shutdownRequested = false) →
              StepsAt FindsExits 1 again.stepped later := by
  refine ⟨returns_iff_of_starting starting, fun none => ?_, fun during run => ?_⟩
  · have first : called.stepped = _ := make_step_starting starting
    rw [first, if_pos none]
  · have begun := ReturnsAfter.begun starting run
    have cleared : (playEvents during called.stepped).stepped.supervisor.interrupted = false := by
      have last : (playEvents during called.stepped).stepped = _ :=
        make_step_clearing (run.clearing begun)
      rw [last]
    refine ⟨run.decided begun, ?_, cleared, ?_⟩
    · exact (make_onlyPolls (.move .step) called).trans
        ((playEvents_onlyPolls during _).trans (make_onlyPolls (.move .step) _))
    · intro idle later again startsAgain runsAgain quiet unasked
      obtain ⟨quietIdle, quietLater⟩ := List.forall_mem_append.1 quiet
      have none := playEvents_uninterrupted quietIdle cleared
      have noneBegun : again.stepped.supervisor.interrupted = false :=
        make_uninterrupted (.move .step) rfl none
      obtain ⟨front, back, parts, decides, behind⟩ :=
        runsAgain.decided (ReturnsAfter.begun startsAgain runsAgain)
      refine ⟨front, back, parts, ?_, behind⟩
      cases decides with
      | exits finds => exact finds
      | shutdown finds =>
          have requested := finds.requested
          rw [unasked front ⟨_, parts.symm⟩] at requested
          cases requested
      | interrupt finds =>
          have quietFront : ∀ event ∈ front, event.isInterrupt = false := fun event member =>
            quietLater event (parts ▸ List.mem_append_left _ member)
          have pending := finds.pending
          rw [playEvents_uninterrupted quietFront noneBegun] at pending
          cases pending

/-! ## An interrupted run and the next one -/

/-- A task whose child exits with its second poll, and an interrupt that is pending. -/
def interruptedEarly : Watch where
  supervisor := { Supervisor.new 1 1 with
    tasks := KeyMap.insert ∅ (ascii "late") ⟨0, false⟩
    children := [⟨Plan.child { exits := some (1, 0) }, []⟩]
    interrupted := true }
  stage := .starting
  host := Host.bare

/-- Another task is added, and the next run begins. -/
def betweenRuns : List Event :=
  [.add (fun _ _ _ => return .ok (Plan.child { exited := some 3 })) (ascii "done") [] ∅,
    .move .begin]

/-- The tasks are polled twice, and it takes some time in between. -/
def secondRun : List Event :=
  [.move .step, .move .step, .pass 5, .move .step, .move .step, .move .step, .move .step]

/-- What holds of each part in a list of all parts from the start holds of all such parts. -/
theorem forall_of_inits {property : List Event → Prop} {events : List Event}
    (all : ∀ front ∈ events.inits, property front) (front : List Event)
    (within : front <+: events) : property front :=
  all front ((List.mem_inits front events).2 within)

theorem interruptedEarly_returns :
    let called := interruptedEarly
    let during : List Event := [.move .step, .move .step]
    let again := playEvents betweenRuns (playEvents during called.stepped).stepped
    called.stepped.ReturnsAfter during ∧ StepsAt FindsInterrupt 1 called.stepped during ∧
      again.stepped.ReturnsAfter secondRun ∧ StepsAt FindsExits 1 again.stepped secondRun := by
  intro called during again
  have first : called.stepped.ReturnsAfter during :=
    ⟨forall_of_inits (by decide +kernel), nofun, rfl⟩
  have second : again.stepped.ReturnsAfter secondRun :=
    ⟨forall_of_inits (by decide +kernel), by decide +kernel,
      ok_of_toOption_eq_some (by decide +kernel)⟩
  have unasked : ∀ front, front <+: secondRun →
      (playEvents front again.stepped).host.shutdownRequested = false :=
    forall_of_inits (by decide +kernel)
  obtain ⟨-, -, returns⟩ := @run_returns called rfl
  obtain ⟨-, -, -, waits⟩ := returns during first
  refine ⟨first, ⟨[], [.move .step], rfl, ⟨rfl, rfl⟩, rfl⟩, second, ?_⟩
  exact waits betweenRuns secondRun rfl second (by decide) unasked

end Watch

end Assay.Supervise
