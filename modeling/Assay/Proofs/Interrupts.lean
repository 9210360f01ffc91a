/-
# Assay.Proofs.Interrupts -- what becomes of an interrupt

A supervisor is run by one party and interrupted by another, whose calls fall between any two
steps of a run.  A `Watch` is a supervisor with how far its run has come, and `play` lets both
parties make their moves in an order that is given.

A run looks for an interrupt before each look at its tasks, and once more to report it; its last
step takes the interrupt back without a look.  So an interrupt stays pending until a run reports
it (`Watch.Pending.play`), and a run that can poll its tasks is soon there
(`Watch.Pending.reports_or_fails`).  But one that comes between the report and the last step is
gone after that step, and no run has seen it: an interrupt is kept wherever it does not come
there, and only then (`Watch.keeps_interrupt_iff`).
-/
import Assay.Proofs.Tending

namespace Assay.Supervise

set_option autoImplicit false

open Bytes
open Supervised (Leaves)

/-! ## Moves of two parties -/

/-- A supervisor, how far its run has come, and the host.  Where no run is in progress the last
one is finished. -/
structure Watch where
  supervisor : Supervisor
  stage : Supervisor.Stage
  host : Host

/-- Where a run, or a step of it, comes to.  One that fails is finished. -/
def Watch.reached : (Except Bytes Supervisor.Stage × Supervisor) × Host → Watch
  | ((.ok stage, supervisor), host) => ⟨supervisor, stage, host⟩
  | ((.error _, supervisor), host) => ⟨supervisor, .finished, host⟩

/-- What the two parties do. -/
inductive Move where
  /-- Begin a run, unless one is in progress. -/
  | begin
  /-- One step of the run. -/
  | step
  /-- The other party interrupts. -/
  | interrupt
  deriving DecidableEq, Repr

def Move.make : Move → Watch → Watch
  | .begin, watch =>
      if watch.stage = .finished then { watch with stage := .starting } else watch
  | .step, watch =>
      .reached (((Supervisor.advance watch.stage).run.run watch.supervisor).run watch.host)
  | .interrupt, watch =>
      let ((_, supervisor), host) := (Supervisor.interrupt.run.run watch.supervisor).run watch.host
      { watch with supervisor, host }

/-- Make moves, one after the other. -/
def play (moves : List Move) (watch : Watch) : Watch :=
  moves.foldl (fun watch move => move.make watch) watch

theorem play_finished (steps : Nat) (supervisor : Supervisor) (host : Host) :
    play (List.replicate steps .step) ⟨supervisor, .finished, host⟩ =
      ⟨supervisor, .finished, host⟩ := by
  induction steps with
  | zero => rfl
  | succ steps ih => exact ih

/-- Steps that nobody interrupts are a run. -/
theorem play_steps (steps : Nat) (watch : Watch) :
    play (List.replicate steps .step) watch =
      .reached (((Supervisor.runFrom steps watch.stage).run.run watch.supervisor).run
        watch.host) := by
  induction steps generalizing watch with
  | zero =>
      obtain ⟨supervisor, stage, host⟩ := watch
      cases stage <;> rfl
  | succ steps ih =>
      obtain ⟨supervisor, stage, host⟩ := watch
      by_cases ended : stage = .finished
      · subst ended
        exact play_finished (steps + 1) supervisor host
      · have goesOn : Supervisor.runFrom (steps + 1) stage =
            Supervisor.advance stage >>= fun stage => Supervisor.runFrom steps stage := by
          cases stage <;> first | rfl | exact absurd rfl ended
        rw [goesOn, run_failing_bind, List.replicate_succ]
        change play (List.replicate steps .step)
          (.reached (((Supervisor.advance stage).run.run supervisor).run host)) = _
        rcases ((Supervisor.advance stage).run.run supervisor).run host
          with ⟨⟨text | stage, later⟩, after⟩
        · exact play_finished steps later after
        · exact ih ⟨later, stage, after⟩

/-! ## One step of a run -/

namespace Supervisor

/-- The stages that a step can come to while an interrupt is pending. -/
def Stage.behind : Stage → List Stage
  | .starting => [.checking, .finished]
  | .checking => [.reporting]
  | .polling => [.pausing, .reporting]
  | .pausing => [.checking]
  | .reporting => [.clearing]
  | .clearing => [.finished]
  | .finished => [.finished]

/-- How many steps there are before the one that reports, while an interrupt is pending. -/
def Stage.untilReport : Stage → Nat
  | .starting => 2
  | .checking => 1
  | .polling => 3
  | .pausing => 2
  | .reporting => 0
  | .clearing => 0
  | .finished => 0

/-- Every step but the one that reports brings a run closer to that one, or ends it. -/
theorem Stage.untilReport_lt {stage next : Stage} (follows : next ∈ stage.behind)
    (goesOn : next ≠ .finished) (notReporting : stage ≠ .reporting) :
    next.untilReport < stage.untilReport := by
  cases stage <;> simp_all [Stage.behind, Stage.untilReport]
  rcases follows with rfl | rfl <;> simp

theorem Stage.starting_not_mem_behind (stage : Stage) : .starting ∉ stage.behind := by
  cases stage <;> decide

/-- The words that a run reports an interrupt in. -/
def interruptReport : Bytes :=
  ascii "[supervisor] Received interrupt signal"

variable {supervisor : Supervisor}

/-- Asking a child neither makes an interrupt nor takes one back. -/
theorem anyRunning_interrupted (entries : List (Bytes × Task)) {interrupted : Bool}
    (here : supervisor.interrupted = interrupted) :
    (anyRunning entries).Leaves supervisor fun later => later.interrupted = interrupted :=
  anyRunning_leaves here (fun _ _ _ before _ => before) (fun _ _ => id) entries

/-- What a look for an interrupt or a shutdown finds. -/
theorem mustEnd_run (supervisor : Supervisor) (host : Host) :
    (mustEnd.run.run supervisor).run host =
      ((.ok (supervisor.interrupted || host.shutdownRequested), supervisor), host) := by
  change ((ite (supervisor.interrupted = true) (pure true) _ :
    Supervised Supervisor Bool).run.run supervisor).run host = _
  by_cases pending : supervisor.interrupted = true
  · rw [if_pos pending, pending, Bool.true_or]
    rfl
  · rw [if_neg pending, Bool.not_eq_true _ |>.mp pending, Bool.false_or]
    rfl

/-- A run that looks for an interrupt sees the one that is pending. -/
theorem mustEnd_bind {α : Type} (next : Bool → Supervised Supervisor α)
    (pending : supervisor.interrupted = true) (host : Host) :
    ((mustEnd >>= next).run.run supervisor).run host =
      ((next true).run.run supervisor).run host := by
  rw [run_failing_bind, mustEnd_run, pending, Bool.true_or]

end Supervisor

namespace Watch

/-- An interrupt is pending, and the run is not about to take it back. -/
structure Pending (watch : Watch) : Prop where
  interrupted : watch.supervisor.interrupted = true
  notClearing : watch.stage ≠ .clearing

/-- The next step of the run reports an interrupt. -/
structure Reports (watch : Watch) : Prop where
  interrupted : watch.supervisor.interrupted = true
  reporting : watch.stage = .reporting

/-- The next step of the run fails, for a child that cannot be polled. -/
structure Fails (watch : Watch) : Prop where
  polling : watch.stage = .polling
  finished : (Move.step.make watch).stage = .finished

variable {watch : Watch}

/-- The step that reports an interrupt logs it, and behind it the run is about to take it back. -/
theorem Reports.make_step (reports : watch.Reports) :
    Move.step.make watch = { watch with
      stage := .clearing
      host := ((Log.info Supervisor.interruptReport).run watch.host).2 } := by
  obtain ⟨supervisor, stage, host⟩ := watch
  obtain ⟨interrupted, reporting⟩ := reports
  dsimp only at interrupted reporting
  subst reporting
  exact congrArg reached (Supervisor.mustEnd_bind _ interrupted host)

/-- A run of no tasks is finished at once; any other begins. -/
theorem make_step_starting (starting : watch.stage = .starting) :
    Move.step.make watch =
      if watch.supervisor.size = 0 then
        { watch with
          stage := .finished
          host := ((Log.warn (ascii "[supervisor] No tasks to start")).run watch.host).2 }
      else
        { supervisor := watch.supervisor.reading
          stage := .checking
          host := ((Log.info (ascii "[supervisor] Starting task supervisor...")).run watch.host).2 } := by
  obtain ⟨supervisor, stage, host⟩ := watch
  dsimp only at starting
  subst starting
  change reached (((ite (supervisor.size = 0) _ _ :
    Supervised Supervisor Supervisor.Stage).run.run supervisor).run host) = _
  split <;> rfl

/-- Polling leaves a pending interrupt as it is, also when it fails. -/
theorem make_step_polling (polling : watch.stage = .polling)
    (interrupted : watch.supervisor.interrupted = true) :
    (Move.step.make watch).supervisor.interrupted = true ∧
      (Move.step.make watch).stage ∈
        [Supervisor.Stage.pausing, Supervisor.Stage.reporting, Supervisor.Stage.finished] := by
  obtain ⟨supervisor, stage, host⟩ := watch
  dsimp only at polling interrupted
  subst polling
  have kept := Supervisor.anyRunning_interrupted supervisor.tasks.toList interrupted host
  have polls : Move.step.make ⟨supervisor, .polling, host⟩ = reached
      (((Supervisor.anyRunning supervisor.tasks.toList >>= fun running =>
        (pure (if running then .pausing else .reporting) :
          Supervised Supervisor Supervisor.Stage)).run.run supervisor).run host) := rfl
  rw [run_failing_bind] at polls
  rcases ended : ((Supervisor.anyRunning supervisor.tasks.toList).run.run supervisor).run host
    with ⟨⟨text | running, later⟩, after⟩
  · rw [ended] at polls kept
    rw [polls]
    exact ⟨kept, by simp [reached]⟩
  · rw [ended] at polls kept
    rw [polls]
    cases running
    · exact ⟨kept, List.mem_cons_of_mem _ List.mem_cons_self⟩
    · exact ⟨kept, List.mem_cons_self⟩

/-- **What one step does to a pending interrupt**: it reports it, or it leaves it pending and comes
to a stage behind, or fails. -/
theorem Pending.make_step (pending : watch.Pending) :
    watch.Reports ∨ (Move.step.make watch).Pending ∧
      ((Move.step.make watch).stage ∈ watch.stage.behind ∨ watch.Fails) := by
  obtain ⟨supervisor, stage, host⟩ := watch
  obtain ⟨interrupted, notClearing⟩ := pending
  dsimp only at interrupted notClearing
  cases stage with
  | clearing => exact absurd rfl notClearing
  | reporting => exact .inl ⟨interrupted, rfl⟩
  | pausing => exact .inr ⟨⟨interrupted, nofun⟩, .inl List.mem_cons_self⟩
  | finished => exact .inr ⟨⟨interrupted, nofun⟩, .inl List.mem_cons_self⟩
  | checking =>
      have sees : Move.step.make ⟨supervisor, .checking, host⟩ = ⟨supervisor, .reporting, host⟩ :=
        congrArg reached (Supervisor.mustEnd_bind _ interrupted host)
      rw [sees]
      exact .inr ⟨⟨interrupted, nofun⟩, .inl List.mem_cons_self⟩
  | starting =>
      have begins : Move.step.make ⟨supervisor, .starting, host⟩ = _ := make_step_starting rfl
      split at begins
      · rw [begins]
        exact .inr ⟨⟨interrupted, nofun⟩, .inl (List.mem_cons_of_mem _ List.mem_cons_self)⟩
      · rw [begins]
        exact .inr ⟨⟨interrupted, nofun⟩, .inl List.mem_cons_self⟩
  | polling =>
      obtain ⟨kept, comes⟩ : (Move.step.make ⟨supervisor, .polling, host⟩).supervisor.interrupted =
          true ∧ (Move.step.make ⟨supervisor, .polling, host⟩).stage ∈ _ :=
        make_step_polling rfl interrupted
      simp only [List.mem_cons, List.not_mem_nil, or_false] at comes
      refine .inr ⟨⟨kept, ?_⟩, ?_⟩
      · rcases comes with comes | comes | comes <;> simp [comes]
      · rcases comes with pauses | reports | fails
        · exact .inl (by simp [pauses, Supervisor.Stage.behind])
        · exact .inl (by simp [reports, Supervisor.Stage.behind])
        · exact .inr ⟨rfl, fails⟩

/-- What any move does to a pending interrupt. -/
theorem Pending.make (pending : watch.Pending) (move : Move) :
    move = .step ∧ watch.Reports ∨ (move.make watch).Pending := by
  cases move with
  | step =>
      rcases pending.make_step with reports | ⟨later, -⟩
      · exact .inl ⟨rfl, reports⟩
      · exact .inr later
  | interrupt => exact .inr ⟨rfl, pending.notClearing⟩
  | begin =>
      refine .inr ?_
      unfold Move.make
      dsimp only
      split
      · exact ⟨pending.interrupted, nofun⟩
      · exact pending

/-- Among the moves is a step that is made where `here` holds. -/
def Steps (here : Watch → Prop) (watch : Watch) (moves : List Move) : Prop :=
  ∃ front back, moves = front ++ .step :: back ∧ here (play front watch)

theorem Steps.head {here : Watch → Prop} (now : here watch) (rest : List Move) :
    Steps here watch (.step :: rest) :=
  ⟨[], rest, rfl, now⟩

theorem Steps.cons {here : Watch → Prop} {move : Move} {rest : List Move}
    (later : Steps here (move.make watch) rest) : Steps here watch (move :: rest) := by
  obtain ⟨front, back, rfl, there⟩ := later
  exact ⟨move :: front, back, rfl, there⟩

/-- **An interrupt stays pending until a run reports it**, whatever moves are made. -/
theorem Pending.play (pending : watch.Pending) (moves : List Move) :
    (play moves watch).Pending ∨ Steps Reports watch moves := by
  induction moves generalizing watch with
  | nil => exact .inl pending
  | cons move rest ih =>
      rcases pending.make move with ⟨rfl, reports⟩ | later
      · exact .inr (.head reports rest)
      · exact (ih later).imp_right .cons

/-- The step in which a run takes an interrupt back. -/
theorem make_step_clearing (clearing : watch.stage = .clearing) :
    Move.step.make watch =
      { watch with
        supervisor := { watch.supervisor with interrupted := false }
        stage := .finished } := by
  obtain ⟨supervisor, stage, host⟩ := watch
  dsimp only at clearing
  subst clearing
  rfl

/-- A run of tasks that is in progress is not finished behind a step that does not fail, while an
interrupt is pending. -/
theorem make_step_ne_finished (pending : watch.Pending) (inProgress : watch.stage ≠ .finished)
    (hasTasks : watch.stage = .starting → watch.supervisor.size ≠ 0)
    (follows : (Move.step.make watch).stage ∈ watch.stage.behind) :
    (Move.step.make watch).stage ≠ .finished := by
  intro ended
  rw [ended] at follows
  cases here : watch.stage with
  | starting =>
      rw [make_step_starting here, if_neg (hasTasks here)] at ended
      cases ended
  | clearing => exact pending.notClearing here
  | finished => exact inProgress here
  | checking | polling | pausing | reporting => simp [here, Supervisor.Stage.behind] at follows

/-- **A run that is in progress reports a pending interrupt within four steps**, unless it
fails before, however often it is interrupted again. -/
theorem Pending.reports_or_fails (pending : watch.Pending) {moves : List Move}
    (inProgress : watch.stage ≠ .finished)
    (hasTasks : watch.stage = .starting → watch.supervisor.size ≠ 0)
    (enough : watch.stage.untilReport < moves.count .step) :
    Steps Reports watch moves ∨ Steps Fails watch moves := by
  induction moves generalizing watch with
  | nil => simp at enough
  | cons move rest ih =>
      cases move with
      | begin =>
          have same : Move.begin.make watch = watch := if_neg inProgress
          have remaining : watch.stage.untilReport < rest.count .step := by simpa using enough
          have goesOn := ih pending inProgress hasTasks remaining
          rw [← same] at goesOn
          exact goesOn.imp .cons .cons
      | interrupt =>
          have remaining : watch.stage.untilReport < rest.count .step := by simpa using enough
          have still : (Move.interrupt.make watch).Pending := ⟨rfl, pending.notClearing⟩
          exact (ih still inProgress hasTasks remaining).imp .cons .cons
      | step =>
          rcases pending.make_step with reports | ⟨still, follows | fails⟩
          · exact .inl (.head reports rest)
          · have notReporting : watch.stage ≠ .reporting := by
              intro reporting
              have reports : watch.Reports := ⟨pending.interrupted, reporting⟩
              exact still.notClearing (by rw [reports.make_step])
            have goesOn := make_step_ne_finished pending inProgress hasTasks follows
            have closer := Supervisor.Stage.untilReport_lt follows goesOn notReporting
            have notStarting : (Move.step.make watch).stage ≠ .starting := by
              intro starting
              exact Supervisor.Stage.starting_not_mem_behind _ (starting ▸ follows)
            rw [List.count_cons_self] at enough
            have remaining : (Move.step.make watch).stage.untilReport < rest.count .step := by omega
            exact (ih still goesOn (absurd · notStarting) remaining).imp .cons .cons
          · exact .inr (.head fails rest)

/-- **An interrupt is kept until a run reports it just where it does not come between the
report of a run and its last step.** -/
theorem keeps_interrupt_iff (watch : Watch) :
    (∀ moves, (play moves (Move.interrupt.make watch)).supervisor.interrupted = true ∨
      Steps Reports (Move.interrupt.make watch) moves) ↔ watch.stage ≠ .clearing := by
  constructor
  · intro kept clearing
    rcases kept [.step] with still | ⟨front, back, parts, reports⟩
    · have taken : Move.step.make (Move.interrupt.make watch) = _ := make_step_clearing clearing
      change (Move.step.make (Move.interrupt.make watch)).supervisor.interrupted = true at still
      rw [taken] at still
      cases still
    · -- the only step is the one in which the run ends
      cases front with
      | nil =>
          have reporting : watch.stage = .reporting := reports.reporting
          rw [clearing] at reporting
          cases reporting
      | cons move more => simp at parts
  · intro notClearing moves
    have pending : (Move.interrupt.make watch).Pending := ⟨rfl, notClearing⟩
    exact (pending.play moves).imp_left (·.interrupted)

/-- A run of one task, which has exited, comes to that place without an interrupt, and takes back
the one that it meets there. -/
example :
    let exited : Child := ⟨1, none, none, fun _ => .ok (some 0)⟩
    let supervisor : Supervisor :=
      { Supervisor.new 1 1 with
        tasks := KeyMap.insert ∅ (ascii "job") ⟨0, true⟩
        children := [⟨exited, []⟩] }
    let ending := play (.begin :: List.replicate 4 .step) ⟨supervisor, .finished, Host.bare⟩
    let ended := play [.interrupt, .step] ending
    ending.stage = .clearing ∧ ended.stage = .finished ∧ ended.supervisor.interrupted = false :=
  ⟨rfl, rfl, rfl⟩

end Watch

end Assay.Supervise
