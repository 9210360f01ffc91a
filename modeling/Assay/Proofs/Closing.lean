/-
# Assay.Proofs.Closing -- no task is left behind when the tools end

To stop a task by force is to poll its child and, unless that has exited, to kill it; a
request that fails is only logged.  So where polls answer, each child is seen to its end
(`Watched.SeenToEnd`), whatever it does with the requests, and whatever the others do
(`stopAll_settles`).

`Tools.start` stops all tasks once, as the last thing it does, also when something failed
before (`start_run`).  What it demands of its supervisor can be read off the notes of a
`History`; without them it is the same run (`Mirrors`).
-/
import Assay.Proofs.Registry
import Assay.Supervise.Plan
import Assay.Supervise.Tools

namespace Assay.Supervise

set_option autoImplicit false

open Bytes
open Supervised (Leaves)

/-! ## Polls that answer -/

/-- No poll of the child fails. -/
def Child.AnswersPolls (child : Child) : Prop :=
  ∀ time calls, ∃ code, child.reply (⟨time, .poll⟩ :: calls) = .ok code

/-- No poll of a child that is launched fails. -/
def Launcher.AnswersPolls (launcher : Launcher) : Prop :=
  ∀ time command environment host child,
    ((launcher time command environment).run host).1 = .ok child → child.AnswersPolls

theorem Child.ofProcess_answersPolls (process : Process) (output errors : Bytes) :
    (Child.ofProcess process output errors).AnswersPolls :=
  fun _ _ => ⟨_, rfl⟩

/-- Processes answer polls. -/
theorem Launcher.ofSpawner_answersPolls (spawner : Spawner) :
    (Launcher.ofSpawner spawner).AnswersPolls := by
  intro time command environment host
  change Ensures (Launcher.ofSpawner spawner time command environment) host fun answer _ =>
    ∀ child, answer = .ok child → child.AnswersPolls
  refine Ensures.get_bind ?_
  dsimp only
  split
  · exact Ensures.pure fun child launched => by cases launched
  · refine Ensures.bind_run ?_
    split
    · exact Ensures.pure fun child launched => by cases launched
    · refine Ensures.pure fun child launched => ?_
      cases launched
      exact Child.ofProcess_answersPolls _ _ _

/-- Children that follow a plan answer polls, whatever they do when they are asked to end. -/
theorem Plan.child_answersPolls (plan : Plan) : plan.child.AnswersPolls := by
  intro time calls
  let progress := calls.reverse.foldl plan.step ⟨0, plan.exited, .ok plan.exited⟩
  refine ⟨(plan.step progress ⟨time, .poll⟩).exited, ?_⟩
  change ((Asked.mk time .poll :: calls).reverse.foldl plan.step _).answer = _
  rw [List.reverse_cons, List.foldl_append]
  rfl

namespace Supervisor

/-- The tasks have children, and no poll of these fails. -/
def AnswersPolls (supervisor : Supervisor) : Prop :=
  ∀ name task, supervisor.tasks.get? name = some task →
    ∃ watched, supervisor.children[task.child]? = some watched ∧ watched.child.AnswersPolls

variable {start between later supervisor : Supervisor} {number : Nat}

theorem Consulted.answersPolls (asked : Consulted start later) (answers : start.AnswersPolls) :
    later.AnswersPolls := by
  intro name task found
  rw [asked.tasks] at found
  obtain ⟨watched, isChild, answersPolls⟩ := answers name task found
  obtain ⟨new, isNow⟩ := asked.grown task.child watched isChild
  exact ⟨_, isNow, answersPolls⟩

theorem Registers.answersPolls {registered : List (Bytes × Child)}
    (registers : Registers registered supervisor)
    (answers : ∀ entry ∈ registered, entry.2.AnswersPolls) : supervisor.AnswersPolls := by
  intro name task found
  have inside := registers.child_lt found
  refine ⟨_, List.getElem?_eq_getElem inside, ?_⟩
  have member : supervisor.children[task.child].child ∈ supervisor.children.map (·.child) :=
    List.mem_map_of_mem (List.getElem_mem inside)
  rw [registers.children] at member
  obtain ⟨entry, isRegistered, same⟩ := List.mem_map.1 member
  rw [← same]
  exact answers entry isRegistered

theorem launching_answersPolls {launcher : Launcher} (answers : launcher.AnswersPolls)
    {name : Bytes} {command : List Bytes} {environment : Environment} {host : Host} {child : Child}
    (launched : ((supervisor.launching launcher name command environment).run host).1 = .ok child) :
    child.AnswersPolls := by
  unfold launching at launched
  split at launched <;> exact answers _ _ _ _ _ launched

end Supervisor

theorem History.registered_answersPolls {launcher : Launcher} (answers : launcher.AnswersPolls)
    {history : History} {entry : Bytes × Child} (member : entry ∈ history.registered launcher) :
    entry.2.AnswersPolls := by
  obtain ⟨met, -, added⟩ := List.mem_filterMap.1 member
  obtain ⟨⟨name, launched⟩, isLaunched, isEntry⟩ := Option.bind_eq_some_iff.1 added
  obtain ⟨child, isChild, rfl⟩ := Option.map_eq_some_iff.1 isEntry
  unfold Met.launched? at isLaunched
  split at isLaunched
  · cases isLaunched
    exact Supervisor.launching_answersPolls answers (ok_of_toOption_eq_some isChild)
  · cases isLaunched

/-! ## Stopping by force -/

/-- Among the new calls with the child is one to kill it, or a poll that found it exited. -/
def Watched.SeenToEnd (watched : Watched) (new : List Asked) : Prop :=
  (∃ time, ⟨time, .kill⟩ ∈ new) ∨
    ∃ later time earlier code, new = later ++ ⟨time, .poll⟩ :: earlier ∧
      watched.child.reply (⟨time, .poll⟩ :: (earlier ++ watched.calls)) = .ok (some code)

namespace Watched.SeenToEnd

variable {watched : Watched} {new old : List Asked}

theorem append_left (seen : watched.SeenToEnd new) (more : List Asked) :
    watched.SeenToEnd (more ++ new) := by
  rcases seen with ⟨time, killed⟩ | ⟨later, time, earlier, code, rfl, exited⟩
  · exact .inl ⟨time, List.mem_append_right _ killed⟩
  · exact .inr ⟨more ++ later, time, earlier, code, (List.append_assoc ..).symm, exited⟩

theorem append_right
    (seen : { watched with calls := old ++ watched.calls : Watched }.SeenToEnd new) :
    watched.SeenToEnd (new ++ old) := by
  rcases seen with ⟨time, killed⟩ | ⟨later, time, earlier, code, rfl, exited⟩
  · exact .inl ⟨time, List.mem_append_left _ killed⟩
  · refine .inr ⟨later, time, earlier ++ old, code, ?_, ?_⟩
    · rw [List.append_assoc, List.cons_append]
    · rw [List.append_assoc]
      exact exited

end Watched.SeenToEnd

namespace Supervisor

/-- From the one supervisor to the other, the child of this number was seen to its end. -/
def Settles (start later : Supervisor) (number : Nat) : Prop :=
  ∃ watched new, start.children[number]? = some watched ∧
    later.children[number]? = some { watched with calls := new ++ watched.calls } ∧
    watched.SeenToEnd new

variable {start between later supervisor : Supervisor} {number : Nat}

theorem Settles.consulted (settles : start.Settles between number)
    (asked : Consulted between later) : start.Settles later number := by
  obtain ⟨watched, new, found, isNow, seen⟩ := settles
  obtain ⟨more, isLater⟩ := asked.grown number _ isNow
  refine ⟨watched, more ++ new, found, ?_, seen.append_left more⟩
  rw [isLater, List.append_assoc]

theorem Consulted.settles {watched : Watched} (asked : Consulted start between)
    (found : start.children[number]? = some watched) (settles : between.Settles later number) :
    start.Settles later number := by
  obtain ⟨old, isNow⟩ := asked.grown number watched found
  obtain ⟨again, new, isAgain, isLater, seen⟩ := settles
  rw [isNow] at isAgain
  cases isAgain
  refine ⟨watched, new ++ old, found, ?_, seen.append_right⟩
  rw [isLater, List.append_assoc]

theorem entering_found {watched : Watched} (found : supervisor.children[number]? = some watched)
    (call : Call) : (supervisor.entering number watched call).children[number]? =
      some { watched with calls := ⟨supervisor.clock, call⟩ :: watched.calls } :=
  List.getElem?_set_self (List.getElem?_eq_some_iff.1 found).1

/-- A poll that answers leads on with its answer. -/
theorem poll_bind {α : Type} {next : Option Int → Supervised Supervisor α} {watched : Watched}
    {code : Option Int} {post : Supervisor → Prop}
    (found : supervisor.children[number]? = some watched)
    (answered : watched.child.reply (⟨supervisor.clock, .poll⟩ :: watched.calls) = .ok code)
    (rest : (next code).Leaves (supervisor.entering number watched .poll) post) :
    (ask number .poll >>= next).Leaves supervisor post := by
  rw [ask, bind_assoc]
  refine Leaves.get_bind ?_
  simp only [found, bind_assoc]
  refine Leaves.modify_bind ?_
  simp only [answered, pure_bind]
  exact rest

/-- To end a child by force is to kill it first. -/
theorem endChild_kills {watched : Watched} (found : supervisor.children[number]? = some watched)
    (current : supervisor.HasChild number) (name : Bytes) :
    (endChild name number true).Leaves supervisor
      (Consulted (supervisor.entering number watched .kill)) := by
  have killing : (ask number .kill).Leaves supervisor
      (Consulted (supervisor.entering number watched .kill)) := by
    refine ask_leaves number .kill ?_ ?_ ?_
    · intro missing
      rw [found] at missing
      cases missing
    · intro again isFound
      rw [found] at isFound
      cases isFound
      exact .refl _
    · exact fun _ _ asked => asked.trans (.of_children rfl rfl rfl)
  exact endChild_leaves (((entering_consulted found current .kill).hasChild_iff number).2 current)
    name true killing

theorem halt_settles {watched : Watched} (found : supervisor.children[number]? = some watched)
    (answers : watched.child.AnswersPolls) (current : supervisor.HasChild number) (name : Bytes) :
    (halt name number true).Leaves supervisor (supervisor.Settles · number) := by
  obtain ⟨code, answered⟩ := answers supervisor.clock watched.calls
  refine poll_bind found answered ?_
  have polled := entering_found found .poll
  cases code with
  | some code =>
      refine Leaves.act_bind fun _ => Leaves.pure ?_
      exact ⟨watched, [⟨supervisor.clock, .poll⟩], found, polled,
        .inr ⟨[], supervisor.clock, [], code, rfl, answered⟩⟩
  | none =>
      refine fun host => Settles.consulted ?_ (endChild_kills polled current name host)
      exact ⟨watched, [⟨supervisor.clock, .kill⟩, ⟨supervisor.clock, .poll⟩], found,
        entering_found polled .kill, .inl ⟨supervisor.clock, List.mem_cons_self⟩⟩

theorem stop_settles (answers : supervisor.AnswersPolls) {name : Bytes} {task : Task}
    (found : supervisor.tasks.get? name = some task) :
    (stop name true).Leaves supervisor (supervisor.Settles · task.child) := by
  obtain ⟨watched, isChild, answersPolls⟩ := answers name task found
  refine Leaves.get_bind ?_
  rw [found]
  refine (halt_settles isChild answersPolls ⟨name, task, found, rfl⟩ name).lift.then ?_
  intro tried later settles
  cases tried with
  | ok stopped => exact Leaves.pure settles
  | error text => exact Leaves.act_bind fun _ => Leaves.pure settles

theorem stopEach_settles (answers : start.AnswersPolls) (asked : Consulted start supervisor)
    (names : List Bytes) :
    (stopEach true names).Leaves supervisor fun later =>
      ∀ name ∈ names, ∀ task, start.tasks.get? name = some task →
        start.Settles later task.child := by
  induction names generalizing supervisor with
  | nil => exact Leaves.pure fun _ member => absurd member List.not_mem_nil
  | cons name rest ih =>
      have first : (stop name true).Leaves supervisor fun later => Consulted start later ∧
          ∀ task, start.tasks.get? name = some task → start.Settles later task.child := by
        refine fun host => ⟨asked.trans (stop_consults supervisor name true host), ?_⟩
        intro task found
        obtain ⟨watched, isChild, -⟩ := answers name task found
        refine asked.settles isChild (stop_settles (asked.answersPolls answers) ?_ host)
        rwa [asked.tasks]
      refine Leaves.bind_of_succeeds (stop_succeeds supervisor name true) first ?_
      rintro _ later ⟨asked, settles⟩ host
      refine List.forall_mem_cons.2 ⟨fun task found => ?_, ih asked host⟩
      exact (settles task found).consulted (stopEach_consults (.refl later) true rest host)

theorem stopAll_settles (answers : supervisor.AnswersPolls) :
    (stopAll true).Leaves supervisor fun later =>
      ∀ name task, supervisor.tasks.get? name = some task →
        supervisor.Settles later task.child := by
  refine Leaves.act_bind fun _ => Leaves.get_bind fun host name task found => ?_
  exact stopEach_settles answers (.refl supervisor) supervisor.tasks.keys host name
    (KeyMap.mem_keys_iff.2 ⟨task, found⟩) task found

end Supervisor

/-! ## Supervision with notes -/

/-- Supervision on threads, with runs of at most so many steps.  A run that takes more fails. -/
def Supervision.threaded (launcher : Launcher) (steps : Nat) : Supervision Supervisor where
  add := Supervisor.add launcher
  runUntilComplete := Supervisor.toItsEnd (Supervisor.runUntilComplete steps)
  stopAll := Supervisor.stopAll

example (launcher : Launcher) :
    Backend.threads.supervision launcher = .threaded launcher Backend.patience :=
  rfl

/-- The same, and each demand is noted. -/
def Supervision.noted (launcher : Launcher) (steps : Nat) : Supervision History where
  add name command environment := History.demand launcher (.add name command environment)
  runUntilComplete := History.demand launcher (.run steps)
  stopAll force := History.demand launcher (.stopAll force)

namespace History

variable {α β : Type} {launcher : Launcher}

/-- Without its notes, the one act is the other. -/
def Mirrors (noted : Supervised History α) (plain : Supervised Supervisor α) : Prop :=
  ∀ history host, (plain.run.run history.supervisor).run host =
    match (noted.run.run history).run host with
    | ((answer, later), after) => ((answer, later.supervisor), after)

theorem Mirrors.demand (made : Demand) : Mirrors (demand launcher made) (made.meet launcher) :=
  fun _ _ => rfl

theorem Mirrors.throw (text : Bytes) :
    Mirrors (throw text : Supervised History α) (throw text : Supervised Supervisor α) :=
  fun _ _ => rfl

theorem Mirrors.bind {noted : Supervised History β} {plain : Supervised Supervisor β}
    {next : β → Supervised History α} {plainNext : β → Supervised Supervisor α}
    (first : Mirrors noted plain) (rest : ∀ b, Mirrors (next b) (plainNext b)) :
    Mirrors (noted >>= next) (plain >>= plainNext) := by
  intro history host
  rw [run_failing_bind, run_failing_bind, first history host]
  rcases (noted.run.run history).run host with ⟨⟨text | b, later⟩, after⟩
  · rfl
  · exact rest b later after

theorem Mirrors.act_bind {act : Act β} {next : β → Supervised History α}
    {plainNext : β → Supervised Supervisor α} (rest : ∀ b, Mirrors (next b) (plainNext b)) :
    Mirrors (liftM act >>= next) (liftM act >>= plainNext) :=
  fun history host => rest (act.run host).1 history (act.run host).2

theorem Mirrors.host_bind {next : Host → Supervised History α}
    {plainNext : Host → Supervised Supervisor α}
    (rest : ∀ host, Mirrors (next host) (plainNext host)) :
    Mirrors (getThe Host >>= next) (getThe Host >>= plainNext) :=
  fun history host => rest host history host

theorem Mirrors.lift {noted : Supervised History α} {plain : Supervised Supervisor α}
    (mirrors : Mirrors noted plain) :
    Mirrors (ExceptT.lift noted.run) (ExceptT.lift plain.run) := by
  intro history host
  rw [ExceptT.run_lift, StateT.run_map, StateT.run_map, ExceptT.run_lift, StateT.run_map,
    StateT.run_map]
  rw [mirrors history host]
  rfl

/-- What the act demands: such demands as `allowed` says, and it fails as one of them does. -/
def Demands (allowed : Demand → Prop) (act : Supervised History Unit) : Prop :=
  ∀ history host, ∃ new, ((act.run.run history).run host).1.2.met = history.met ++ new ∧
    (∀ met ∈ new, allowed met.demand) ∧
    ∀ text, ((act.run.run history).run host).1.1 = .error text ↔
      ∃ met ∈ new, met.answer = .error text

variable {allowed : Demand → Prop}

theorem Demands.demand {made : Demand} (isAllowed : allowed made) :
    Demands allowed (demand launcher made) := by
  intro history host
  refine ⟨_, rfl, List.forall_mem_singleton.2 isAllowed, fun text => ⟨fun failed => ?_, ?_⟩⟩
  · exact ⟨_, List.mem_singleton_self _, failed⟩
  · rintro ⟨met, member, failed⟩
    cases List.mem_singleton.1 member
    exact failed

theorem Demands.bind {first : Supervised History Unit} {next : Unit → Supervised History Unit}
    (start : Demands allowed first) (rest : Demands allowed (next ())) :
    Demands allowed (first >>= next) := by
  intro history host
  obtain ⟨new, met, isAllowed, fails⟩ := start history host
  rw [run_failing_bind]
  rcases ended : (first.run.run history).run host with ⟨⟨answer, later⟩, after⟩
  rw [ended] at met fails
  cases answer with
  | error text => exact ⟨new, met, isAllowed, fails⟩
  | ok _ =>
      obtain ⟨more, meets, isAlsoAllowed, failsThen⟩ := rest later after
      refine ⟨new ++ more, ?_, List.forall_mem_append.2 ⟨isAllowed, isAlsoAllowed⟩, fun text => ?_⟩
      · rw [← List.append_assoc, ← met]
        exact meets
      · refine (failsThen text).trans ⟨?_, ?_⟩
        · rintro ⟨met, member, failed⟩
          exact ⟨met, List.mem_append_right _ member, failed⟩
        · rintro ⟨met, member, failed⟩
          rcases List.mem_append.1 member with early | late
          · cases (fails text).2 ⟨met, early, failed⟩
          · exact ⟨met, late, failed⟩

theorem Demands.host_bind {next : Host → Supervised History Unit}
    (rest : ∀ host, Demands allowed (next host)) : Demands allowed (getThe Host >>= next) :=
  fun history host => rest host history host

end History

namespace Tools

section

variable {σ : Type}

/-- **All tasks are stopped once at the end**, and the tools fail as the tasks did. -/
theorem start_run (supervision : Supervision σ)
    (stops : ∀ state, (supervision.stopAll true).Succeeds state) (tools : Tools) (directory : Bytes)
    (inspectorPort : Int) (quiet : Bool) (state : σ) (host : Host) :
    ∃ begun closing,
      let tried :=
        ((runTasks supervision tools directory inspectorPort quiet).run.run state).run begun
      let closed := ((supervision.stopAll true).run.run tried.1.2).run closing
      ((start supervision tools directory inspectorPort quiet).run.run state).run host =
        ((tried.1.1, closed.1.2), closed.2) := by
  let begun := ((Log.debug (ascii "[supervisor] Starting tool server and inspector tasks...")).run
    host).2
  have cut : ∀ next : Except Bytes Unit → Supervised σ Unit,
      ((liftM (Log.debug (ascii "[supervisor] Starting tool server and inspector tasks...")) >>=
        fun _ => ExceptT.lift (runTasks supervision tools directory inspectorPort quiet).run >>=
        next).run.run state).run host =
      let tried :=
        ((runTasks supervision tools directory inspectorPort quiet).run.run state).run begun
      ((next tried.1.1).run.run tried.1.2).run tried.2 := fun _ => rfl
  refine ⟨begun, ?_⟩
  unfold start
  rw [cut]
  have ends : ∀ later closing, ((supervision.stopAll true).run.run later).run closing =
      ((.ok (), (((supervision.stopAll true).run.run later).run closing).1.2),
        (((supervision.stopAll true).run.run later).run closing).2) := by
    intro later closing
    obtain ⟨_, stopped⟩ := stops later closing
    rw [← stopped]
    rfl
  dsimp only
  rcases ((runTasks supervision tools directory inspectorPort quiet).run.run state).run begun
    with ⟨⟨text | _, later⟩, after⟩
  · change ∃ closing, ((supervision.stopAll true >>= fun _ => throw text).run.run later).run
      ((Log.error (ascii "[supervisor] " ++ text)).run after).2 = _
    refine ⟨((Log.error (ascii "[supervisor] " ++ text)).run after).2, ?_⟩
    rw [run_failing_bind, ends]
    rfl
  · change ∃ closing, ((ite _ _ _ : Supervised σ Unit).run.run later).run after = _
    split
    · exact ⟨_, ends _ _⟩
    · exact ⟨_, ends _ _⟩

end

section

variable (launcher : Launcher) (steps : Nat) (tools : Tools) (directory : Bytes)
  (inspectorPort : Int) (quiet : Bool)

open History (Mirrors Demands)

theorem runTasks_mirrors :
    Mirrors (runTasks (.noted launcher steps) tools directory inspectorPort quiet)
      (runTasks (.threaded launcher steps) tools directory inspectorPort quiet) := by
  refine Mirrors.host_bind fun host => (Mirrors.demand _).bind fun _ => ?_
  cases quiet with
  | true => exact Mirrors.demand (.run steps)
  | false => exact (Mirrors.demand _).bind fun _ => Mirrors.demand (.run steps)

/-- Without notes the tools run just the same. -/
theorem start_mirrors :
    Mirrors (start (.noted launcher steps) tools directory inspectorPort quiet)
      (start (.threaded launcher steps) tools directory inspectorPort quiet) := by
  refine Mirrors.act_bind fun _ => ?_
  refine (runTasks_mirrors launcher steps tools directory inspectorPort quiet).lift.bind ?_
  intro tried
  cases tried with
  | error text =>
      exact Mirrors.act_bind fun _ => (Mirrors.demand (.stopAll true)).bind fun _ => .throw text
  | ok _ =>
      refine Mirrors.host_bind fun host => ?_
      dsimp only
      split
      · exact Mirrors.act_bind fun _ => Mirrors.demand (.stopAll true)
      · exact Mirrors.demand (.stopAll true)

/-- What is demanded before the tasks are stopped: additions, and a run. -/
theorem runTasks_demands :
    Demands (fun made => made.IsAddition ∨ made = .run steps)
      (runTasks (.noted launcher steps) tools directory inspectorPort quiet) := by
  refine Demands.host_bind fun host => ?_
  refine (Demands.demand (.inl ⟨_, _, _, rfl⟩)).bind ?_
  cases quiet with
  | true => exact Demands.demand (.inr rfl)
  | false => exact (Demands.demand (.inl ⟨_, _, _, rfl⟩)).bind (Demands.demand (.inr rfl))

theorem runTasks_registers {history : History}
    (registers : history.supervisor.Registers (history.registered launcher)) :
    (runTasks (.noted launcher steps) tools directory inspectorPort quiet).Leaves history
      fun later => later.supervisor.Registers (later.registered launcher) := by
  have kept : ∀ made, ∀ history : History,
      history.supervisor.Registers (history.registered launcher) →
      (History.demand launcher made).Leaves history
        fun later => later.supervisor.Registers (later.registered launcher) :=
    fun made history registers host => History.demand_registers made host registers
  refine Leaves.host_bind fun host => (kept _ history registers).then fun _ later registers => ?_
  cases quiet with
  | true => exact kept _ later registers
  | false => exact (kept _ later registers).then fun _ last registers => kept _ last registers

theorem demand_stopAll_succeeds (history : History) :
    (History.demand launcher (.stopAll true)).Succeeds history :=
  history.supervisor.stopAll_succeeds true

/-- How the tools end, told from what they demanded of their supervisor. -/
structure Closes (history later : History) (answer : Except Bytes Unit) (earlier : List Met)
    (last : Met) : Prop where
  met : later.met = history.met ++ earlier ++ [last]
  /-- Nothing is stopped before the last demand. -/
  begins : ∀ met ∈ earlier, met.demand.IsAddition ∨ met.demand = .run steps
  stops : last.demand = .stopAll true
  stopped : last.answer = .ok ()
  settles : ∀ name task, last.supervisor.tasks.get? name = some task →
    last.supervisor.Settles later.supervisor task.child
  fails : ∀ text, answer = .error text ↔ ∃ met ∈ earlier, met.answer = .error text

theorem closes_of_registers (answers : launcher.AnswersPolls) {history : History}
    (registers : history.supervisor.Registers (history.registered launcher)) (host : Host) :
    let run := ((start (.noted launcher steps) tools directory inspectorPort quiet).run.run
      history).run host
    ∃ earlier last, Closes steps history run.1.2 run.1.1 earlier last := by
  obtain ⟨begun, closing, ran⟩ := start_run (.noted launcher steps)
    (demand_stopAll_succeeds launcher) tools directory inspectorPort quiet history host
  obtain ⟨earlier, met, begins, fails⟩ :=
    runTasks_demands launcher steps tools directory inspectorPort quiet history begun
  have kept := runTasks_registers launcher steps tools directory inspectorPort quiet registers begun
  dsimp only at ran ⊢
  rw [ran]
  generalize ((runTasks (.noted launcher steps) tools directory inspectorPort quiet).run.run
    history).run begun = tried at met fails kept
  have polls : tried.1.2.supervisor.AnswersPolls :=
    kept.answersPolls fun _ member => History.registered_answersPolls answers member
  obtain ⟨_, stopped⟩ := tried.1.2.supervisor.stopAll_succeeds true closing
  refine ⟨earlier, ⟨.stopAll true, tried.1.2.supervisor, closing, .ok ()⟩, ?_⟩
  exact {
    met := by
      rw [← met, ← stopped]
      rfl
    begins
    stops := rfl
    stopped := rfl
    settles := Supervisor.stopAll_settles polls closing
    fails }

/-- **No task is left behind**: the last demand of the tools, and the only one of its kind, is
to stop all tasks by force, and then each of these is seen to its end.  The tools fail just
when an addition or the run failed, and as that did. -/
theorem start_closes (answers : launcher.AnswersPolls) (grace pause : Nat) (demands : List Demand)
    (before host : Host) :
    let history := ((History.demandAll launcher demands (.start grace pause)).run before).1
    let run := ((start (.noted launcher steps) tools directory inspectorPort quiet).run.run
      history).run host
    (∃ earlier last, Closes steps history run.1.2 run.1.1 earlier last) ∧
      ((start (.threaded launcher steps) tools directory inspectorPort quiet).run.run
        history.supervisor).run host = ((run.1.1, run.1.2.supervisor), run.2) := by
  intro history run
  have registers := History.demandAll_registers launcher grace pause demands before
  have closes := closes_of_registers launcher steps tools directory inspectorPort quiet answers
    registers host
  have mirrors := start_mirrors launcher steps tools directory inspectorPort quiet history host
  exact ⟨closes, mirrors⟩

/-- Launches children that cannot be made to end. -/
def refusing : Launcher := fun _ _ _ =>
  return .ok (Plan.child { onTerminate := .ignore, onKill := .fail (ascii "not permitted") })

theorem refusing_answersPolls : refusing.AnswersPolls := by
  rintro _ _ _ _ _ launched
  cases launched
  exact Plan.child_answersPolls _

/-- None of them is left behind, not even the one that was there before the tools. -/
theorem start_closes_refusing :
    let tools : Tools := ⟨[ascii "serve"], [ascii "inspect"]⟩
    let demands : List Demand := [.add (ascii "other") [ascii "other"] ∅]
    let history := ((History.demandAll refusing demands (.start 2000 1000)).run Host.bare).1
    let run := ((start (.noted refusing 5) tools [] 6274 false).run.run history).run Host.bare
    refusing.AnswersPolls ∧
      (∃ earlier last, Closes 5 history run.1.2 run.1.1 earlier last) ∧
        ((start (.threaded refusing 5) tools [] 6274 false).run.run history.supervisor).run
          Host.bare = ((run.1.1, run.1.2.supervisor), run.2) :=
  ⟨refusing_answersPolls,
    start_closes refusing 5 ⟨[ascii "serve"], [ascii "inspect"]⟩ [] 6274 false
      refusing_answersPolls 2000 1000 [.add (ascii "other") [ascii "other"] ∅] Host.bare Host.bare⟩

end

end Tools

end Assay.Supervise
