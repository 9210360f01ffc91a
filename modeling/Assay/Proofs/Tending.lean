/-
# Assay.Proofs.Tending -- what happens to a supervisor between two additions of tasks

`act.Leaves state post` says that the act, begun with that state, leaves one as `post` has
it, in whatever host it begins and also when it fails.

All that is done with the tasks of a supervisor, but for adding one, is made of two things.
Children of its tasks are asked: `Consulted` says what that leaves as it was, among it every
child that no task has.  And readers are started: `reading` is the supervisor after that.
Stopping, looking and polling ask only (`stop_consults`, `status_consults` and so on), and a run is
any number of both (`Tended`), wherever it is left.
-/
import Assay.Proofs.Acts
import Assay.Supervise.Supervisor

namespace Assay.Supervise

set_option autoImplicit false

open Bytes

namespace Supervised

variable {σ α β : Type}

/-- Begun with this state, the act leaves one as `post` has it, however it ends. -/
def Leaves (act : Supervised σ α) (state : σ) (post : σ → Prop) : Prop :=
  ∀ host, post ((act.run.run state).run host).1.2

section

variable {state : σ} {post : σ → Prop}

theorem Leaves.pure {a : α} (here : post state) : Leaves (pure a) state post :=
  fun _ => here

theorem Leaves.bind {first : Supervised σ α} {next : α → Supervised σ β} {between : σ → Prop}
    (start : first.Leaves state between) (fails : ∀ later, between later → post later)
    (rest : ∀ a later, between later → (next a).Leaves later post) :
    (first >>= next).Leaves state post := by
  intro host
  rw [run_failing_bind]
  have reached := start host
  rcases ended : (first.run.run state).run host with ⟨⟨answer, later⟩, after⟩
  rw [ended] at reached
  cases answer with
  | ok a => exact rest a later reached after
  | error text => exact fails later reached

/-- Where the first part leaves what is left in the end, too. -/
theorem Leaves.then {first : Supervised σ α} {next : α → Supervised σ β}
    (start : first.Leaves state post) (rest : ∀ a later, post later → (next a).Leaves later post) :
    (first >>= next).Leaves state post :=
  start.bind (fun _ => id) rest

theorem Leaves.act_bind {act : Act β} {next : β → Supervised σ α}
    (rest : ∀ b, (next b).Leaves state post) : Leaves (liftM act >>= next) state post :=
  fun host => rest (act.run host).1 (act.run host).2

theorem Leaves.get_bind {next : σ → Supervised σ α} (rest : (next state).Leaves state post) :
    Leaves (getThe σ >>= next) state post :=
  rest

theorem Leaves.host_bind {next : Host → Supervised σ α}
    (rest : ∀ host, (next host).Leaves state post) : Leaves (getThe Host >>= next) state post :=
  fun host => rest host host

theorem Leaves.modify {change : σ → σ} (here : post (change state)) :
    Leaves (modifyThe σ change) state post :=
  fun _ => here

theorem Leaves.modify_bind {change : σ → σ} {next : Unit → Supervised σ α}
    (rest : (next ()).Leaves (change state) post) :
    Leaves (modifyThe σ change >>= next) state post :=
  rest

/-- What is tried leaves what it leaves when it is not. -/
theorem Leaves.lift {body : Supervised σ α} (tried : body.Leaves state post) :
    Leaves (ExceptT.lift body.run : Supervised σ (Except Bytes α)) state post := by
  intro host
  rw [ExceptT.run_lift, StateT.run_map, StateT.run_map]
  exact tried host

/-- Begun with this state, the act does not fail. -/
def Succeeds (act : Supervised σ α) (state : σ) : Prop :=
  ∀ host, ∃ a, ((act.run.run state).run host).1.1 = .ok a

theorem Succeeds.pure (a : α) : Succeeds (pure a) state :=
  fun _ => ⟨a, rfl⟩

theorem Succeeds.act_bind {act : Act β} {next : β → Supervised σ α}
    (rest : ∀ b, (next b).Succeeds state) : Succeeds (liftM act >>= next) state :=
  fun host => rest (act.run host).1 (act.run host).2

theorem Succeeds.get_bind {next : σ → Supervised σ α} (rest : (next state).Succeeds state) :
    Succeeds (getThe σ >>= next) state :=
  rest

/-- What is tried does not fail. -/
theorem Succeeds.lift_bind {body : Supervised σ β} {next : Except Bytes β → Supervised σ α}
    (rest : ∀ tried later, (next tried).Succeeds later) :
    Succeeds (ExceptT.lift body.run >>= next) state := by
  intro host
  rw [run_failing_bind, ExceptT.run_lift, StateT.run_map, StateT.run_map]
  exact rest _ _ _

theorem Succeeds.bind {first : Supervised σ β} {next : β → Supervised σ α}
    (start : first.Succeeds state) (rest : ∀ b later, (next b).Succeeds later) :
    (first >>= next).Succeeds state := by
  intro host
  obtain ⟨b, answered⟩ := start host
  rw [run_failing_bind]
  rcases ended : (first.run.run state).run host with ⟨⟨answer, later⟩, after⟩
  rw [ended] at answered
  cases answered
  exact rest b later after

/-- What comes after an act that does not fail begins where that leaves the state. -/
theorem Leaves.bind_of_succeeds {first : Supervised σ β} {next : β → Supervised σ α}
    {between : σ → Prop} (succeeds : first.Succeeds state) (start : first.Leaves state between)
    (rest : ∀ b later, between later → (next b).Leaves later post) :
    (first >>= next).Leaves state post := by
  intro host
  obtain ⟨b, answered⟩ := succeeds host
  have reached := start host
  rw [run_failing_bind]
  rcases ended : (first.run.run state).run host with ⟨⟨answer, later⟩, after⟩
  rw [ended] at answered reached
  cases answered
  exact rest b later reached after

end

end Supervised

namespace Supervisor

open Supervised (Leaves)

/-- The child of this number is that of a task. -/
def HasChild (supervisor : Supervisor) (number : Nat) : Prop :=
  ∃ name task, supervisor.tasks.get? name = some task ∧ task.child = number

/-! ## Asking -/

/-- What a supervisor keeps while children of its tasks are asked. -/
structure Consulted (start later : Supervisor) : Prop where
  tasks : later.tasks = start.tasks
  readers : later.readers = start.readers
  count : later.children.length = start.children.length
  /-- A child is asked more, and remembers what it was asked before. -/
  grown : ∀ (number : Nat) (watched : Watched), start.children[number]? = some watched →
    ∃ new, later.children[number]? = some { watched with calls := new ++ watched.calls }
  /-- A child that no task has is not asked. -/
  spared : ∀ number : Nat, ¬ start.HasChild number →
    later.children[number]? = start.children[number]?

namespace Consulted

variable {start between later : Supervisor}

theorem of_children (tasks : later.tasks = start.tasks) (readers : later.readers = start.readers)
    (children : later.children = start.children) : Consulted start later where
  tasks := tasks
  readers := readers
  count := by rw [children]
  grown number watched found := ⟨[], by rw [children, found, List.nil_append]⟩
  spared number _ := by rw [children]

theorem refl (supervisor : Supervisor) : Consulted supervisor supervisor :=
  of_children rfl rfl rfl

theorem hasChild_iff (asked : Consulted start later) (number : Nat) :
    later.HasChild number ↔ start.HasChild number := by
  rw [HasChild, HasChild, asked.tasks]

theorem trans (first : Consulted start between) (second : Consulted between later) :
    Consulted start later where
  tasks := second.tasks.trans first.tasks
  readers := second.readers.trans first.readers
  count := second.count.trans first.count
  grown number watched found := by
    obtain ⟨earlier, found⟩ := first.grown number watched found
    obtain ⟨further, found⟩ := second.grown number _ found
    exact ⟨further ++ earlier, by rw [found, List.append_assoc]⟩
  spared number hasNot := by
    rw [second.spared number (mt (first.hasChild_iff number).1 hasNot), first.spared number hasNot]

/-- The children themselves stay the same. -/
theorem map_child (asked : Consulted start later) :
    later.children.map (·.child) = start.children.map (·.child) := by
  refine List.ext_getElem? fun number => ?_
  rw [List.getElem?_map, List.getElem?_map]
  cases found : start.children[number]? with
  | none =>
      rw [List.getElem?_eq_none_iff] at found
      rw [List.getElem?_eq_none (asked.count ▸ found)]
  | some watched =>
      obtain ⟨new, found⟩ := asked.grown number watched found
      rw [found]
      rfl

end Consulted

/-- The supervisor once a call was entered with a child. -/
def entering (supervisor : Supervisor) (number : Nat) (watched : Watched) (call : Call) :
    Supervisor :=
  { supervisor with
    children := supervisor.children.set number
      { watched with calls := ⟨supervisor.clock, call⟩ :: watched.calls } }

theorem entering_consulted {supervisor : Supervisor} {number : Nat} {watched : Watched}
    (found : supervisor.children[number]? = some watched) (current : supervisor.HasChild number)
    (call : Call) : Consulted supervisor (supervisor.entering number watched call) where
  tasks := rfl
  readers := rfl
  count := List.length_set
  grown other before isOther := by
    by_cases same : number = other
    · subst same
      rw [found] at isOther
      cases isOther
      refine ⟨[⟨supervisor.clock, call⟩], ?_⟩
      rw [entering, List.getElem?_set_self (List.getElem?_eq_some_iff.1 found).1]
      rfl
    · exact ⟨[], by rw [entering, List.getElem?_set_ne same, isOther, List.nil_append]⟩
  spared other hasNot := by
    have different : number ≠ other := fun same => hasNot (same ▸ current)
    rw [entering, List.getElem?_set_ne different]

section

variable {start supervisor : Supervisor} {number : Nat}

/-- To ask a child is to enter the call, and then to wait for as long as it takes. -/
theorem ask_leaves (number : Nat) (call : Call) {post : Supervisor → Prop}
    (unknown : supervisor.children[number]? = none → post supervisor)
    (entered : ∀ watched, supervisor.children[number]? = some watched →
      post (supervisor.entering number watched call))
    (waits : ∀ later time, post later → post { later with clock := later.clock + time }) :
    (ask number call).Leaves supervisor post := by
  refine Leaves.get_bind ?_
  split
  · rename_i missing
    exact Leaves.pure (unknown missing)
  · rename_i watched found
    refine Leaves.modify_bind ?_
    have here := entered watched found
    dsimp only
    split
    · exact fun _ => here
    · split
      · exact Leaves.modify_bind (Leaves.pure (waits _ _ here))
      · exact Leaves.pure here

/-- What polls and the clock keep, a look for a task that still runs keeps. -/
theorem anyRunning_leaves {post : Supervisor → Prop} (here : post supervisor)
    (polled : ∀ before number watched, post before → before.children[number]? = some watched →
      post (before.entering number watched .poll))
    (waited : ∀ before time, post before → post { before with clock := before.clock + time })
    (entries : List (Bytes × Task)) : (anyRunning entries).Leaves supervisor post := by
  induction entries generalizing supervisor with
  | nil => exact Leaves.pure here
  | cons entry rest ih =>
      have asked : (ask entry.2.child .poll).Leaves supervisor post :=
        ask_leaves entry.2.child .poll (fun _ => here)
          (fun watched found => polled supervisor _ watched here found) waited
      refine asked.then fun code later here => ?_
      split
      · exact Leaves.pure here
      · exact ih here

theorem ask_consults (asked : Consulted start supervisor) (current : start.HasChild number)
    (call : Call) : (ask number call).Leaves supervisor (Consulted start) :=
  ask_leaves number call (fun _ => asked)
    (fun _ found => asked.trans
      (entering_consulted found ((asked.hasChild_iff number).2 current) call))
    fun _ _ before => before.trans (.of_children rfl rfl rfl)

/-! ## Looking -/

theorem look_consults (asked : Consulted start supervisor) (current : start.HasChild number) :
    (look number).Leaves supervisor (Consulted start) :=
  (ask_consults asked current .poll).then fun _ _ asked => Leaves.get_bind (Leaves.pure asked)

/-- What the listed tasks have for children are children of tasks. -/
def Lists (supervisor : Supervisor) (entries : List (Bytes × Task)) : Prop :=
  ∀ entry ∈ entries, supervisor.HasChild entry.2.child

theorem lists_tasks (supervisor : Supervisor) : supervisor.Lists supervisor.tasks.toList :=
  fun entry member => ⟨entry.1, entry.2, KeyMap.mem_toList_iff.1 member, rfl⟩

theorem lookAtAll_consults (asked : Consulted start supervisor) {entries : List (Bytes × Task)}
    (lists : start.Lists entries) : (lookAtAll entries).Leaves supervisor (Consulted start) := by
  induction entries generalizing supervisor with
  | nil => exact Leaves.pure asked
  | cons entry rest ih =>
      obtain ⟨current, lists⟩ := List.forall_mem_cons.1 lists
      refine (look_consults asked current).then fun _ _ asked => ?_
      exact (ih asked lists).then fun _ _ asked => Leaves.pure asked

theorem anyRunning_consults (asked : Consulted start supervisor) {entries : List (Bytes × Task)}
    (lists : start.Lists entries) : (anyRunning entries).Leaves supervisor (Consulted start) := by
  induction entries generalizing supervisor with
  | nil => exact Leaves.pure asked
  | cons entry rest ih =>
      obtain ⟨current, lists⟩ := List.forall_mem_cons.1 lists
      refine (ask_consults asked current .poll).then fun code _ asked => ?_
      split
      · exact Leaves.pure asked
      · exact ih asked lists

theorem status_consults (supervisor : Supervisor) :
    status.Leaves supervisor (Consulted supervisor) :=
  Leaves.get_bind (lookAtAll_consults (.refl supervisor) supervisor.lists_tasks)

theorem isRunning_consults (supervisor : Supervisor) (name : Bytes) :
    (isRunning name).Leaves supervisor (Consulted supervisor) := by
  refine Leaves.get_bind ?_
  split
  · exact Leaves.pure (.refl supervisor)
  · rename_i task found
    exact (ask_consults (.refl supervisor) ⟨name, task, found, rfl⟩ .poll).then fun _ _ asked =>
      Leaves.pure asked

/-! ## Stopping -/

/-- After the first call with a child that is to end, only this child is asked. -/
theorem endChild_leaves (current : start.HasChild number) (name : Bytes) (force : Bool)
    (begun : (ask number (if force then .kill else .terminate)).Leaves supervisor
      (Consulted start)) :
    (endChild name number force).Leaves supervisor (Consulted start) := by
  refine begun.then fun _ _ asked => Leaves.get_bind ?_
  refine (ask_consults asked current _).then fun exited _ asked => ?_
  dsimp only
  split
  · refine Leaves.act_bind fun _ => ?_
    refine (ask_consults asked current .kill).then fun _ _ asked => ?_
    refine (ask_consults asked current _).then fun killed _ asked => ?_
    split
    · exact Leaves.act_bind fun _ => Leaves.pure asked
    · exact Leaves.act_bind fun _ => Leaves.pure asked
  · exact Leaves.act_bind fun _ => Leaves.pure asked

theorem halt_consults (asked : Consulted start supervisor) (current : start.HasChild number)
    (name : Bytes) (force : Bool) :
    (halt name number force).Leaves supervisor (Consulted start) := by
  refine (ask_consults asked current .poll).then fun code _ asked => ?_
  split
  · exact Leaves.act_bind fun _ => Leaves.pure asked
  · exact endChild_leaves current name force (ask_consults asked current _)

theorem stop_consults (supervisor : Supervisor) (name : Bytes) (force : Bool) :
    (stop name force).Leaves supervisor (Consulted supervisor) := by
  refine Leaves.get_bind ?_
  split
  · exact Leaves.act_bind fun _ => Leaves.pure (.refl supervisor)
  · rename_i task found
    have current : supervisor.HasChild task.child := ⟨name, task, found, rfl⟩
    refine (halt_consults (.refl supervisor) current name force).lift.then fun tried _ asked => ?_
    cases tried with
    | ok stopped => exact Leaves.pure asked
    | error text => exact Leaves.act_bind fun _ => Leaves.pure asked

/-- To stop a task does not fail: what goes wrong is logged. -/
theorem stop_succeeds (supervisor : Supervisor) (name : Bytes) (force : Bool) :
    (stop name force).Succeeds supervisor := by
  refine Supervised.Succeeds.get_bind ?_
  split
  · exact .act_bind fun _ => .pure false
  · refine .lift_bind fun tried _ => ?_
    cases tried with
    | ok stopped => exact .pure stopped
    | error text => exact .act_bind fun _ => .pure false

theorem stopEach_succeeds (supervisor : Supervisor) (force : Bool) (names : List Bytes) :
    (stopEach force names).Succeeds supervisor := by
  induction names generalizing supervisor with
  | nil => exact .pure ()
  | cons name rest ih => exact (stop_succeeds supervisor name force).bind fun _ later => ih later

theorem stopAll_succeeds (supervisor : Supervisor) (force : Bool) :
    (stopAll force).Succeeds supervisor :=
  .act_bind fun _ => .get_bind (stopEach_succeeds supervisor force _)

theorem stopEach_consults (asked : Consulted start supervisor) (force : Bool) (names : List Bytes) :
    (stopEach force names).Leaves supervisor (Consulted start) := by
  induction names generalizing supervisor with
  | nil => exact Leaves.pure asked
  | cons name rest ih =>
      refine (stop_consults supervisor name force).bind (fun _ => asked.trans) fun _ _ further => ?_
      exact ih (asked.trans further)

theorem stopAll_consults (supervisor : Supervisor) (force : Bool) :
    (stopAll force).Leaves supervisor (Consulted supervisor) :=
  Leaves.act_bind fun _ => Leaves.get_bind (stopEach_consults (.refl supervisor) force _)

/-! ## Reading and running -/

/-- The tasks that are not read yet, under their names. -/
def unread (supervisor : Supervisor) : List (Bytes × Task) :=
  supervisor.tasks.toList.filter fun entry => !entry.2.monitored

/-- The supervisor once its tasks are read. -/
def reading (supervisor : Supervisor) : Supervisor :=
  { supervisor with
    readers := supervisor.readers ++
      supervisor.unread.flatMap fun entry => supervisor.readersOf entry.1 entry.2
    tasks := supervisor.unread.foldl
      (fun tasks entry => tasks.insert entry.1 { entry.2 with monitored := true })
      supervisor.tasks }

/-- Children of its tasks were asked and readers were started, in whatever order. -/
inductive Tended (start : Supervisor) : Supervisor → Prop
  | start : Tended start start
  | consulted {between later : Supervisor} (tended : Tended start between)
      (asked : Consulted between later) : Tended start later
  | read {between : Supervisor} (tended : Tended start between) : Tended start between.reading

theorem Consulted.tended {later : Supervisor} (asked : Consulted start later) :
    Tended start later :=
  .consulted .start asked

theorem monitor_tends (supervisor : Supervisor) : monitor.Leaves supervisor (Tended supervisor) :=
  Leaves.modify (.read .start)

theorem interrupt_consults (supervisor : Supervisor) :
    interrupt.Leaves supervisor (Consulted supervisor) :=
  Leaves.modify (.of_children rfl rfl rfl)

theorem mustEnd_leaves {post : Supervisor → Prop} (here : post supervisor) :
    mustEnd.Leaves supervisor post := by
  refine Leaves.get_bind ?_
  split
  · exact Leaves.pure here
  · exact fun _ => here

/-- One step of a run. -/
theorem advance_tends (tended : Tended start supervisor) (stage : Stage) :
    (advance stage).Leaves supervisor (Tended start) := by
  cases stage with
  | starting =>
      refine Leaves.get_bind ?_
      split
      · exact Leaves.act_bind fun _ => Leaves.pure tended
      · exact Leaves.act_bind fun _ => Leaves.modify_bind (Leaves.pure tended.read)
  | checking => exact (mustEnd_leaves tended).then fun _ _ tended => Leaves.pure tended
  | polling =>
      refine Leaves.get_bind ?_
      refine (anyRunning_consults (.refl supervisor) supervisor.lists_tasks).bind
        (fun _ => tended.consulted) fun _ _ asked => Leaves.pure (tended.consulted asked)
  | pausing =>
      refine Leaves.get_bind (Leaves.modify_bind (Leaves.pure ?_))
      exact tended.consulted (.of_children rfl rfl rfl)
  | reporting =>
      refine (mustEnd_leaves tended).then fun ending _ tended => ?_
      dsimp only
      split
      · exact Leaves.act_bind fun _ => Leaves.pure tended
      · exact Leaves.pure tended
  | clearing =>
      exact Leaves.modify_bind (Leaves.pure (tended.consulted (.of_children rfl rfl rfl)))
  | finished => exact Leaves.pure tended

/-- **A run tends its tasks** and does nothing else, however far it comes. -/
theorem runFrom_tends (tended : Tended start supervisor) (steps : Nat) (stage : Stage) :
    (runFrom steps stage).Leaves supervisor (Tended start) := by
  induction steps generalizing supervisor stage with
  | zero => cases stage <;> exact Leaves.pure tended
  | succ steps ih =>
      cases stage
      case finished => exact Leaves.pure tended
      all_goals exact (advance_tends tended _).then fun stage _ tended => ih tended stage

theorem runUntilComplete_tends (supervisor : Supervisor) (steps : Nat) :
    (runUntilComplete steps).Leaves supervisor (Tended supervisor) :=
  (runFrom_tends .start steps .starting).then fun _ _ tended => Leaves.pure tended

/-- It makes no difference to the supervisor whether a run has to come to its end. -/
theorem toItsEnd_leaves {run : Supervised Supervisor Bool} {post : Supervisor → Prop}
    (ran : run.Leaves supervisor post) : (toItsEnd run).Leaves supervisor post := by
  refine ran.then fun finished later here => ?_
  cases finished with
  | true => exact Leaves.pure here
  | false => exact fun _ => here

end

end Supervisor

end Assay.Supervise
