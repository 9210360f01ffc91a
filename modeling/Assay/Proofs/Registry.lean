/-
# Assay.Proofs.Registry -- the tasks of a supervisor after any demands

A `History` is a supervisor with all the demands that it met, each with the host it was
made in and what was answered.  `registered` is what can be read off the demands alone: the
launched child of each addition that did not fail, in order.

`demand_cases` says all that one demand does: it registers one more task, or it tends the
tasks that there are.  From it follows what holds after any demands (`demandAll_orderly`):
the tasks are those registered last under their names (`Registers`), a child that was
replaced is never asked again, and no output is read twice.
-/
import Assay.Proofs.Tending
import Mathlib.Data.List.Induction

namespace Assay.Supervise

set_option autoImplicit false

open Bytes

/-! ## Additions -/

namespace Supervisor

/-- An addition up to what comes of the launch. -/
def launching (supervisor : Supervisor) (launcher : Launcher) (name : Bytes) (command : List Bytes)
    (environment : Environment) : Act (Except Bytes Child) := do
  if supervisor.tasks.contains name then
    Log.warn (ascii "[supervisor] Task " ++ name ++ ascii " already exists, will replace")
  Log.info (ascii "[supervisor] Starting task: " ++ name ++ ascii " - " ++ join command [space])
  launcher supervisor.clock command environment

/-- The supervisor once a task has a child that was launched. -/
def registering (supervisor : Supervisor) (name : Bytes) (child : Child) : Supervisor :=
  { supervisor with
    tasks := supervisor.tasks.insert name ⟨supervisor.children.length, false⟩
    children := supervisor.children ++ [⟨child, []⟩] }

/-- What an addition comes to once the launch has answered. -/
def concludeAdd (name : Bytes) : Except Bytes Child → Supervised Supervisor Unit
  | .error text => throw text
  | .ok child => register name child

/-- An addition fails as the launch does, and then leaves the supervisor as it was. -/
theorem add_run (launcher : Launcher) (name : Bytes) (command : List Bytes)
    (environment : Environment) (supervisor : Supervisor) (host : Host) :
    ((add launcher name command environment).run.run supervisor).run host =
      match (supervisor.launching launcher name command environment).run host with
      | (.ok child, after) => ((.ok (), supervisor.registering name child), after)
      | (.error text, after) => ((.error text, supervisor), after) := by
  have cut : ((add launcher name command environment).run.run supervisor).run host =
      (((liftM (supervisor.launching launcher name command environment) >>=
        concludeAdd name : Supervised Supervisor Unit).run.run supervisor).run host) := by
    unfold launching
    change ((ite _ _ _ : Supervised Supervisor Unit).run.run supervisor).run host = _
    split <;> rfl
  rw [cut]
  change ((concludeAdd name ((supervisor.launching launcher name command environment).run
    host).1).run.run supervisor).run
      ((supervisor.launching launcher name command environment).run host).2 = _
  rcases (supervisor.launching launcher name command environment).run host
    with ⟨text | child, after⟩ <;> rfl

end Supervisor

/-! ## What is registered under a name -/

/-- The child of this number is the one that was registered last under the name. -/
def IsLastUnder (registered : List (Bytes × Child)) (name : Bytes) (number : Nat) : Prop :=
  (∃ child, registered[number]? = some (name, child)) ∧
    ∀ later child, registered[later]? = some (name, child) → later ≤ number

/-- Another child was registered later under the name of the child of this number. -/
def Replaced (registered : List (Bytes × Child)) (number : Nat) : Prop :=
  ∃ name child later other, registered[number]? = some (name, child) ∧ number < later ∧
    registered[later]? = some (name, other)

section

variable {registered : List (Bytes × Child)} {name other : Bytes} {number : Nat} {child : Child}

theorem IsLastUnder.lt_length (last : IsLastUnder registered name number) :
    number < registered.length := by
  obtain ⟨⟨child, found⟩, -⟩ := last
  exact (List.getElem?_eq_some_iff.1 found).1

/-- A child is registered under one name. -/
theorem IsLastUnder.name_eq (last : IsLastUnder registered name number)
    (same : IsLastUnder registered other number) : name = other := by
  obtain ⟨⟨child, found⟩, -⟩ := last
  obtain ⟨⟨again, isFound⟩, -⟩ := same
  rw [found] at isFound
  cases isFound
  rfl

theorem Replaced.lt_length (replaced : Replaced registered number) :
    number < registered.length := by
  obtain ⟨name, child, later, other, found, -⟩ := replaced
  exact (List.getElem?_eq_some_iff.1 found).1

theorem Replaced.not_isLastUnder (replaced : Replaced registered number) :
    ¬ IsLastUnder registered name number := by
  obtain ⟨own, child, later, other, found, after, isLater⟩ := replaced
  intro last
  obtain ⟨⟨again, isFound⟩, latest⟩ := last
  rw [found] at isFound
  cases isFound
  exact absurd (latest later other isLater) (Nat.not_le.2 after)

theorem getElem?_concat_eq_some_iff {entry : Bytes × Child} :
    (registered ++ [(name, child)])[number]? = some entry ↔
      registered[number]? = some entry ∨ number = registered.length ∧ (name, child) = entry := by
  grind

/-- One more registration is the last one under its name, and leaves the other names alone. -/
theorem isLastUnder_concat :
    IsLastUnder (registered ++ [(name, child)]) other number ↔
      if name = other then number = registered.length else IsLastUnder registered other number := by
  simp only [IsLastUnder, getElem?_concat_eq_some_iff, Prod.mk.injEq]
  split
  · rename_i same
    subst same
    constructor
    · rintro ⟨⟨found, here | here⟩, latest⟩
      · exact absurd (latest registered.length child (.inr ⟨rfl, rfl, rfl⟩))
          (Nat.not_le.2 (List.getElem?_eq_some_iff.1 here).1)
      · exact here.1
    · rintro rfl
      refine ⟨⟨child, .inr ⟨rfl, rfl, rfl⟩⟩, ?_⟩
      rintro later found (here | here)
      · exact Nat.le_of_lt (List.getElem?_eq_some_iff.1 here).1
      · exact Nat.le_of_eq here.1
  · rename_i different
    simp [different]

/-- Where anything is registered under a name, something is so last. -/
theorem exists_isLastUnder_iff :
    (∃ number, IsLastUnder registered name number) ↔ ∃ child, (name, child) ∈ registered := by
  constructor
  · rintro ⟨number, ⟨child, found⟩, -⟩
    exact ⟨child, List.mem_of_getElem? found⟩
  · rintro ⟨child, member⟩
    induction registered using List.reverseRecOn with
    | nil => exact absurd member List.not_mem_nil
    | append_singleton before last ih =>
        obtain ⟨other, lastChild⟩ := last
        simp only [isLastUnder_concat]
        by_cases same : other = name
        · exact ⟨before.length, by rw [if_pos same]⟩
        · rcases List.mem_append.1 member with old | new
          · simpa [same] using ih old
          · cases List.mem_singleton.1 new
            exact absurd rfl same

end

/-- What a reader reads: a stream of a child. -/
def Reader.source (reader : Reader) : Nat × Stream :=
  (reader.child, reader.stream)

/-- The same task, now read. -/
def Task.marked (task : Task) : Task :=
  { task with monitored := true }

namespace Supervisor

/-- The tasks are what is registered, and each child's output is read once, or not yet. -/
structure Registers (registered : List (Bytes × Child)) (supervisor : Supervisor) : Prop where
  children : supervisor.children.map (·.child) = registered.map (·.2)
  isLast_iff : ∀ name number,
    (∃ task, supervisor.tasks.get? name = some task ∧ task.child = number) ↔
      IsLastUnder registered name number
  once : (supervisor.readers.map Reader.source).Nodup
  known : ∀ reader ∈ supervisor.readers, reader.child < supervisor.children.length
  unread : ∀ name task, supervisor.tasks.get? name = some task → task.monitored = false →
    ∀ reader ∈ supervisor.readers, reader.child ≠ task.child
  read : ∀ name task, supervisor.tasks.get? name = some task → task.monitored = true →
    ∀ reader ∈ supervisor.readersOf name task, reader ∈ supervisor.readers

namespace Registers

variable {registered : List (Bytes × Child)} {start later supervisor : Supervisor}

theorem length_eq (registers : Registers registered supervisor) :
    supervisor.children.length = registered.length := by
  simpa using congrArg List.length registers.children

theorem isLast (registers : Registers registered supervisor) {name : Bytes} {task : Task}
    (found : supervisor.tasks.get? name = some task) : IsLastUnder registered name task.child :=
  (registers.isLast_iff name task.child).1 ⟨task, found, rfl⟩

theorem child_lt (registers : Registers registered supervisor) {name : Bytes} {task : Task}
    (found : supervisor.tasks.get? name = some task) : task.child < supervisor.children.length := by
  rw [registers.length_eq]
  exact (registers.isLast found).lt_length

/-- No two tasks have the same child. -/
theorem name_eq (registers : Registers registered supervisor) {name other : Bytes}
    {task same : Task} (found : supervisor.tasks.get? name = some task)
    (isFound : supervisor.tasks.get? other = some same) (child : task.child = same.child) :
    name = other :=
  (registers.isLast found).name_eq (child ▸ registers.isLast isFound)

theorem new (grace pause : Nat) : Registers [] (Supervisor.new grace pause) where
  children := rfl
  isLast_iff name number := by
    constructor
    · rintro ⟨task, found, -⟩
      cases found
    · rintro ⟨⟨child, found⟩, -⟩
      cases found
  once := List.nodup_nil
  known _ member := absurd member List.not_mem_nil
  unread _ _ found := by cases found
  read _ _ found := by cases found

end Registers

/-! ## Registering -/

/-- The readers of a task depend on the children themselves alone. -/
theorem readersOf_congr (start : Supervisor) {later : Supervisor} {name : Bytes} {task : Task}
    (same : (later.children[task.child]?).map (·.child) =
      (start.children[task.child]?).map (·.child)) :
    later.readersOf name task = start.readersOf name task := by
  have feeds : ∀ supervisor : Supervisor, ∀ stream,
      ((supervisor.children[task.child]?).bind fun watched => watched.child.feed? stream) =
        ((supervisor.children[task.child]?).map (·.child)).bind (·.feed? stream) := by
    intro supervisor stream
    cases supervisor.children[task.child]? <;> rfl
  simp only [readersOf, feeds, same]

theorem child_of_mem_readersOf {supervisor : Supervisor} {name : Bytes} {task : Task}
    {reader : Reader} (member : reader ∈ supervisor.readersOf name task) :
    reader.child = task.child := by
  obtain ⟨stream, -, made⟩ := List.mem_filterMap.1 member
  obtain ⟨feed, -, rfl⟩ := Option.map_eq_some_iff.1 made
  rfl

theorem Registers.registering {registered : List (Bytes × Child)} {supervisor : Supervisor}
    (registers : Registers registered supervisor) (name : Bytes) (child : Child) :
    Registers (registered ++ [(name, child)]) (supervisor.registering name child) where
  children := by
    rw [Supervisor.registering, List.map_append, registers.children, List.map_append]
    rfl
  isLast_iff other number := by
    rw [isLastUnder_concat, ← registers.isLast_iff, ← registers.length_eq]
    simp only [Supervisor.registering, KeyMap.get?_insert]
    split
    · simp [eq_comm]
    · rfl
  once := registers.once
  known reader member := by
    rw [Supervisor.registering, List.length_append]
    exact Nat.lt_add_right _ (registers.known reader member)
  unread other task found fresh reader member := by
    simp only [Supervisor.registering, KeyMap.get?_insert] at found
    split at found
    · cases found
      exact Nat.ne_of_lt (registers.known reader member)
    · exact registers.unread other task found fresh reader member
  read other task found monitored reader member := by
    simp only [Supervisor.registering, KeyMap.get?_insert] at found
    split at found
    · cases found
      cases monitored
    · refine registers.read other task found monitored reader ?_
      rwa [readersOf_congr supervisor] at member
      rw [Supervisor.registering, List.getElem?_append_left (registers.child_lt found)]

/-- To register a task does not touch the children that no task has. -/
theorem registering_spares {supervisor : Supervisor} (name : Bytes) (child : Child) {number : Nat}
    {watched : Watched} (found : supervisor.children[number]? = some watched)
    (hasNot : ¬ supervisor.HasChild number) :
    ¬ (supervisor.registering name child).HasChild number ∧
      (supervisor.registering name child).children[number]? = some watched := by
  have inside : number < supervisor.children.length := (List.getElem?_eq_some_iff.1 found).1
  refine ⟨?_, (List.getElem?_append_left inside).trans found⟩
  rintro ⟨other, task, isFound, rfl⟩
  simp only [registering, KeyMap.get?_insert] at isFound
  split at isFound
  · cases isFound
    exact absurd inside (Nat.lt_irrefl _)
  · exact hasNot ⟨other, task, isFound, rfl⟩

/-! ## Tending -/

theorem Registers.consulted {registered : List (Bytes × Child)} {start later : Supervisor}
    (registers : Registers registered start) (asked : Consulted start later) :
    Registers registered later where
  children := by rw [asked.map_child, registers.children]
  isLast_iff := by rw [asked.tasks]; exact registers.isLast_iff
  once := by rw [asked.readers]; exact registers.once
  known := by rw [asked.readers, asked.count]; exact registers.known
  unread := by rw [asked.tasks, asked.readers]; exact registers.unread
  read name task found monitored := by
    rw [asked.tasks] at found
    rw [asked.readers, readersOf_congr start]
    · exact registers.read name task found monitored
    · rw [← List.getElem?_map, asked.map_child, List.getElem?_map]

theorem mem_unread_iff {supervisor : Supervisor} {name : Bytes} {task : Task} :
    (name, task) ∈ supervisor.unread ↔
      supervisor.tasks.get? name = some task ∧ task.monitored = false := by
  rw [unread, List.mem_filter, KeyMap.mem_toList_iff, Bool.not_eq_true']

/-- Reading marks every task and changes nothing else of it. -/
theorem get?_reading (supervisor : Supervisor) (name : Bytes) :
    supervisor.reading.tasks.get? name = (supervisor.tasks.get? name).map Task.marked := by
  have ascending : (supervisor.unread.map fun entry => (entry.1, entry.2.marked)).Pairwise
      fun a b => a.1 < b.1 :=
    List.pairwise_map.2 (supervisor.tasks.ascending.filter _)
  have found :
      KeyMap.findEntry name (supervisor.unread.map fun entry => (entry.1, entry.2.marked)) =
        ((supervisor.tasks.get? name).filter fun task => !task.monitored).map Task.marked := by
    refine Option.ext fun task => ?_
    rw [KeyMap.findEntry_eq_some_iff ascending]
    rw [Option.map_eq_some_iff, List.mem_map]
    constructor
    · rintro ⟨⟨other, before⟩, member, same⟩
      cases same
      obtain ⟨isFound, fresh⟩ := mem_unread_iff.1 member
      exact ⟨before, Option.filter_eq_some_iff.2 ⟨isFound, by rw [fresh]; rfl⟩, rfl⟩
    · rintro ⟨before, filtered, same⟩
      obtain ⟨isFound, fresh⟩ := Option.filter_eq_some_iff.1 filtered
      rw [Bool.not_eq_true'] at fresh
      exact ⟨(name, before), mem_unread_iff.2 ⟨isFound, fresh⟩, by rw [same]⟩
  have folded := KeyMap.get?_foldl_insert _ ascending supervisor.tasks name
  rw [List.foldl_map, found] at folded
  refine folded.trans ?_
  cases supervisor.tasks.get? name with
  | none => rfl
  | some task =>
      obtain ⟨child, monitored⟩ := task
      cases monitored <;> rfl

theorem nodup_readersOf (supervisor : Supervisor) (name : Bytes) (task : Task) :
    ((supervisor.readersOf name task).map Reader.source).Nodup := by
  rw [List.Nodup, List.pairwise_map, readersOf, List.pairwise_filterMap]
  have streams : [Stream.output, Stream.errors].Pairwise (· ≠ ·) := by decide
  refine streams.imp fun different reader made another isMade same => different ?_
  obtain ⟨feed, -, rfl⟩ := Option.map_eq_some_iff.1 made
  obtain ⟨other, -, rfl⟩ := Option.map_eq_some_iff.1 isMade
  exact congrArg Prod.snd same

/-- The readers that reading starts read what no other reader reads. -/
theorem Registers.nodup_unread {registered : List (Bytes × Child)} {supervisor : Supervisor}
    (registers : Registers registered supervisor) :
    ((supervisor.unread.flatMap fun entry => supervisor.readersOf entry.1 entry.2).map
      Reader.source).Nodup := by
  rw [List.map_flatMap, List.Nodup, List.pairwise_flatMap]
  refine ⟨fun entry _ => supervisor.nodup_readersOf entry.1 entry.2, ?_⟩
  have ascending : supervisor.unread.Pairwise fun a b => a.1 < b.1 :=
    supervisor.tasks.ascending.filter _
  refine ascending.imp_of_mem fun {entry other} member isMember less => ?_
  intro source isSource again isAgain same
  obtain ⟨reader, isReader, rfl⟩ := List.mem_map.1 isSource
  obtain ⟨another, isAnother, rfl⟩ := List.mem_map.1 isAgain
  have child : entry.2.child = other.2.child := by
    rw [← child_of_mem_readersOf isReader, ← child_of_mem_readersOf isAnother]
    exact congrArg Prod.fst same
  have name : entry.1 = other.1 :=
    registers.name_eq (mem_unread_iff.1 member).1 (mem_unread_iff.1 isMember).1 child
  exact List.lt_irrefl _ (name ▸ less)

theorem Registers.reading {registered : List (Bytes × Child)} {supervisor : Supervisor}
    (registers : Registers registered supervisor) : Registers registered supervisor.reading where
  children := registers.children
  isLast_iff name number := by
    rw [← registers.isLast_iff, get?_reading]
    constructor
    · rintro ⟨task, found, rfl⟩
      obtain ⟨before, isFound, rfl⟩ := Option.map_eq_some_iff.1 found
      exact ⟨before, isFound, rfl⟩
    · rintro ⟨task, found, rfl⟩
      exact ⟨task.marked, by rw [found]; rfl, rfl⟩
  once := by
    rw [Supervisor.reading, List.map_append, List.nodup_append]
    refine ⟨registers.once, registers.nodup_unread, ?_⟩
    intro source isSource again isAgain same
    obtain ⟨reader, isReader, rfl⟩ := List.mem_map.1 isSource
    obtain ⟨another, isAnother, rfl⟩ := List.mem_map.1 isAgain
    obtain ⟨entry, member, made⟩ := List.mem_flatMap.1 isAnother
    obtain ⟨found, fresh⟩ := mem_unread_iff.1 member
    refine registers.unread entry.1 entry.2 found fresh reader isReader ?_
    rw [← child_of_mem_readersOf made]
    exact congrArg Prod.fst same
  known reader member := by
    rcases List.mem_append.1 member with old | new
    · exact registers.known reader old
    · obtain ⟨entry, member, made⟩ := List.mem_flatMap.1 new
      rw [child_of_mem_readersOf made]
      exact registers.child_lt (mem_unread_iff.1 member).1
  unread name task found fresh := by
    rw [get?_reading] at found
    obtain ⟨before, -, rfl⟩ := Option.map_eq_some_iff.1 found
    cases fresh
  read name task found _ reader member := by
    rw [get?_reading] at found
    obtain ⟨before, isFound, rfl⟩ := Option.map_eq_some_iff.1 found
    cases monitored : before.monitored with
    | false =>
        have isUnread : (name, before) ∈ supervisor.unread :=
          mem_unread_iff.2 ⟨isFound, monitored⟩
        exact List.mem_append_right _ (List.mem_flatMap.2 ⟨(name, before), isUnread, member⟩)
    | true =>
        exact List.mem_append_left _ (registers.read name before isFound monitored reader member)

theorem Registers.tended {registered : List (Bytes × Child)} {start later : Supervisor}
    (registers : Registers registered start) (tended : Tended start later) :
    Registers registered later := by
  induction tended with
  | start => exact registers
  | consulted _ asked ih => exact ih.consulted asked
  | read _ ih => exact ih.reading

/-- A child that no task has is not asked while the tasks are tended, and no task gets it. -/
theorem Tended.spared {start later : Supervisor} (tended : Tended start later) {number : Nat}
    (hasNot : ¬ start.HasChild number) :
    ¬ later.HasChild number ∧ later.children[number]? = start.children[number]? := by
  induction tended with
  | start => exact ⟨hasNot, rfl⟩
  | consulted _ asked ih =>
      rw [asked.hasChild_iff]
      exact ⟨ih.1, (asked.spared number ih.1).trans ih.2⟩
  | read _ ih =>
      refine ⟨?_, ih.2⟩
      rintro ⟨name, task, found, rfl⟩
      rw [get?_reading] at found
      obtain ⟨before, isFound, rfl⟩ := Option.map_eq_some_iff.1 found
      exact ih.1 ⟨name, before, isFound, rfl⟩

end Supervisor

/-! ## Demands -/

/-- What can be demanded of a supervisor. -/
inductive Demand where
  | add (name : Bytes) (command : List Bytes) (environment : Environment)
  | stop (name : Bytes) (force : Bool)
  | stopAll (force : Bool)
  | status
  | isRunning (name : Bytes)
  | monitor
  /-- A run of at most so many steps.  One that takes more fails. -/
  | run (steps : Nat)
  /-- One step of a run, so that other demands can come between the steps. -/
  | step (stage : Supervisor.Stage)
  | interrupt

/-- Do what is demanded. -/
def Demand.meet (launcher : Launcher) : Demand → Supervised Supervisor Unit
  | add name command environment => Supervisor.add launcher name command environment
  | stop name force => do let _ ← Supervisor.stop name force
  | stopAll force => Supervisor.stopAll force
  | status => do let _ ← Supervisor.status
  | isRunning name => do let _ ← Supervisor.isRunning name
  | monitor => Supervisor.monitor
  | run steps => Supervisor.toItsEnd (Supervisor.runUntilComplete steps)
  | step stage => do let _ ← Supervisor.advance stage
  | interrupt => Supervisor.interrupt

def Demand.IsAddition (made : Demand) : Prop :=
  ∃ name command environment, made = .add name command environment

/-- What is no addition tends the tasks. -/
theorem Demand.meet_tends (launcher : Launcher) (supervisor : Supervisor) {made : Demand}
    (other : ¬ made.IsAddition) :
    (made.meet launcher).Leaves supervisor (Supervisor.Tended supervisor) := by
  cases made with
  | add name command environment => exact absurd ⟨name, command, environment, rfl⟩ other
  | stop name force =>
      exact (Supervisor.stop_consults supervisor name force).bind
        (fun _ => Supervisor.Consulted.tended) fun _ _ asked => .pure asked.tended
  | stopAll force => exact fun host => (Supervisor.stopAll_consults supervisor force host).tended
  | status =>
      exact (Supervisor.status_consults supervisor).bind (fun _ => Supervisor.Consulted.tended)
        fun _ _ asked => .pure asked.tended
  | isRunning name =>
      exact (Supervisor.isRunning_consults supervisor name).bind
        (fun _ => Supervisor.Consulted.tended) fun _ _ asked => .pure asked.tended
  | monitor => exact Supervisor.monitor_tends supervisor
  | run steps =>
      exact Supervisor.toItsEnd_leaves (Supervisor.runUntilComplete_tends supervisor steps)
  | step stage => exact (Supervisor.advance_tends .start stage).then fun _ _ => .pure
  | interrupt => exact fun host => (Supervisor.interrupt_consults supervisor host).tended

/-- A demand that was met. -/
structure Met where
  demand : Demand
  /-- The supervisor and the host when it was made. -/
  supervisor : Supervisor
  host : Host
  /-- What it failed with, if it failed. -/
  answer : Except Bytes Unit

namespace Met

/-- What the launch of an addition answers. -/
def launched? (launcher : Launcher) (met : Met) : Option (Bytes × Except Bytes Child) :=
  match met.demand with
  | .add name command environment =>
      some (name, ((met.supervisor.launching launcher name command environment).run met.host).1)
  | _ => none

theorem launched?_eq_none (launcher : Launcher) {met : Met} (other : ¬ met.demand.IsAddition) :
    met.launched? launcher = none := by
  unfold launched?
  split
  · rename_i name command environment isAddition
    exact absurd ⟨name, command, environment, isAddition⟩ other
  · rfl

/-- The name and the child of an addition that did not fail. -/
def registered? (launcher : Launcher) (met : Met) : Option (Bytes × Child) :=
  (met.launched? launcher).bind fun launched =>
    launched.2.toOption.map fun child => (launched.1, child)

/-- An addition fails just as its launch does. -/
def Truthful (launcher : Launcher) (met : Met) : Prop :=
  ∀ launched, met.launched? launcher = some launched →
    met.answer = launched.2.map fun _ => ()

end Met

/-- A supervisor with the demands that it met, in order. -/
structure History where
  met : List Met
  supervisor : Supervisor

namespace History

/-- The names and children of the additions that did not fail, in order. -/
def registered (launcher : Launcher) (history : History) : List (Bytes × Child) :=
  history.met.filterMap (·.registered? launcher)

/-- A supervisor that met no demand. -/
def start (grace pause : Nat) : History :=
  ⟨[], Supervisor.new grace pause⟩

/-- Meet a demand, and take note of it. -/
def demand (launcher : Launcher) (made : Demand) : Supervised History Unit :=
  ExceptT.mk fun history => do
    let host ← get
    let (answer, supervisor) ← (made.meet launcher).run.run history.supervisor
    return (answer, ⟨history.met ++ [⟨made, history.supervisor, host, answer⟩], supervisor⟩)

/-- Meet the demands one after the other, also when some fail. -/
def demandAll (launcher : Launcher) : List Demand → History → Act History
  | [], history => return history
  | made :: rest, history => do
      let (_, history) ← (demand launcher made).run.run history
      demandAll launcher rest history

variable {launcher : Launcher} {history : History}

theorem run_demand (launcher : Launcher) (made : Demand) (history : History) (host : Host) :
    ((demand launcher made).run.run history).run host =
      match ((made.meet launcher).run.run history.supervisor).run host with
      | ((answer, supervisor), after) =>
        let met := history.met ++ [⟨made, history.supervisor, host, answer⟩]
        ((answer, ⟨met, supervisor⟩), after) :=
  rfl

theorem registered_append (launcher : Launcher) (met : List Met) (last : Met)
    (supervisor : Supervisor) :
    registered launcher ⟨met ++ [last], supervisor⟩ =
      met.filterMap (·.registered? launcher) ++ (last.registered? launcher).toList := by
  rw [registered, List.filterMap_append]
  cases added : last.registered? launcher <;> simp [added]

/-- **All that one demand does**: one more task is registered, or the tasks are tended. -/
theorem demand_cases (launcher : Launcher) (made : Demand) (history : History) (host : Host) :
    let later := (((demand launcher made).run.run history).run host).1.2
    (∃ name child,
        later.registered launcher = history.registered launcher ++ [(name, child)] ∧
        later.supervisor = history.supervisor.registering name child) ∨
      later.registered launcher = history.registered launcher ∧
        history.supervisor.Tended later.supervisor := by
  by_cases addition : made.IsAddition
  · obtain ⟨name, command, environment, rfl⟩ := addition
    rw [run_demand, Demand.meet, Supervisor.add_run]
    rcases launch : (history.supervisor.launching launcher name command environment).run host
      with ⟨text | child, after⟩
    · refine .inr ⟨?_, .start⟩
      refine (registered_append launcher _ _ _).trans ?_
      simp only [Met.registered?, Met.launched?, launch]
      exact List.append_nil _
    · refine .inl ⟨name, child, ?_, rfl⟩
      refine (registered_append launcher _ _ _).trans ?_
      simp only [Met.registered?, Met.launched?, launch]
      rfl
  · refine .inr ⟨?_, Demand.meet_tends launcher history.supervisor addition host⟩
    refine (registered_append launcher _ _ _).trans ?_
    rw [Met.registered?, Met.launched?_eq_none launcher addition]
    exact List.append_nil _

theorem demand_registers (made : Demand) (host : Host)
    (registers : history.supervisor.Registers (history.registered launcher)) :
    let later := (((demand launcher made).run.run history).run host).1.2
    later.supervisor.Registers (later.registered launcher) := by
  rcases demand_cases launcher made history host with ⟨name, child, added, now⟩ | ⟨none, tended⟩
  · dsimp only
    rw [added, now]
    exact registers.registering name child
  · dsimp only
    rw [none]
    exact registers.tended tended

theorem demand_truthful (made : Demand) (host : Host)
    (truthful : ∀ met ∈ history.met, met.Truthful launcher) :
    ∀ met ∈ (((demand launcher made).run.run history).run host).1.2.met, met.Truthful launcher := by
  refine List.forall_mem_append.2 ⟨truthful, List.forall_mem_singleton.2 ?_⟩
  intro launched isLaunched
  by_cases addition : made.IsAddition
  · obtain ⟨name, command, environment, rfl⟩ := addition
    cases isLaunched
    change (((Supervisor.add launcher name command environment).run.run
      history.supervisor).run host).1.1 = _
    rw [Supervisor.add_run]
    rcases (history.supervisor.launching launcher name command environment).run host
      with ⟨text | child, after⟩ <;> rfl
  · rw [Met.launched?_eq_none launcher addition] at isLaunched
    cases isLaunched

/-- What every demand keeps is kept by any number of them. -/
theorem demandAll_induction (launcher : Launcher) (keeps : History → Prop)
    (step : ∀ made history host, keeps history →
      keeps (((demand launcher made).run.run history).run host).1.2)
    (demands : List Demand) (host : Host) (here : keeps history) :
    keeps ((demandAll launcher demands history).run host).1 := by
  induction demands generalizing history host with
  | nil => exact here
  | cons made rest ih => exact ih _ (step made history host here)

/-- A child that no task has is left alone, whatever is demanded. -/
theorem demandAll_spares (launcher : Launcher) (demands : List Demand) (host : Host) {number : Nat}
    {watched : Watched} (found : history.supervisor.children[number]? = some watched)
    (hasNot : ¬ history.supervisor.HasChild number) :
    ((demandAll launcher demands history).run host).1.supervisor.children[number]? =
      some watched := by
  refine (demandAll_induction launcher (fun later =>
    ¬ later.supervisor.HasChild number ∧ later.supervisor.children[number]? = some watched)
    (fun made between host here => ?_) demands host ⟨hasNot, found⟩).2
  rcases demand_cases launcher made between host with ⟨name, child, -, now⟩ | ⟨-, tended⟩
  · rw [now]
    exact Supervisor.registering_spares name child here.2 here.1
  · exact (tended.spared here.1).imp_right fun same => same.trans here.2

/-- What holds of a supervisor and of all that it met. -/
structure Orderly (launcher : Launcher) (history : History) : Prop where
  /-- An addition failed just where its launch did, and with the same text. -/
  answers : ∀ met ∈ history.met, met.Truthful launcher
  names : ∀ name, history.supervisor.tasks.contains name = true ↔
    ∃ child, (name, child) ∈ history.registered launcher
  children : history.supervisor.children.map (·.child) = (history.registered launcher).map (·.2)
  handles : ∀ name task, history.supervisor.tasks.get? name = some task →
    IsLastUnder (history.registered launcher) name task.child
  /-- An addition that fails changes nothing. -/
  refused : ∀ name command environment host text later after,
    ((demand launcher (.add name command environment)).run.run history).run host =
      ((.error text, later), after) → later.supervisor = history.supervisor
  /-- A child that was replaced is asked nothing more. -/
  replaced : ∀ number, Replaced (history.registered launcher) number → ∀ demands host,
    ((demandAll launcher demands history).run host).1.supervisor.children[number]? =
      history.supervisor.children[number]?
  /-- No stream of a child is read twice. -/
  once : (history.supervisor.readers.map Reader.source).Nodup
  read : ∀ name task, history.supervisor.tasks.get? name = some task → task.monitored = true →
    ∀ reader ∈ history.supervisor.readersOf name task, reader ∈ history.supervisor.readers

theorem Orderly.of_registers (truthful : ∀ met ∈ history.met, met.Truthful launcher)
    (registers : history.supervisor.Registers (history.registered launcher)) :
    Orderly launcher history where
  answers := truthful
  names name := by
    rw [← exists_isLastUnder_iff, KeyMap.contains, Option.isSome_iff_exists]
    simp only [← registers.isLast_iff]
    constructor
    · rintro ⟨task, found⟩
      exact ⟨task.child, task, found, rfl⟩
    · rintro ⟨number, task, found, -⟩
      exact ⟨task, found⟩
  children := registers.children
  handles name task found := registers.isLast found
  refused name command environment host text later after failed := by
    rw [run_demand, Demand.meet.eq_def, Supervisor.add_run] at failed
    rcases launch : (history.supervisor.launching launcher name command environment).run host
      with ⟨fault | child, between⟩
    · rw [launch] at failed
      cases failed
      rfl
    · rw [launch] at failed
      cases failed
  replaced number replaced demands host := by
    have inside : number < history.supervisor.children.length := by
      rw [registers.length_eq]
      exact replaced.lt_length
    rw [List.getElem?_eq_getElem inside]
    refine demandAll_spares launcher demands host (List.getElem?_eq_getElem inside) ?_
    rintro ⟨name, task, found, rfl⟩
    exact replaced.not_isLastUnder (registers.isLast found)
  once := registers.once
  read := registers.read

theorem demandAll_registers (launcher : Launcher) (grace pause : Nat) (demands : List Demand)
    (host : Host) :
    let later := ((demandAll launcher demands (start grace pause)).run host).1
    later.supervisor.Registers (later.registered launcher) :=
  demandAll_induction launcher
    (fun later => later.supervisor.Registers (later.registered launcher))
    (fun made _ host registers => demand_registers made host registers)
    demands host (Supervisor.Registers.new grace pause)

/-- **A supervisor is orderly after any demands**: its tasks are those that were registered,
each with the child that was last launched for it; an addition that fails changes nothing;
and a child that was replaced is left alone. -/
theorem demandAll_orderly (launcher : Launcher) (grace pause : Nat) (demands : List Demand)
    (host : Host) :
    Orderly launcher ((demandAll launcher demands (start grace pause)).run host).1 := by
  refine .of_registers ?_ (demandAll_registers launcher grace pause demands host)
  exact demandAll_induction launcher (fun later => ∀ met ∈ later.met, met.Truthful launcher)
    (fun made _ host truthful => demand_truthful made host truthful)
    demands host fun _ member => absurd member List.not_mem_nil

end History

end Assay.Supervise
