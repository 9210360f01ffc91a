/-
# Assay.Proofs.Stopping -- what a child hears when its task is stopped

A child may answer anything and fail at any call.  What it was asked, with what it answered, is
what it has heard (`Watched.heard`).  To stop a task is to poll its child and, if that runs, to
press it once or twice: to ask it to end, or to kill it, and to wait for it (`Pressed`).  After
the first answer that does not lead on no call is made, so there are few ways in which all this
can go (`Course`), and `halt_ends` says that it goes in one of them.

From there `stop_heard` reads off what is to be known of a stop: whether it says that the child
has exited, and which signals the child got.
-/
import Assay.Proofs.Tending
import Assay.Supervise.Plan

namespace Assay.Supervise

set_option autoImplicit false

open Bytes

/-! ## Acts by how they end -/

namespace Supervised

variable {σ α β : Type} {state : σ}

/-- Begun with this state the act ends, with an answer or a failure, as `post` has it. -/
def Ends (act : Supervised σ α) (state : σ) (post : Except Bytes α → σ → Prop) : Prop :=
  ∀ host, post ((act.run.run state).run host).1.1 ((act.run.run state).run host).1.2

variable {post : Except Bytes α → σ → Prop}

theorem Ends.pure {a : α} (here : post (.ok a) state) : Ends (pure a) state post :=
  fun _ => here

theorem Ends.mono {act : Supervised σ α} {weaker : Except Bytes α → σ → Prop}
    (ends : act.Ends state post) (follows : ∀ answer later, post answer later → weaker answer later) :
    act.Ends state weaker :=
  fun host => follows _ _ (ends host)

theorem Ends.bind {first : Supervised σ β} {next : β → Supervised σ α}
    {between : Except Bytes β → σ → Prop} (start : first.Ends state between)
    (fails : ∀ text later, between (.error text) later → post (.error text) later)
    (rest : ∀ b later, between (.ok b) later → (next b).Ends later post) :
    (first >>= next).Ends state post := by
  intro host
  have reached := start host
  rw [run_failing_bind]
  rcases ended : (first.run.run state).run host with ⟨⟨answer, later⟩, after⟩
  rw [ended] at reached
  cases answer with
  | ok b => exact rest b later reached after
  | error text => exact fails text later reached

theorem Ends.act_bind {act : Act β} {next : β → Supervised σ α}
    (rest : ∀ b, (next b).Ends state post) : Ends (liftM act >>= next) state post :=
  fun host => rest (act.run host).1 (act.run host).2

theorem Ends.get_bind {next : σ → Supervised σ α} (rest : (next state).Ends state post) :
    Ends (getThe σ >>= next) state post :=
  rest

theorem Ends.modify_bind {change : σ → σ} {next : Unit → Supervised σ α}
    (rest : (next ()).Ends (change state) post) :
    Ends (modifyThe σ change >>= next) state post :=
  rest

/-- What is tried ends as an answer, whether it fails or not. -/
theorem Ends.lift {body : Supervised σ β} {post : Except Bytes β → σ → Prop}
    (ends : body.Ends state post) :
    Ends (ExceptT.lift body.run : Supervised σ (Except Bytes β)) state
      fun answer later => ∃ tried, answer = .ok tried ∧ post tried later := by
  intro host
  rw [ExceptT.run_lift, StateT.run_map, StateT.run_map]
  exact ⟨_, rfl, ends host⟩

end Supervised

/-! ## What a child hears -/

/-- A call, and what the child answered to it. -/
structure Exchange where
  call : Call
  answer : Except Bytes (Option Int)

/-- The calls in order, each with the answer that the child gives to it after those before. -/
def Watched.heard (watched : Watched) : List Asked → List Exchange
  | [] => []
  | asked :: earlier => watched.heard earlier ++
      [⟨asked.call, watched.child.reply (asked :: (earlier ++ watched.calls))⟩]

/-- The child exited, and says so. -/
def saysExited : Except Bytes (Option Int) → Bool
  | .ok (some _) => true
  | _ => false

/-- A child is pressed to end: it gets a request and, unless that fails, is waited for.  The
answer is that to the last of the two. -/
inductive Pressed (grace : Nat) (request : Call) :
    List Exchange → Except Bytes (Option Int) → Prop
  | refused (text : Bytes) : Pressed grace request [⟨request, .error text⟩] (.error text)
  | waited (code : Option Int) (answer : Except Bytes (Option Int)) :
      Pressed grace request [⟨request, .ok code⟩, ⟨.await grace, answer⟩] answer

/-- How the child of a task can be brought to its end: the request `first` comes after a poll
that finds it running, and the kill after a wait in vain. -/
inductive Course (grace : Nat) (first : Call) : List Exchange → Except Bytes (Option Int) → Prop
  | polled (answer : Except Bytes (Option Int)) (settled : answer ≠ .ok none) :
      Course grace first [⟨.poll, answer⟩] answer
  | pressed {heard : List Exchange} {answer : Except Bytes (Option Int)}
      (pressed : Pressed grace first heard answer) (settled : answer ≠ .ok none) :
      Course grace first (⟨.poll, .ok none⟩ :: heard) answer
  | killed {heard more : List Exchange} {answer : Except Bytes (Option Int)}
      (pressed : Pressed grace first heard (.ok none)) (killed : Pressed grace .kill more answer) :
      Course grace first (⟨.poll, .ok none⟩ :: (heard ++ more)) answer

namespace Supervisor

open Supervised (Ends)

/-- From the one supervisor to the other nothing happened but that this child heard this. -/
structure Heard (start later : Supervisor) (number : Nat) (watched : Watched)
    (heard : List Exchange) : Prop where
  tasks : later.tasks = start.tasks
  readers : later.readers = start.readers
  grace : later.grace = start.grace
  interrupted : later.interrupted = start.interrupted
  children : ∃ new, watched.heard new = heard ∧ later.children =
    start.children.set number { watched with calls := new ++ watched.calls }

section

variable {start supervisor : Supervisor} {number : Nat} {watched : Watched} {heard : List Exchange}

theorem Heard.nothing (found : supervisor.children[number]? = some watched) :
    Heard supervisor supervisor number watched [] where
  tasks := rfl
  readers := rfl
  grace := rfl
  interrupted := rfl
  children := by
    obtain ⟨inside, isChild⟩ := List.getElem?_eq_some_iff.1 found
    refine ⟨[], rfl, ?_⟩
    rw [List.nil_append, ← isChild, List.set_getElem_self]

/-- A call is heard with its answer. -/
theorem ask_ends (found : start.children[number]? = some watched)
    (so : Heard start supervisor number watched heard) (call : Call) :
    (ask number call).Ends supervisor fun answer later =>
      Heard start later number watched (heard ++ [⟨call, answer⟩]) := by
  obtain ⟨new, isHeard, children⟩ := so.children
  have inside : number < start.children.length := (List.getElem?_eq_some_iff.1 found).1
  have isNow : supervisor.children[number]? =
      some { watched with calls := new ++ watched.calls } := by
    rw [children, List.getElem?_set_self inside]
  let calls := ⟨supervisor.clock, call⟩ :: (new ++ watched.calls)
  have asked : ∀ clock, Heard start
      { supervisor with children := supervisor.children.set number { watched with calls }, clock }
      number watched (heard ++ [⟨call, watched.child.reply calls⟩]) := by
    intro clock
    refine ⟨so.tasks, so.readers, so.grace, so.interrupted, ⟨supervisor.clock, call⟩ :: new, ?_, ?_⟩
    · rw [Watched.heard, isHeard]
    · dsimp only
      rw [children, List.set_set]
      rfl
  refine Ends.get_bind ?_
  rw [isNow]
  refine Ends.modify_bind ?_
  dsimp only
  cases replied : watched.child.reply calls with
  | error text =>
      rw [replied] at asked
      exact fun _ => asked supervisor.clock
  | ok code =>
      rw [replied] at asked
      cases call with
      | await limit =>
          cases code with
          | none => exact Ends.modify_bind (Ends.pure (asked _))
          | some code => exact Ends.pure (asked supervisor.clock)
      | _ => exact Ends.pure (asked supervisor.clock)

/-- The request that a stop begins with. -/
def firstRequest (force : Bool) : Call :=
  if force then .kill else .terminate

/-- How a child was brought to its end, or not, and what is said of it. -/
def Ended (start later : Supervisor) (number : Nat) (watched : Watched) (force : Bool)
    (answer : Except Bytes Bool) : Prop :=
  ∃ heard last, Course start.grace (firstRequest force) heard last ∧
    Heard start later number watched heard ∧ answer = last.map (·.isSome)

/-- After the poll that found it running a child is pressed once, and if that is in vain killed. -/
theorem endChild_ends (found : start.children[number]? = some watched)
    (polled : Heard start supervisor number watched [⟨.poll, .ok none⟩]) (name : Bytes)
    (force : Bool) :
    (endChild name number force).Ends supervisor fun answer later =>
      Ended start later number watched force answer := by
  refine (ask_ends found polled (firstRequest force)).bind ?_ fun code later requested => ?_
  · exact fun text later requested =>
      ⟨_, _, .pressed (.refused text) (fun same => by cases same), requested, rfl⟩
  refine Ends.get_bind ?_
  rw [requested.grace]
  refine (ask_ends found requested (.await start.grace)).bind ?_ fun exited later awaited => ?_
  · exact fun text later awaited =>
      ⟨_, _, .pressed (.waited code _) (fun same => by cases same), awaited, rfl⟩
  dsimp only
  cases exited with
  | some status =>
      refine Ends.act_bind fun _ => Ends.pure ?_
      exact ⟨_, _, .pressed (.waited code _) (fun same => by cases same), awaited, rfl⟩
  | none =>
      refine Ends.act_bind fun _ => ?_
      have inVain : Pressed start.grace (firstRequest force) _ _ := .waited code (.ok none)
      refine (ask_ends found awaited .kill).bind ?_ fun code' later killed => ?_
      · exact fun text later killed => ⟨_, _, .killed inVain (.refused text), killed, rfl⟩
      refine (ask_ends found killed (.await start.grace)).bind ?_ fun gone later awaited => ?_
      · exact fun text later awaited => ⟨_, _, .killed inVain (.waited code' _), awaited, rfl⟩
      cases gone with
      | none =>
          refine Ends.act_bind fun _ => Ends.pure ?_
          exact ⟨_, _, .killed inVain (.waited code' _), awaited, rfl⟩
      | some status =>
          refine Ends.act_bind fun _ => Ends.pure ?_
          exact ⟨_, _, .killed inVain (.waited code' _), awaited, rfl⟩

theorem halt_ends (found : start.children[number]? = some watched) (name : Bytes) (force : Bool) :
    (halt name number force).Ends start fun answer later =>
      Ended start later number watched force answer := by
  refine (ask_ends found (.nothing found) .poll).bind ?_ fun code later polled => ?_
  · exact fun text later polled => ⟨_, _, .polled _ (fun same => by cases same), polled, rfl⟩
  cases code with
  | none => exact endChild_ends found polled name force
  | some status =>
      refine Ends.act_bind fun _ => Ends.pure ?_
      exact ⟨_, _, .polled _ (fun same => by cases same), polled, rfl⟩

/-- To stop a task is to bring its child to its end; a failure is as good as a child that
does not end. -/
theorem stop_ends {name : Bytes} {task : Task} (isTask : start.tasks.get? name = some task)
    (found : start.children[task.child]? = some watched) (force : Bool) :
    (stop name force).Ends start fun answer later =>
      ∃ heard last, Course start.grace (firstRequest force) heard last ∧
        Heard start later task.child watched heard ∧ answer = .ok (saysExited last) := by
  refine Ends.get_bind ?_
  rw [isTask]
  refine (halt_ends found name force).lift.bind ?_ ?_
  · rintro text later ⟨tried, same, -⟩
    cases same
  · rintro tried later ⟨_, same, heard, last, course, isHeard, rfl⟩
    cases same
    cases last with
    | error text => exact Ends.act_bind fun _ => Ends.pure ⟨heard, _, course, isHeard, rfl⟩
    | ok code =>
        refine Ends.pure ⟨heard, _, course, isHeard, ?_⟩
        cases code <;> rfl

end

end Supervisor

/-! ## What is to be known of a stop -/

def Call.isSignal : Call → Bool
  | .terminate | .kill => true
  | .poll | .await _ => false

/-- The signals among what was heard. -/
def signals (heard : List Exchange) : List Call :=
  (heard.map (·.call)).filter Call.isSignal

/-- What a child heard when its task was stopped, and what was said of it then. -/
structure Stopped (force : Bool) (heard : List Exchange) (answer : Bool) : Prop where
  /-- It is said to have exited just where the last that was heard is that it has. -/
  exited : answer = true ↔ ∃ call code, heard.getLast? = some ⟨call, .ok (some code)⟩ ∧
    call.isSignal = false
  begins : ∃ reply rest, heard = ⟨.poll, reply⟩ :: rest
  /-- It gets a signal just where the poll finds it running. -/
  spared : signals heard = [] ↔ ∀ rest, heard ≠ ⟨.poll, .ok none⟩ :: rest
  first : ∀ signal more, signals heard = signal :: more →
    signal = if force then .kill else .terminate
  /-- A second signal is a kill, right after a wait in vain for the effect of the first. -/
  second : ∀ one two more, signals heard = one :: two :: more →
    two = .kill ∧ more = [] ∧ ∃ before limit reply after, signals before = [one] ∧
      heard = before ++ ⟨.await limit, .ok none⟩ :: ⟨.kill, reply⟩ :: after

theorem isSignal_firstRequest (force : Bool) : (Supervisor.firstRequest force).isSignal = true := by
  cases force <;> rfl

section

variable {grace : Nat} {force : Bool} {heard : List Exchange} {last : Except Bytes (Option Int)}

theorem signals_append (heard more : List Exchange) :
    signals (heard ++ more) = signals heard ++ signals more := by
  rw [signals, signals, signals, List.map_append, List.filter_append]

theorem signals_poll (answer : Except Bytes (Option Int)) (more : List Exchange) :
    signals (⟨.poll, answer⟩ :: more) = signals more :=
  rfl

/-- To be pressed is to get one signal, the request. -/
theorem Pressed.signals_eq {request : Call} (isSignal : request.isSignal = true)
    (pressed : Pressed grace request heard last) : signals heard = [request] := by
  cases pressed with
  | refused text => exact List.filter_cons_of_pos isSignal
  | waited code answer => exact List.filter_cons_of_pos isSignal

theorem Pressed.getLast?_eq {request : Call} (pressed : Pressed grace request heard last) :
    ∃ call, heard.getLast? = some ⟨call, last⟩ ∧ (saysExited last = true → call.isSignal = false) := by
  cases pressed with
  | refused text => exact ⟨request, rfl, nofun⟩
  | waited code answer => exact ⟨.await grace, rfl, fun _ => rfl⟩

/-- The last call is one that `last` answers, and no signal where that says something. -/
theorem Course.getLast?_eq {request : Call} (course : Course grace request heard last) :
    ∃ call, heard.getLast? = some ⟨call, last⟩ ∧ (saysExited last = true → call.isSignal = false) := by
  cases course with
  | polled answer settled => exact ⟨.poll, rfl, fun _ => rfl⟩
  | pressed pressed settled =>
      obtain ⟨call, isLast, looks⟩ := pressed.getLast?_eq
      exact ⟨call, by rw [List.getLast?_cons, isLast]; rfl, looks⟩
  | killed pressed killed =>
      obtain ⟨call, isLast, looks⟩ := killed.getLast?_eq
      exact ⟨call, by rw [List.getLast?_cons, List.getLast?_append, isLast]; rfl, looks⟩

theorem Course.exited_iff {request : Call} (course : Course grace request heard last) :
    saysExited last = true ↔
      ∃ call code, heard.getLast? = some ⟨call, .ok (some code)⟩ ∧ call.isSignal = false := by
  obtain ⟨call, isLast, looks⟩ := course.getLast?_eq
  constructor
  · intro exited
    have looked := looks exited
    unfold saysExited at exited
    split at exited
    · exact ⟨call, _, isLast, looked⟩
    · cases exited
  · rintro ⟨other, code, isLastToo, -⟩
    have same := isLast.symm.trans isLastToo
    cases same
    rfl

/-- The signals of a course, and that a second one follows a wait in vain. -/
theorem Course.signals_cases {request : Call} (isSignal : request.isSignal = true)
    (course : Course grace request heard last) :
    (signals heard = [] ∧ ∀ rest, heard ≠ ⟨.poll, .ok none⟩ :: rest) ∨
      (signals heard = [request] ∧ ∃ rest, heard = ⟨.poll, .ok none⟩ :: rest) ∨
      (signals heard = [request, .kill] ∧ (∃ rest, heard = ⟨.poll, .ok none⟩ :: rest) ∧
        ∃ before limit reply after, signals before = [request] ∧
          heard = before ++ ⟨.await limit, .ok none⟩ :: ⟨.kill, reply⟩ :: after) := by
  cases course with
  | polled answer settled =>
      refine .inl ⟨rfl, fun rest same => settled ?_⟩
      cases same
      rfl
  | pressed pressed settled =>
      exact .inr (.inl ⟨(signals_poll _ _).trans (pressed.signals_eq isSignal), _, rfl⟩)
  | killed pressed killed =>
      refine .inr (.inr ⟨?_, ⟨_, rfl⟩, ?_⟩)
      · rw [signals_poll, signals_append, pressed.signals_eq isSignal, killed.signals_eq rfl]
        rfl
      · cases pressed with
        | waited code _ =>
            have before : signals [⟨.poll, .ok none⟩, ⟨request, .ok code⟩] = [request] :=
              List.filter_cons_of_pos isSignal
            cases killed with
            | refused text => exact ⟨_, grace, _, [], before, rfl⟩
            | waited code' _ => exact ⟨_, grace, _, _, before, rfl⟩

theorem Course.stopped (course : Course grace (Supervisor.firstRequest force) heard last) :
    Stopped force heard (saysExited last) := by
  have begins : ∃ reply rest, heard = ⟨.poll, reply⟩ :: rest := by
    cases course <;> exact ⟨_, _, rfl⟩
  rcases course.signals_cases (isSignal_firstRequest force) with
    ⟨none', notRunning⟩ | ⟨one, rest, running⟩ | ⟨two, ⟨rest, running⟩, inVain⟩
  · exact {
      exited := course.exited_iff
      begins
      spared := iff_of_true none' notRunning
      first := fun signal more isFirst => by cases none'.symm.trans isFirst
      second := fun one two more areFirst => by cases none'.symm.trans areFirst }
  · exact {
      exited := course.exited_iff
      begins
      spared := iff_of_false (by simp [one]) fun notRunning => notRunning rest running
      first := fun signal more isFirst => by
        cases one.symm.trans isFirst
        rfl
      second := fun first second more areFirst => by cases one.symm.trans areFirst }
  · exact {
      exited := course.exited_iff
      begins
      spared := iff_of_false (by simp [two]) fun notRunning => notRunning rest running
      first := fun signal more isFirst => by
        cases two.symm.trans isFirst
        rfl
      second := fun first second more areFirst => by
        cases two.symm.trans areFirst
        exact ⟨rfl, rfl, inVain⟩ }

end

/-- **A stop says what it saw, and presses no harder than it must.**  It does not fail and
keeps the tasks.  Where there is no such task nothing happens; else the child of the task
is the only one that is asked, and hears what `Stopped` says. -/
theorem stop_heard (supervisor : Supervisor) (name : Bytes) (force : Bool) (host : Host) :
    let ended := (((Supervisor.stop name force).run.run supervisor).run host).1
    ∃ answer, ended.1 = .ok answer ∧ ended.2.tasks = supervisor.tasks ∧
      (supervisor.tasks.get? name = none → answer = false ∧ ended.2 = supervisor) ∧
      ∀ task watched, supervisor.tasks.get? name = some task →
        supervisor.children[task.child]? = some watched →
          ∃ heard, Supervisor.Heard supervisor ended.2 task.child watched heard ∧
            Stopped force heard answer := by
  intro ended
  obtain ⟨answer, answered⟩ := supervisor.stop_succeeds name force host
  refine ⟨answer, answered, (supervisor.stop_consults name force host).tasks, ?_, ?_⟩
  · intro isNone
    have nothing : (Supervisor.stop name force).Ends supervisor fun answer later =>
        answer = .ok false ∧ later = supervisor := by
      refine Supervised.Ends.get_bind ?_
      rw [isNone]
      exact Supervised.Ends.act_bind fun _ => Supervised.Ends.pure ⟨rfl, rfl⟩
    obtain ⟨isFalse, unchanged⟩ := nothing host
    exact ⟨Except.ok.inj (answered.symm.trans isFalse), unchanged⟩
  · intro task watched isTask found
    obtain ⟨heard, last, course, isHeard, isLast⟩ := Supervisor.stop_ends isTask found force host
    refine ⟨heard, isHeard, ?_⟩
    rw [Except.ok.inj (answered.symm.trans isLast)]
    exact course.stopped

/-- A child that does not mind being asked to end. -/
def deafChild : Watched :=
  ⟨Plan.child { onTerminate := .ignore }, []⟩

def deafSupervisor : Supervisor :=
  { Supervisor.new 5 1 with
    tasks := KeyMap.ofList [(ascii "job", ⟨0, false⟩)]
    children := [deafChild] }

/-- It is killed after a wait in vain, and then said to have exited. -/
theorem deafChild_stop_heard :
    let ended := (((Supervisor.stop (ascii "job") false).run.run deafSupervisor).run Host.bare).1
    deafSupervisor.tasks.get? (ascii "job") = some ⟨0, false⟩ ∧
      deafSupervisor.children[0]? = some deafChild ∧
      ended.1 = .ok true ∧
      ∃ heard, Supervisor.Heard deafSupervisor ended.2 0 deafChild heard ∧
        Stopped false heard true := by
  intro ended
  have isTask : deafSupervisor.tasks.get? (ascii "job") = some ⟨0, false⟩ := by decide
  have exited : ended.1 = .ok true := by rfl
  obtain ⟨answer, answered, -, -, heard⟩ :=
    stop_heard deafSupervisor (ascii "job") false Host.bare
  obtain rfl : answer = true := Except.ok.inj (answered.symm.trans exited)
  exact ⟨isTask, rfl, exited, heard _ _ isTask rfl⟩

end Assay.Supervise
