/-
# Assay.Proofs.Replies -- what a client tells of a command

A client without a container refuses a command, and nothing happens.  Any other invokes the
runtime, which can be missing, can refuse to be launched, can end, or can be still there when the
limit has passed (`Invoked`).  Of the outcome alone it can be told whether it ended (`Tells`):
where it did there are no errors, as both its streams are the output, and where it did not the
errors begin with a mark.

No command changes the client, so that one that has let its container go refuses all that come
later (`execute_tells`).
-/
import Assay.Proofs.Execution
import Assay.Proofs.Lifecycle

namespace Assay.Container

set_option autoImplicit false

open Bytes Shell
open Exec (Outcome)

/-! ## The runtime -/

/-- The launch of the runtime with these words. -/
def runtimeLaunch (host : Host) (program : Bytes) (words : List Bytes) : Launch where
  program
  arguments := words.tail
  environ := host.environ
  directory := host.directoryPath
  input := []

/-- What can come of an invocation of the runtime. -/
inductive Invoked (programs : Programs) (host : Host) (words : List Bytes) (limit : Int) :
    Except Bytes ChildRun → Prop
  /-- No such program is found. -/
  | missing (none : host.findProgram (runtimePath host) (words.headD []) = none) (reason : Bytes) :
      Invoked programs host words limit (.error reason)
  /-- It is launched, whether that succeeds or not. -/
  | launched {program : Bytes} {reply : Except Bytes ChildRun} {files : FileTree}
      (found : host.findProgram (runtimePath host) (words.headD []) = some program)
      (ran : programs host (runtimeLaunch host program words) (some limit) = (reply, files)) :
      Invoked programs host words limit reply

theorem invoke_invoked (programs : Programs) (words : List Bytes) (limit : Int) (host : Host) :
    Ensures (invoke programs words limit) host fun reply _ =>
      Invoked programs host words limit reply := by
  unfold invoke
  refine Ensures.get_bind ?_
  dsimp only
  split
  · rename_i none
    exact Ensures.pure (.missing none _)
  · rename_i program found
    exact .launched found rfl

namespace Client

/-! ## One command -/

/-- What the outcome of a command tells of what came of the runtime. -/
structure Tells (reply : Except Bytes ChildRun) (outcome : Outcome) : Prop where
  /-- It was not launched, or did not end before the limit. -/
  failed : Unfinished reply.toOption →
    outcome.code = 1 ∧ outcome.output = [] ∧ dispatchMark <+: outcome.errors
  ended : ∀ run status, reply = .ok run → run.ending = .reaped status →
    outcome = ⟨exitCode status, run.merged, []⟩
  /-- Which of the two it was is to be seen of the errors. -/
  apart : outcome.errors = [] ↔ ¬ Unfinished reply.toOption
  exited : ∀ run (code : Nat), reply = .ok run → code < 256 →
    run.ending = .reaped (256 * code) → outcome.code = code
  killed : ∀ run (signal : Nat) (dumped : Bool), reply = .ok run → 1 ≤ signal ∧ signal ≤ 64 →
    run.ending = .reaped (signal + if dumped then 128 else 0) → outcome.code = 128 + signal

/-- An outcome that has a mark for errors tells of a run that was not finished. -/
theorem Tells.of_unfinished {reply : Except Bytes ChildRun} (unfinished : Unfinished reply.toOption)
    (detail : Bytes) : Tells reply (.failure (dispatchMark ++ detail)) := by
  have noStatus : ∀ run status, reply = .ok run → run.ending ≠ .reaped status := by
    rintro run status rfl reaped
    rw [unfinished run rfl] at reaped
    cases reaped
  refine ⟨fun _ => ⟨rfl, rfl, List.prefix_append _ _⟩, ?_, ?_, ?_, ?_⟩
  · exact fun run status isRun reaped => absurd reaped (noStatus run status isRun)
  · exact ⟨nofun, fun finished => absurd unfinished finished⟩
  · exact fun run code isRun _ reaped => absurd reaped (noStatus run _ isRun)
  · exact fun run signal dumped isRun _ reaped => absurd reaped (noStatus run _ isRun)

/-- The outcome of a run that ended is what it wrote, and its code. -/
theorem Tells.of_reaped {run : ChildRun} {status : Int} (reaped : run.ending = .reaped status) :
    Tells (.ok run) ⟨exitCode status, run.merged, []⟩ := by
  have finished : ¬ Unfinished (some run) := by
    intro unfinished
    have outlived := unfinished run rfl
    rw [reaped] at outlived
    cases outlived
  refine ⟨fun unfinished => absurd unfinished finished, ?_, ?_, ?_, ?_⟩
  · rintro _ other ⟨⟩ same
    cases reaped.symm.trans same
    rfl
  · exact ⟨fun _ => finished, fun _ => rfl⟩
  · rintro _ code ⟨⟩ small same
    cases reaped.symm.trans same
    exact exitCode_exited small
  · rintro _ signal dumped ⟨⟩ real same
    cases reaped.symm.trans same
    exact exitCode_killed real dumped

theorem tells_commandOutcome (command : Bytes) (limit : Int) (reply : Except Bytes ChildRun) :
    Tells reply (commandOutcome command limit reply) := by
  cases reply with
  | error reason =>
      have unfinished : Unfinished (Except.toOption (.error reason : Except Bytes ChildRun)) := by
        rintro _ ⟨⟩
      exact .of_unfinished unfinished reason
  | ok run =>
      unfold commandOutcome
      dsimp only
      cases ending : run.ending with
      | outlived =>
          have unfinished : Unfinished (Except.toOption (.ok run : Except Bytes ChildRun)) := by
            rintro _ ⟨⟩
            exact ending
          simp only [List.append_assoc]
          exact .of_unfinished unfinished _
      | reaped status => exact .of_reaped ending

variable (programs : Programs) (client : Client) (host : Host)

/-- The words with which the runtime is invoked for a command. -/
def wordsFor (command directory : Bytes) : List Bytes :=
  client.config.commandWords host command
    (if directory.isEmpty then client.config.directory else directory)

/-- The host when a command has been announced. -/
def announced (command directory : Bytes) : Host :=
  ((Log.info (ascii "[container] Executing command: " ++
    quoteWords (client.wordsFor host command directory))).run host).2

/-- What a client answers to a command, and what becomes of the host. -/
structure Answers (command directory : Bytes) (timeout : Option Int)
    (answer : Except NotReady Outcome) (after : Host) : Prop where
  /-- A client that has a container does not refuse, and all others do. -/
  refuses : (∃ fault, answer = .error fault) ↔ client.state ≠ .started ∧ client.state ≠ .bound
  untouched : (∃ fault, answer = .error fault) → after = host
  told : ∀ outcome, answer = .ok outcome → ∃ reply,
    Invoked programs (client.announced host command directory)
        (client.wordsFor host command directory) (timeout.getD client.config.timeout) reply ∧
      Tells reply outcome

variable {client}

theorem isReady_eq_false_iff :
    client.state.isReady = false ↔ client.state ≠ .started ∧ client.state ≠ .bound := by
  cases client.state <;> decide

/-- A client without a container refuses each command, and nothing happens. -/
theorem execute_refused (idle : client.state.isReady = false) (command directory : Bytes)
    (timeout : Option Int) :
    (client.execute programs command directory timeout).run host = (.error {}, host) := by
  unfold execute
  rw [idle]
  rfl

theorem begin_invoked (command directory : Bytes) (limit : Int) :
    Ensures (client.begin programs command directory limit) host fun reply _ =>
      Invoked programs (client.announced host command directory)
        (client.wordsFor host command directory) limit reply := by
  refine Ensures.get_bind (Ensures.bind_run ?_)
  exact invoke_invoked programs _ limit _

theorem execute_answers (command directory : Bytes) (timeout : Option Int) :
    Ensures (client.execute programs command directory timeout) host
      (client.Answers programs host command directory timeout) := by
  cases ready : client.state.isReady with
  | false =>
      have refused := execute_refused programs host ready command directory timeout
      unfold Ensures
      rw [refused]
      exact ⟨⟨fun _ => isReady_eq_false_iff.1 ready, fun _ => ⟨_, rfl⟩⟩, fun _ => rfl, nofun⟩
  | true =>
      have notIdle : ¬ (client.state ≠ .started ∧ client.state ≠ .bound) := by
        rw [← isReady_eq_false_iff, ready]
        nofun
      have limited : client.execute programs command directory timeout =
          client.execute programs command directory (timeout.getD client.config.timeout) := rfl
      rw [limited, execute_eq_begin programs ready]
      refine Ensures.bind (begin_invoked programs host command directory _) ?_
      intro reply after invoked
      refine Ensures.pure ⟨⟨nofun, fun idle => absurd idle notIdle⟩, nofun, ?_⟩
      rintro _ ⟨⟩
      exact ⟨reply, invoked, tells_commandOutcome command _ reply⟩

/-! ## When the container is let go -/

variable {host} {programs}

/-- A client that has let its container go is as it was after each call but a start, and so is
the host. -/
theorem call_of_released (gone : client.state = .released) {call : Call} (noStart : call ≠ .start) :
    (client.call programs call).run host = (client, host) := by
  cases call with
  | start => exact absurd rfl noStart
  | execute command directory timeout =>
      have idle : client.state.isReady = false := by rw [gone]; rfl
      change (client, ((client.execute programs command directory timeout).run host).2) = _
      rw [execute_refused programs host idle]
  | release => exact release_idle programs host (.inl gone)

theorem reached_of_released (gone : client.state = .released) {calls : List Call}
    (noStart : .start ∉ calls) : reached programs client host calls = (client, host) := by
  induction calls with
  | nil => rfl
  | cons call rest ih =>
      rw [List.mem_cons, not_or] at noStart
      obtain ⟨notFirst, notLater⟩ := noStart
      have first : (client.call programs call).run host = (client, host) :=
        call_of_released gone (Ne.symm notFirst)
      change (Client.calls programs ((client.call programs call).run host).1 rest).run
        ((client.call programs call).run host).2 = _
      rw [first]
      exact ih notLater

/-- **What a client tells of a command.**  Just those refuse it that have no container; then
nothing happens.  The others answer an outcome of which is to be told whether the runtime ran the
command to its end.  The client is the same after it.  When it lets its container go, then from
that on commands and releases do nothing, whatever their order, and each command is refused. -/
theorem execute_tells (programs : Programs) (client : Client) (host : Host) :
    (∀ command directory timeout,
      Ensures (client.execute programs command directory timeout) host
          (client.Answers programs host command directory timeout) ∧
        ((client.call programs (.execute command directory timeout)).run host).1 = client) ∧
      (client.state ≠ .released → client.config.identifier ≠ [] →
        let gone := ((client.release programs).run host).1
        ∀ later calls, .start ∉ calls →
          reached programs gone later calls = (gone, later) ∧
            ∀ command directory timeout,
              (gone.execute programs command directory timeout).run later =
                (.error {}, later)) := by
  constructor
  · intro command directory timeout
    exact ⟨execute_answers programs host command directory timeout, rfl⟩
  · intro due named gone later calls noStart
    obtain ⟨shape, -⟩ := release_issues programs host due named
    have released : gone.state = .released := congrArg Client.state shape
    have idle : gone.state.isReady = false := by rw [released]; rfl
    exact ⟨reached_of_released released noStart, execute_refused programs later idle⟩

/-- A client that was given a container. -/
def boundClient : Client :=
  ⟨{ localRuntime with identifier := ascii "c1" }, .bound⟩

/-- Programs that write to both streams and are killed. -/
def killedPrograms : Programs := fun host _ _ =>
  (.ok ⟨[(.errors, ascii "a"), (.output, ascii "b")], [], .reaped 9, 0⟩, host.files)

theorem boundClient_tells :
    ((boundClient.execute killedPrograms (ascii "ls") [] none).run .bare).1.toOption =
        some ⟨137, ascii "ab", []⟩ ∧
      let gone := ((boundClient.release killedPrograms).run .bare).1
      reached killedPrograms gone .bare [.execute (ascii "ls") [] none, .release] = (gone, .bare) ∧
        ((gone.execute killedPrograms (ascii "ls") [] (some 5)).run .bare).1 = .error {} := by
  obtain ⟨-, released⟩ := execute_tells killedPrograms boundClient .bare
  obtain ⟨stays, refuses⟩ := released (by decide) (by decide) .bare
    [.execute (ascii "ls") [] none, .release] (by simp)
  refine ⟨by decide +kernel, stays, ?_⟩
  exact congrArg Prod.fst (refuses (ascii "ls") [] (some 5))

end Client

end Assay.Container
