/-
# Assay.Proofs.Unfinished -- a test that was not finished

A command that cannot be started, or that outlives its limit, has an outcome without
output, whatever it wrote before it was stopped, on the host and in a container alike
(`output_of_unfinished`).  The log of such a test is empty, and an empty log reports
nothing; that is not a report on no tests, so the verdict is that nothing was tested,
also on a job that expects nothing (`unfinished_test_untested`).

The log is a file, and a command that looks at the code comes between its writing and
its reading.  What the theorem asks is that the log is still empty when it is read; a
command that fills it again decides the verdict (`tampering_resolves`).
-/
import Assay.Proofs.Course
import Assay.Proofs.Stages

namespace Assay

set_option autoImplicit false

open Bytes

/-- The end of a session by its answer. -/
theorem eq_of_answer {α β γ : Type} (ended : (α × β) × γ) {answer : α}
    (answered : ended.1.1 = answer) : ended = ((answer, ended.1.2), ended.2) := by
  rw [← answered]

/-- A command that could not be started, or did not end by itself. -/
def Unfinished (run : Option ChildRun) : Prop :=
  ∀ ran ∈ run, ran.ending = .outlived

instance (run : Option ChildRun) : Decidable (Unfinished run) :=
  inferInstanceAs (Decidable (∀ ran ∈ run, ran.ending = .outlived))

namespace Exec

/-! ## On the host -/

/-- Launch what a request asks for; answers how it was run, and its run. -/
def launchRequest (programs : Programs) (executor : Executor) (request : Request)
    (directory : Bytes) (limit : Int) : Act (Except StartError (Shell.Dispatch × ChildRun)) := do
  let host ← get
  let environment :=
    Environment.build host.environ [some executor.environment, some request.environment] true
  match prepare host request environment.searchPath with
  | .error fault => return .error fault
  | .ok invocation =>
      let run ← launch programs
        { program := invocation.program
          arguments := invocation.arguments
          environ := environment.toEntries
          directory
          input := request.input.getD [] }
        (some limit)
      match run with
      | .error reason => return .error (.refused reason)
      | .ok run => return .ok (invocation.mode, run)

/-- The result of a command that was launched, or could not be. -/
def conclude (request : Request) (limit : Int) :
    Except StartError (Shell.Dispatch × ChildRun) → Act Result
  | .error fault => do
      Log.error (ascii "[exec] Execution failed after " ++ Result.secondsText 0 ++ ascii "s: " ++
        fault.message)
      Log.info (ascii "[exec] ++++++++End executing command++++++++")
      return ⟨notStarted, [], ascii "Execution error: " ++ fault.message, 0, request.mode⟩
  | .ok (mode, run) => do
      let result ← match request.onLine with
        | some handler => streamed handler mode limit run
        | none => captured request mode limit run
      Log.info (ascii "[exec] ++++++++End executing command++++++++")
      return result

/-- Taking the output as a whole changes the files at most. -/
theorem keeps_captured {α : Type} {view : Host → α}
    (stable : ∀ (host : Host) files, view { host with files := files } = view host)
    (request : Request) (mode : Shell.Dispatch) (limit : Int) (run : ChildRun) :
    Keeps view (captured request mode limit run) := by
  unfold captured
  dsimp only
  split
  · refine Keeps.bind (keeps_modifyGet fun host => ?_) fun _ => ?_
    · dsimp only
      split
      · exact stable host _
      · rfl
    · cases run.ending <;> exact Keeps.pure _
  · cases run.ending <;> exact Keeps.pure _

/-- A command whose output is taken as a whole leaves none when it does not end. -/
theorem captured_output_of_outlived (request : Request) (mode : Shell.Dispatch) (limit : Int)
    {run : ChildRun} (outlived : run.ending = .outlived) (host : Host) :
    Ensures (captured request mode limit run) host fun result _ => result.output = [] := by
  simp only [captured, outlived]
  split
  · exact Ensures.bind_any fun _ _ => Ensures.pure rfl
  · exact Ensures.pure rfl

theorem conclude_output_of_unfinished {request : Request} (whole : request.onLine = none)
    (limit : Int) {launched : Except StartError (Shell.Dispatch × ChildRun)}
    (unfinished : Unfinished (launched.toOption.map (·.2))) (host : Host) :
    Ensures (conclude request limit launched) host fun result _ => result.output = [] := by
  cases launched with
  | error fault => exact Ensures.bind_any fun _ _ => Ensures.bind_any fun _ _ => Ensures.pure rfl
  | ok launched =>
      obtain ⟨mode, run⟩ := launched
      simp only [conclude, whole]
      refine Ensures.bind (captured_output_of_outlived request mode limit (unfinished run rfl) host) ?_
      intro result after empty
      exact Ensures.bind_any fun _ _ => Ensures.pure empty

namespace Executor

/-- The limit and the directory of a request. -/
def limitOf (executor : Executor) (request : Request) : Int :=
  request.timeout.getD executor.timeout

def directoryOf (executor : Executor) (request : Request) : Bytes :=
  if request.directory.isEmpty then executor.directory else request.directory

def announce (executor : Executor) (request : Request) : Act Unit := do
  Log.info (ascii "[exec] ++++++++Begin executing command++++++++")
  Log.info (ascii "[exec] Command:" ++ request.description ++ ascii " Workdir: " ++
    executor.directoryOf request ++ ascii ", Timeout: " ++ ofInt (executor.limitOf request) ++
    ascii "s")

/-- Announce a request and launch it. -/
def start (programs : Programs) (executor : Executor) (request : Request) :
    Act (Except StartError (Shell.Dispatch × ChildRun)) := do
  executor.announce request
  launchRequest programs executor request (executor.directoryOf request) (executor.limitOf request)

/-- To execute a request is to start it, and to take what comes of that as its result. -/
theorem execute_eq_start (programs : Programs) (executor : Executor) (request : Request) :
    executor.execute programs request = (do
      conclude request (executor.limitOf request) (← executor.start programs request)) := by
  unfold execute start announce attempt launchRequest
  simp only [bind_assoc]
  refine bind_congr fun _ => bind_congr fun _ => bind_congr fun host => ?_
  rw [directoryOf, limitOf]
  cases prepare host request _ with
  | error fault => rfl
  | ok invocation =>
      simp only [bind_assoc]
      refine bind_congr fun launched => ?_
      cases launched with
      | error reason => rfl
      | ok run =>
          simp only [pure_bind, conclude]
          cases request.onLine with
          | none => simp only [bind_assoc, pure_bind]
          | some handler => simp only [bind_assoc, pure_bind]

end Executor

end Exec

namespace Container.Client

/-! ## In a container -/

/-- Announce a command for the container and start it. -/
def begin (programs : Programs) (client : Client) (command directory : Bytes) (limit : Int) :
    Act (Except Bytes ChildRun) := do
  let directory := if directory.isEmpty then client.config.directory else directory
  let words := client.config.commandWords (← get) command directory
  Log.info (ascii "[container] Executing command: " ++ Shell.quoteWords words)
  invoke programs words limit

/-- In a container that is ready a command is started, and has an outcome. -/
theorem execute_eq_begin (programs : Programs) {client : Client}
    (ready : client.state.isReady = true) (command directory : Bytes) (limit : Int) :
    client.execute programs command directory (some limit) = (do
      return .ok (commandOutcome command limit
        (← client.begin programs command directory limit))) := by
  unfold execute begin
  simp only [ready, Bool.not_true, Bool.false_eq_true, if_false, bind_assoc, Option.getD_some]

end Container.Client

namespace Evaluation

open Exec (Outcome)

/-! ## Either way -/

/-- Where the commands of an evaluation run. -/
inductive Place where
  /-- On the host, by an executor. -/
  | host (executor : Exec.Executor)
  /-- In a container, in a directory of it or in the usual one. -/
  | container (client : Container.Client) (directory : Bytes)

namespace Place

variable {programs : Programs} {place : Place}

def runner (programs : Programs) : Place → Runner
  | host executor => .onHost programs executor
  | container client directory => .inContainer programs client directory

/-- Start a command as the runner does; answers its run, if it could be started. -/
def start (programs : Programs) (place : Place) (command : Bytes) (limit : Int) :
    Act (Option ChildRun) :=
  match place with
  | host executor => do
      let launched ← executor.start programs { command, timeout := some limit }
      return launched.toOption.map (·.2)
  | container client directory => do
      return (← client.begin programs command directory limit).toOption

/-- There are outcomes at a place: commands run on the host, or the container is ready. -/
def isOpen : Place → Bool
  | host _ => true
  | container client _ => client.state.isReady

/-- Where one command had an outcome, each has one. -/
theorem isOpen_of_outcome {command : Bytes} {limit : Int} {host : Host} {outcome : Outcome}
    (answered : (((place.runner programs).run command limit).run host).1 = .ok outcome) :
    place.isOpen = true := by
  cases place with
  | host executor => rfl
  | container client directory =>
      cases ready : client.state.isReady with
      | true => exact ready
      | false =>
          simp only [runner, Runner.inContainer, Container.Client.execute, ready] at answered
          cases answered

theorem alwaysAnswers (isOpen : place.isOpen = true) : (place.runner programs).AlwaysAnswers := by
  intro command limit host
  cases place with
  | host executor => exact ⟨_, rfl⟩
  | container client directory =>
      have executes := client.execute_eq_begin programs isOpen command directory limit
      simp only [runner, Runner.inContainer, executes]
      exact ⟨_, rfl⟩

/-- **The outcome of a command that was not finished has no output**, whatever the
command wrote. -/
theorem output_of_unfinished {command : Bytes} {limit : Int} {host : Host} {outcome : Outcome}
    (unfinished : Unfinished ((place.start programs command limit).run host).1)
    (answered : (((place.runner programs).run command limit).run host).1 = .ok outcome) :
    outcome.output = [] := by
  cases place with
  | host executor =>
      have ends : Ensures (executor.execute programs { command, timeout := some limit }) host
          fun result _ => result.output = [] := by
        rw [Exec.Executor.execute_eq_start]
        exact Ensures.bind_run (Exec.conclude_output_of_unfinished rfl _ unfinished _)
      rw [← Except.ok.inj answered]
      exact ends
  | container client directory =>
      have executes := client.execute_eq_begin programs (isOpen_of_outcome answered) command
        directory limit
      simp only [runner, Runner.inContainer, executes] at answered
      rw [← Except.ok.inj answered]
      change Unfinished (((client.begin programs command directory limit).run host).1.toOption)
        at unfinished
      change (Container.Client.commandOutcome command limit
        (((client.begin programs command directory limit).run host).1)).output = []
      cases begun : ((client.begin programs command directory limit).run host).1 with
      | error reason => rfl
      | ok run =>
          rw [begun] at unfinished
          simp only [Container.Client.commandOutcome, unfinished run rfl]
          rfl

end Place

/-! ## The verdict -/

section

variable {runner : Runner} {host : Host} {journal : List Issued} (trial : Trial) (job : Job)

/-- The runner had an outcome for a command once. -/
def Runner.HasAnswered (runner : Runner) : Prop :=
  ∃ command limit host outcome, ((runner.run command limit).run host).1 = .ok outcome

theorem Trial.captureDiff_answered (time : Bytes) :
    (trial.captureDiff runner job time).Ends host journal
      (fun _ _ _ => runner.HasAnswered) (fun _ _ _ => True) := by
  refine Session.Ends.bind (trial.issue_outcome fun _ _ _ _ => trivial) ?_
  intro outcome _ after answered
  exact Session.Ends.act_bind (Session.Ends.pure ⟨_, _, _, outcome, answered⟩)

/-- A trial comes to its test only with a patch, and after a command had an outcome. -/
theorem Trial.toTest_ready :
    (trial.toTest runner job).Ends host journal
      (fun stage _ _ => ∀ changes script, stage = .ready changes script →
        job.patch.isSome = true ∧ runner.HasAnswered)
      (fun _ _ _ => True) := by
  refine Session.Ends.act_bind ?_
  split
  · exact Session.Ends.act_bind (Session.Ends.pure fun _ _ settled => by cases settled)
  · rename_i present
    refine Session.Ends.act_bind (Session.Ends.bind Session.Ends.anyhow ?_)
    rintro applied _ after -
    rcases applied with (message | cause | message) | _
    · exact Session.Ends.act_bind (Session.Ends.pure fun _ _ settled => by cases settled)
    · exact Session.Ends.throw trivial
    · exact Session.Ends.throw trivial
    · refine Session.Ends.bind (trial.captureDiff_answered job _) fun changes _ _ answered => ?_
      refine Session.Ends.act_bind (Session.Ends.pure fun _ _ _ => ⟨?_, answered⟩)
      exact Option.isSome_iff_ne_none.2 (by simpa using present)

/-- The test of a runner that always answers has the outcome of its command. -/
theorem Trial.runTest_ends (answers : runner.AlwaysAnswers) (changes script : Bytes) :
    (trial.runTest runner job changes script).Ends host journal
      (fun tested _ _ =>
        ((runner.run (testCommand script) trial.timeout).run host).1 = .ok tested.1)
      (fun _ _ _ => False) := by
  refine Session.Ends.bind (trial.issue_outcome fun fault failed => ?_) ?_
  · obtain ⟨outcome, answered⟩ := answers (testCommand script) trial.timeout host
    rw [answered] at failed
    cases failed
  · intro outcome _ after answered
    refine Session.Ends.act_bind (Session.Ends.act_bind (Session.Ends.act_or_not fun host => ?_))
    refine Session.Ends.bind (trial.captureDiff_ends answers job _) ?_
    rintro _ _ _ ⟨issued, -, -⟩
    refine Session.Ends.act_or_not fun host => Session.Ends.act_bind (Session.Ends.pure ?_)
    exact answered

/-- A file that holds nothing is read as nothing, whether it may be read or not. -/
theorem text_of_empty {host : Host} {path : Bytes} (empty : host.Holds path []) :
    host.text path = [] := by
  unfold Host.text FileTree.text FileTree.read
  rcases empty with device | ⟨mode, file⟩
  · simp only [device, bind, Except.bind]
  · simp only [file, bind, Except.bind]
    split
    · rename_i content allowed
      split at allowed
      · cases allowed
        rfl
      · cases allowed
    · rfl

/-- A log that holds nothing is no report. -/
theorem Trial.grade_of_empty {graded : Host} (present : job.patch.isSome = true)
    (empty : graded.Holds trial.logPath []) :
    Ensures (trial.grade job) graded fun verdict _ => verdict = .untested job.identifier := by
  have unreported : (testLog? graded trial.logPath).bind Test.Log.grade? = none := by
    rw [testLog?, text_of_empty empty]
    split <;> rfl
  obtain ⟨patch, isPatch⟩ := Option.isSome_iff_exists.1 present
  refine Ensures.get_bind (Ensures.bind_any fun _ _ => Ensures.pure ?_)
  simp only [Verdict.ofLog, isPatch, unreported]

end

/-- **A test that was not finished tests nothing.**  When the script of a trial cannot be
started, or outlives its limit, the trial comes to its grading all the same, with an
outcome that has no output; and if the log is as empty then as what was written to it,
the verdict is that the patch was not tested, whatever the job expects. -/
theorem unfinished_test_untested (programs : Programs) (place : Place) (trial : Trial) (job : Job)
    {host met : Host} {journal between : List Issued} {changes script : Bytes}
    (ready : ((trial.toTest (place.runner programs) job).run.run journal).run host =
      ((.ok (.ready changes script), between), met))
    (unfinished :
      Unfinished ((place.start programs (Trial.testCommand script) trial.timeout).run met).1) :
    ∃ outcome logged later graded,
      ((trial.runTest (place.runner programs) job changes script).run.run between).run met =
          ((.ok (outcome, logged), later), graded) ∧
        outcome.output = [] ∧
        (graded.Holds trial.logPath outcome.output → ∃ after,
          ((trial.run (place.runner programs) job).run.run journal).run host =
            ((.ok (.untested job.identifier), later), after)) := by
  have come : (trial.toTest (place.runner programs) job).Ends host journal _ _ :=
    trial.toTest_ready job
  unfold Session.Ends at come
  rw [ready] at come
  obtain ⟨present, _, _, _, _, answered⟩ := come changes script rfl
  have answers : (place.runner programs).AlwaysAnswers :=
    Place.alwaysAnswers (Place.isOpen_of_outcome answered)
  have tested : (trial.runTest (place.runner programs) job changes script).Ends met between _ _ :=
    trial.runTest_ends job answers changes script
  unfold Session.Ends at tested
  rcases ran : ((trial.runTest (place.runner programs) job changes script).run.run between).run met
    with ⟨⟨answer | ⟨outcome, logged⟩, later⟩, graded⟩
  · rw [ran] at tested
    exact tested.elim
  · rw [ran] at tested
    have empty : outcome.output = [] := Place.output_of_unfinished unfinished tested
    refine ⟨outcome, logged, later, graded, rfl, empty, fun kept => ?_⟩
    rw [empty] at kept
    have verdict : ((trial.grade job).run graded).1 = .untested job.identifier :=
      trial.grade_of_empty job present kept
    exact ⟨_, verdict ▸ Trial.run_of_tested ready ran⟩

/-! ## Scripts that outlive their limit -/

/-- Commands are run on the host. -/
def onHost : Place :=
  .host ⟨60, ascii "/", ∅⟩

/-- All commands succeed, but for a script: it reports a test and goes on. -/
def slowTests : Programs := fun host request _ =>
  if request.program = ascii "/bin/bash" then
    (.ok ⟨[(.output, ascii "PASSED t\n")], [], .outlived, 0⟩, host.files)
  else (.ok ⟨[], [], .reaped 0, 0⟩, host.files)

/-- The script of a trial that is to write to the usual place. -/
def slowScript : Bytes := smallTrial.scriptPath

/-- A trial on a bare host, as far as its script. -/
def readyOnHost (programs : Programs) : (Except Fault Stage × List Issued) × Host :=
  ((smallTrial.toTest (onHost.runner programs) smallJob).run.run []).run Host.bare

/-- The rest of it, up to its grading. -/
def testedOnHost (programs : Programs) (journal : List Issued) (met : Host) :
    (Except Fault (Outcome × Bool) × List Issued) × Host :=
  ((smallTrial.runTest (onHost.runner programs) smallJob [] slowScript).run.run journal).run met

theorem slowTests_untested :
    (readyOnHost slowTests).1.1 = .ok (.ready [] slowScript) ∧
      Unfinished ((onHost.start slowTests (Trial.testCommand slowScript) smallTrial.timeout).run
        (readyOnHost slowTests).2).1 ∧
      (((smallTrial.run (onHost.runner slowTests) smallJob).run.run []).run Host.bare).1.1 =
        .ok (.untested smallJob.identifier) := by
  have ready : (readyOnHost slowTests).1.1 = .ok (.ready [] slowScript) :=
    ok_of_toOption_eq_some (by decide +kernel)
  have unfinished : Unfinished ((onHost.start slowTests (Trial.testCommand slowScript)
      smallTrial.timeout).run (readyOnHost slowTests).2).1 := by
    decide +kernel
  have kept : (testedOnHost slowTests (readyOnHost slowTests).1.2
      (readyOnHost slowTests).2).2.Holds smallTrial.logPath [] :=
    Or.inr ⟨FileTree.newFileMode, ok_of_toOption_eq_some (by decide +kernel)⟩
  have reaches := eq_of_answer (readyOnHost slowTests) ready
  refine ⟨ready, unfinished, ?_⟩
  -- the two hosts are not to be computed again
  generalize (readyOnHost slowTests).1.2 = between, (readyOnHost slowTests).2 = met
    at reaches unfinished kept
  rw [readyOnHost] at reaches
  obtain ⟨outcome, logged, later, graded, ran, empty, untested⟩ :=
    unfinished_test_untested slowTests onHost smallTrial smallJob reaches unfinished
  rw [testedOnHost, ran, ← empty] at kept
  obtain ⟨after, run⟩ := untested kept
  rw [run]

/-- The script goes on, and a command that looks at the code fills the log. -/
def tamperingTests : Programs := fun host request _ =>
  if request.program = ascii "/bin/bash" then
    (.ok ⟨[], [], .outlived, 0⟩, host.files)
  else
    let filled := host.files.writeWithParents host.directory smallTrial.logPath (ascii "PASSED t\n")
    (.ok ⟨[], [], .reaped 0, 0⟩, filled.1)

/-- The output of a script that outlives its limit is written to the log, and yet the job
is found to be resolved. -/
theorem tampering_resolves :
    (readyOnHost tamperingTests).1.1.toOption = some (.ready [] slowScript) ∧
      Unfinished ((onHost.start tamperingTests (Trial.testCommand slowScript)
        smallTrial.timeout).run (readyOnHost tamperingTests).2).1 ∧
      (testedOnHost tamperingTests (readyOnHost tamperingTests).1.2
        (readyOnHost tamperingTests).2).1.1.toOption.map (·.2) = some true ∧
      (((smallTrial.run (onHost.runner tamperingTests) smallJob).run.run []).run
        Host.bare).1.1.toOption.map (fun verdict => (verdict.patchApplied, verdict.resolved)) =
          some (true, true) := by
  decide +kernel

end Evaluation

end Assay
