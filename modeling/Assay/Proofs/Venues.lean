/-
# Assay.Proofs.Venues -- where an evaluation runs its commands

The arguments of an evaluation are a row of choices (`read?_eq_some_iff`), of which the last
image counts and whether a container is to be looked for.  These decide between three
venues: a container of the image, the container that is found, and the host.

Each venue has its own kind of launch.  In a container all is launched through its runtime
(`Config.ByRuntime`); on the host an executor launches the commands of the trial (`OnHost`).
`evaluate_venue` says which of them an evaluation launches: an image counts unless its name
is empty, and then, where no container is to be looked for, the commands run on the host.
-/
import Assay.Proofs.Scope
import Assay.Proofs.Unfinished

namespace Assay

set_option autoImplicit false

open Bytes

/-! ## Launches of one kind -/

namespace Host

/-- What was launched while the host became `after` is allowed. -/
def Launched (allowed : Launch → Prop) (start after : Host) : Prop :=
  ∃ new, after.launches = new ++ start.launches ∧ ∀ launch ∈ new, allowed launch

namespace Launched

variable {allowed wider : Launch → Prop} {start host after : Host}

theorem of_launches (same : after.launches = start.launches) : Launched allowed start after :=
  ⟨[], same, fun _ member => by cases member⟩

theorem one {launch : Launch} (launched : after.launches = launch :: start.launches)
    (isAllowed : allowed launch) : Launched allowed start after :=
  ⟨[launch], launched, List.forall_mem_singleton.2 isAllowed⟩

theorem trans (first : Launched allowed start host) (second : Launched allowed host after) :
    Launched allowed start after := by
  obtain ⟨earlier, before, isAllowed⟩ := first
  obtain ⟨later, launched, alsoAllowed⟩ := second
  refine ⟨later ++ earlier, by rw [launched, before, List.append_assoc], ?_⟩
  exact List.forall_mem_append.2 ⟨alsoAllowed, isAllowed⟩

theorem mono (launched : Launched allowed start after)
    (follows : ∀ launch, allowed launch → wider launch) : Launched wider start after := by
  obtain ⟨new, came, isAllowed⟩ := launched
  exact ⟨new, came, fun launch member => follows launch (isAllowed launch member)⟩

theorem since (launched : Launched allowed start after) :
    ∀ launch ∈ start.launchedSince after, allowed launch := by
  obtain ⟨new, came, isAllowed⟩ := launched
  rw [Host.launchedSince_append (Nat.le_refl _) came, Host.launchedSince_self, List.append_nil]
  exact isAllowed

end Launched

end Host

namespace Container

/-! ## The runtime -/

/-- The launch is that of the runtime with these words. -/
def Invokes (words : List Bytes) (launch : Launch) : Prop :=
  ∃ (host : Host) (program : Bytes),
    host.findProgram (runtimePath host) (words.headD []) = some program ∧
    launch = {
      program
      arguments := words.tail
      environ := host.environ
      directory := host.directoryPath
      input := [] }

/-- The launch is that of the runtime, told to execute a command in the container of the
configuration. -/
def Config.Conveys (config : Config) (launch : Launch) : Prop :=
  ∃ host command directory, Invokes (config.commandWords host command directory) launch

/-- The launch concerns containers of a configuration: the runtime lists them, runs one, or
executes a command in one; or the shell has the runtime release one. -/
inductive Config.ByRuntime (config : Config) (launch : Launch) : Prop
  | lists (namespaceName : Bytes) (invokes : Invokes (config.listingWords namespaceName) launch)
  | runs (name : Bytes) (invokes : Invokes (config.startWords name) launch)
  | executes (identifier namespaceName : Bytes)
      (conveys : { config with identifier, namespaceName : Config }.Conveys launch)
  | releases (identifier : Bytes) (host : Host)
      (released : launch = (config.naming identifier).releaseLaunch host)

/-- A line that is handed to a shell concerns containers only if it is one that releases. -/
theorem Config.ByRuntime.line_head {config : Config} {launch : Launch} {line : Bytes}
    (byRuntime : config.ByRuntime launch) (handed : launch.arguments = [ascii "-c", line]) :
    line.head? = (ascii "(").head? := by
  have notVerb : ∀ (other : Config) (verb : Bytes) (more : List Bytes), verb ≠ ascii "-c" →
      (other.runtimeWords ++ verb :: more).tail ≠ [ascii "-c", line] := by
    intro other verb more different
    unfold runtimeWords
    split <;> simp [different]
  cases byRuntime with
  | lists namespaceName invokes =>
    obtain ⟨host, program, -, rfl⟩ := invokes
    cases handed
  | runs name invokes =>
    obtain ⟨host, program, -, rfl⟩ := invokes
    rw [startWords_eq] at handed
    exact absurd handed (notVerb _ _ _ (by decide))
  | executes identifier namespaceName conveys =>
    obtain ⟨_, command, directory, host, program, -, rfl⟩ := conveys
    rw [commandWords_eq] at handed
    exact absurd handed (notVerb _ _ _ (by decide))
  | releases identifier host released =>
    rw [released, releaseLaunch] at handed
    cases handed
    rfl

section

variable (programs : Programs) {config : Config} (host : Host)

theorem invoke_launched (words : List Bytes) (limit : Int) :
    Ensures (invoke programs words limit) host fun _ after =>
      host.Launched (Invokes words) after := by
  refine Ensures.get_bind ?_
  dsimp only
  split
  · exact Ensures.pure (.of_launches rfl)
  · rename_i program found
    exact .one rfl ⟨host, program, found, rfl⟩

namespace Client

theorem start_invokes (client : Client) :
    Ensures (client.start programs) host fun _ after =>
      host.Launched (Invokes (client.config.startWords (containerName host))) after := by
  unfold start
  have drawn : Ensures (randomHex 8) host fun digits after =>
      digits = hexDigits 8 host.seed ∧ after.launches = host.launches :=
    ⟨rfl, keeps_launches_randomHex 8 host⟩
  refine Ensures.bind drawn ?_
  rintro _ seeded ⟨rfl, same⟩
  refine Ensures.bind ((keeps_launches_log .debug _).ensures seeded) ?_
  intro _ ready unlogged
  have still : host.Launched (Invokes (client.config.startWords (containerName host))) ready :=
    .of_launches (unlogged.trans same)
  refine Ensures.bind (invoke_launched programs ready _ _) ?_
  intro answer after launched
  have invoked := still.trans launched
  cases answer with
  | error reason => exact Ensures.pure invoked
  | ok run =>
    dsimp only
    cases run.ending with
    | outlived => exact Ensures.pure invoked
    | reaped status =>
      dsimp only
      split
      · exact Ensures.pure invoked
      · refine Ensures.bind ((keeps_launches_log .info _).ensures after) ?_
        exact fun _ ended unlogged => Ensures.pure (invoked.trans (.of_launches unlogged))

theorem execute_conveys (client : Client) (command directory : Bytes) (timeout : Option Int) :
    Ensures (client.execute programs command directory timeout) host fun _ after =>
      host.Launched client.config.Conveys after := by
  unfold execute
  split
  · exact Ensures.pure (.of_launches rfl)
  · refine Ensures.get_bind (Ensures.bind ((keeps_launches_log .info _).ensures host) ?_)
    intro _ ready unlogged
    refine Ensures.bind (invoke_launched programs ready _ _) ?_
    intro answer after launched
    refine Ensures.pure ((Host.Launched.of_launches unlogged).trans (launched.mono ?_))
    exact fun launch invokes => ⟨_, _, _, invokes⟩

theorem release_launched (client : Client) :
    Ensures (client.release programs) host fun _ after =>
      host.Launched (· = client.config.releaseLaunch host) after := by
  by_cases idle : client.state = .released ∨ client.config.identifier = []
  · have still : Ensures (client.release programs) host fun _ after => after = host :=
      congrArg Prod.snd (release_idle programs host idle)
    exact still.mono fun _ _ same => .of_launches (congrArg Host.launches same)
  · rw [not_or] at idle
    refine (release_issues programs host idle.1 idle.2).mono ?_
    rintro _ after ⟨-, traced⟩
    exact .one (congrArg Prod.fst traced) rfl

theorem startScoped_launched (config : Config) :
    Ensures (startScoped programs config) host fun answer after =>
      host.Launched config.ByRuntime after ∧ ∀ started, answer = .ok started →
        ∃ identifier, started = ⟨config.naming identifier, .started⟩ := by
  have begun : Ensures ((new config).start programs) host fun answer after =>
      host.Launched config.ByRuntime after ∧ ∀ started, answer = .ok started →
        ∃ identifier, started = ⟨config.naming identifier, .started⟩ := by
    constructor
    · exact Host.Launched.mono (start_invokes programs host (new config)) fun _ => .runs _
    · obtain ⟨_, -, -, shape⟩ := start_launches programs host (new config)
      exact shape
  refine Ensures.bind begun ?_
  rintro answer after ⟨launched, shape⟩
  cases answer with
  | ok client => exact Ensures.pure ⟨launched, shape⟩
  | error cause =>
    refine Ensures.bind (release_launched programs after (new config)) ?_
    intro _ ended released
    have through : after.Launched config.ByRuntime ended :=
      released.mono fun _ => .releases config.identifier after
    exact Ensures.pure ⟨launched.trans through, fun _ failed => by cases failed⟩

/-- In a scope for a container, all is launched through the runtime when that holds of what is
done with the container. -/
theorem withScoped_launched {α : Type} (config : Config) {body : Client → Act α}
    (conveys : ∀ client host, Ensures (body client) host fun _ after =>
      host.Launched client.config.Conveys after) :
    Ensures (withScoped programs config body) host fun _ after =>
      host.Launched config.ByRuntime after := by
  refine Ensures.bind (startScoped_launched programs host config) ?_
  rintro answer begun ⟨launched, shape⟩
  cases answer with
  | error cause => exact Ensures.pure launched
  | ok client =>
    obtain ⟨identifier, rfl⟩ := shape client rfl
    refine Ensures.bind (conveys _ begun) ?_
    intro result used commands
    refine Ensures.bind (release_launched programs used _) ?_
    intro _ ended released
    have through : begun.Launched config.ByRuntime used :=
      commands.mono fun _ => .executes identifier config.namespaceName
    have away : used.Launched config.ByRuntime ended :=
      released.mono fun _ => .releases identifier used
    exact Ensures.pure (launched.trans (through.trans away))

end Client

/-- The search for a container asks the runtime for listings and changes the configuration
only in which container it names. -/
theorem load_launched (library : Json.Library) (config : Config) (namespaces : List Bytes)
    (name : Bytes) :
    Ensures (load library programs config namespaces name) host fun answer after =>
      host.Launched config.ByRuntime after ∧ ∀ client, answer = .ok client →
        ∃ identifier namespaceName, client.config = { config with identifier, namespaceName } := by
  have asked : ∀ {calls : List Asked} {after : Host}, Trail programs config host calls after →
      host.Launched config.ByRuntime after := by
    intro calls after trail
    refine ⟨_, trail.launches_eq, fun launch member => ?_⟩
    obtain ⟨call, -, spawned⟩ := List.mem_filterMap.1 (List.mem_reverse.1 member)
    obtain ⟨program, found, rfl⟩ := Option.map_eq_some_iff.1 spawned
    exact .lists call.namespaceName ⟨call.host, program, found, rfl⟩
  refine (load_loaded library programs config namespaces name host).mono ?_
  intro answer after loaded
  cases loaded with
  | podUnknown unset => exact ⟨.of_launches rfl, fun _ found => by cases found⟩
  | namespacesMissing nowhere => exact ⟨.of_launches rfl, fun _ found => by cases found⟩
  | notFound _ _ _ trail => exact ⟨asked trail, fun _ found => by cases found⟩
  | found _ _ _ trail =>
    refine ⟨asked trail, fun _ found => ?_⟩
    cases found
    exact ⟨_, _, rfl⟩

end

end Container

namespace Exec

/-! ## The executor -/

/-- The launch is that of a command by the executor, on the host. -/
def Executor.Launches (executor : Executor) (command : Bytes) (launch : Launch) : Prop :=
  ∃ (host : Host) (invocation : Invocation),
    let environment := Environment.build host.environ [some executor.environment, some ∅] true
    prepare host { command } environment.searchPath = .ok invocation ∧
    launch = {
      program := invocation.program
      arguments := invocation.arguments
      environ := environment.toEntries
      directory := executor.directory
      input := [] }

theorem keeps_launches_conclude {request : Request} (whole : request.onLine = none) (limit : Int)
    (launched : Except StartError (Shell.Dispatch × ChildRun)) :
    Keeps Host.launches (conclude request limit launched) := by
  cases launched with
  | error fault =>
    exact (keeps_launches_log _ _).bind fun _ => (keeps_launches_log _ _).bind fun _ => Keeps.pure _
  | ok launched =>
    obtain ⟨mode, run⟩ := launched
    simp only [conclude, whole]
    refine Keeps.bind (keeps_captured (fun _ _ => rfl) request mode limit run) fun _ => ?_
    exact (keeps_launches_log _ _).bind fun _ => Keeps.pure _

theorem launchRequest_launched (programs : Programs) (executor : Executor) (command : Bytes)
    (timeout : Option Int) (limit : Int) (host : Host) :
    Ensures (launchRequest programs executor { command, timeout } executor.directory limit) host
      fun _ after => host.Launched (executor.Launches command) after := by
  unfold launchRequest
  refine Ensures.get_bind ?_
  dsimp only
  split
  · exact Ensures.pure (.of_launches rfl)
  · rename_i invocation prepared
    have issued : ∀ request, executor.Launches command request →
        Ensures (launch programs request (some limit)) host fun _ after =>
          host.Launched (executor.Launches command) after :=
      fun request isLaunch => .one rfl isLaunch
    refine Ensures.bind (issued _ ⟨host, invocation, prepared, rfl⟩) ?_
    intro run after launched
    cases run <;> exact Ensures.pure launched

theorem Executor.execute_launched (programs : Programs) (executor : Executor) (command : Bytes)
    (timeout : Option Int) (host : Host) :
    Ensures (executor.execute programs { command, timeout }) host fun _ after =>
      host.Launched (executor.Launches command) after := by
  rw [execute_eq_start]
  have announced : Keeps Host.launches (executor.announce { command, timeout }) :=
    (keeps_launches_log _ _).bind fun _ => keeps_launches_log _ _
  have started : Ensures (executor.start programs { command, timeout }) host fun _ after =>
      host.Launched (executor.Launches command) after := by
    refine Ensures.bind (announced.ensures host) fun _ ready same => ?_
    refine (launchRequest_launched programs executor command timeout _ ready).mono ?_
    exact fun _ _ launched => (Host.Launched.of_launches same).trans launched
  refine Ensures.bind started fun outcome ran launched => ?_
  refine ((keeps_launches_conclude rfl _ outcome).ensures ran).mono ?_
  exact fun _ _ same => launched.trans (.of_launches same)

end Exec

namespace Cli

open Container Evaluation

/-! ## The arguments of an evaluation -/

/-- One thing that the arguments ask for. -/
inductive Choice where
  | details (path : Bytes)
  | container
  | image (name : Bytes)
  deriving DecidableEq, Repr

namespace Choice

def words : Choice → List Bytes
  | details path => [ascii "--details", path]
  | container => [ascii "--container"]
  | image name => [ascii "--image", name]

def apply (options : EvaluateOptions) : Choice → EvaluateOptions
  | details path => { options with descriptorPath := path }
  | container => { options with discover := true }
  | image name => { options with image := name }

def image? : Choice → Option Bytes
  | image name => some name
  | _ => none

end Choice

/-- The image that counts, if any is given. -/
def lastImage? (choices : List Choice) : Option Bytes :=
  (choices.filterMap Choice.image?).getLast?

namespace EvaluateOptions

variable {options result : EvaluateOptions}

theorem read?_container (options : EvaluateOptions) (rest : List Bytes) :
    options.read? (ascii "--container" :: rest) = { options with discover := true }.read? rest := by
  cases rest with
  | nil => rfl
  | cons value rest => rfl

/-- **What is understood is a row of choices**, each of which changes the options in turn. -/
theorem read?_eq_some_iff {arguments : List Bytes} :
    options.read? arguments = some result ↔ ∃ choices : List Choice,
      arguments = choices.flatMap Choice.words ∧ choices.foldl Choice.apply options = result := by
  constructor
  · intro read
    fun_induction read? options arguments with
    | case1 options => exact ⟨[], rfl, Option.some.inj read⟩
    | case2 options => exact ⟨[.container], rfl, Option.some.inj read⟩
    | case4 options value rest ih =>
      obtain ⟨choices, rfl, last⟩ := ih read
      exact ⟨.details value :: choices, rfl, last⟩
    | case5 options value rest _ ih =>
      obtain ⟨choices, same, last⟩ := ih read
      exact ⟨.container :: choices, congrArg (ascii "--container" :: ·) same, last⟩
    | case6 options value rest _ _ ih =>
      obtain ⟨choices, rfl, last⟩ := ih read
      exact ⟨.image value :: choices, rfl, last⟩
    | case3 | case7 => cases read
  · rintro ⟨choices, rfl, rfl⟩
    induction choices generalizing options with
    | nil => rfl
    | cons choice rest ih =>
      cases choice with
      | details path => exact ih
      | container => exact (read?_container options _).trans ih
      | image name => exact ih

theorem image_foldl (choices : List Choice) :
    (choices.foldl Choice.apply options).image = (lastImage? choices).getD options.image := by
  induction choices generalizing options with
  | nil => rfl
  | cons choice rest ih =>
    rw [List.foldl_cons, ih]
    cases choice with
    | details path => rfl
    | container => rfl
    | image name =>
      have added : lastImage? (.image name :: rest) = some ((lastImage? rest).getD name) :=
        List.getLast?_cons
      rw [added]
      rfl

theorem discover_foldl (options : EvaluateOptions) (choices : List Choice) :
    (choices.foldl Choice.apply options).discover = true ↔
      options.discover = true ∨ .container ∈ choices := by
  induction choices generalizing options with
  | nil => simp
  | cons choice rest ih =>
    rw [List.foldl_cons, ih]
    cases choice <;> simp [Choice.apply]

end EvaluateOptions

/-! ## Where the commands run -/

/-- A trial launches what its runner launches for the commands that are due. -/
theorem tryWith_launched {trial : Trial} {job : Job} {runner : Runner} {allowed : Launch → Prop}
    (runs : ∀ command host, trial.Due job host command →
      Ensures (runner.run command trial.timeout) host fun _ after => host.Launched allowed after)
    (host : Host) :
    Ensures (tryWith trial job runner) host fun _ after => host.Launched allowed after := by
  let launched : Invariant := fun _ after => host.Launched allowed after
  have issues : ∀ command journal start, trial.Due job start command → launched journal start →
      (trial.issue runner command).Ends start journal (fun _ => launched) (fun _ => launched) := by
    intro command journal start due before
    refine trial.issue_enters runner command fun _ _ _ => ?_
    exact before.trans (runs command start due)
  have maintains : (trial.run runner job).Maintains launched :=
    trial.run_maintains job (fun _ _ _ _ _ before => before) issues
  have begins : launched [] host := .of_launches rfl
  exact maintains.holds begins

/-- The launch is that of a command of a trial by the executor of the settings, on the host. -/
def OnHost (settings : Settings) (launch : Launch) : Prop :=
  ∃ started job placed command, (trialOf settings).Due job placed command ∧
    (executorOf started settings).Launches command launch

/-- Which launches the choices allow. -/
structure Venue (settings : Settings) (choices : List Choice) (launches : List Launch) : Prop where
  image : ∀ name, lastImage? choices = some name → name ≠ [] →
    ∀ launch ∈ launches, (imageConfig settings name).ByRuntime launch
  discovered : (lastImage? choices).getD [] = [] → .container ∈ choices →
    ∀ launch ∈ launches, (Config.ofSettings settings).ByRuntime launch
  host : (lastImage? choices).getD [] = [] → .container ∉ choices →
    ∀ launch ∈ launches, OnHost settings launch

/-- The same, told from the options. -/
def EvaluateOptions.Allows (options : EvaluateOptions) (settings : Settings) (launch : Launch) :
    Prop :=
  if options.image ≠ [] then (imageConfig settings options.image).ByRuntime launch
  else if options.discover then (Config.ofSettings settings).ByRuntime launch
  else OnHost settings launch

section

variable (tooling : Tooling) (settings : Settings) (options : EvaluateOptions) (host : Host)

theorem tryWhere_launched (job : Job) :
    Ensures (tryWhere tooling settings options (trialOf settings) job) host fun _ after =>
      host.Launched (options.Allows settings) after := by
  have conveys : ∀ client host,
      Ensures (tryWith (trialOf settings) job (.inContainer tooling.programs client [])) host
        fun _ after => host.Launched client.config.Conveys after :=
    fun client => tryWith_launched fun command host _ =>
      Client.execute_conveys tooling.programs host client command [] _
  unfold tryWhere EvaluateOptions.Allows
  by_cases image : options.image = []
  · simp only [image, List.isEmpty_nil, ne_eq, not_true_eq_false, Bool.not_true,
      Bool.false_eq_true, if_false]
    cases options.discover with
    | true =>
      simp only [if_true]
      refine Ensures.bind (load_launched tooling.programs host tooling.library _ _ _) ?_
      rintro answer found ⟨launched, shape⟩
      cases answer with
      | error cause => exact Ensures.pure launched
      | ok client =>
        obtain ⟨identifier, namespaceName, named⟩ := shape client rfl
        refine (conveys client found).mono fun _ _ commands => launched.trans (commands.mono ?_)
        rw [named]
        exact fun _ => .executes identifier namespaceName
    | false =>
      simp only [Bool.false_eq_true, if_false]
      refine Ensures.get_bind (tryWith_launched (fun command start due => ?_) host)
      refine Ensures.bind ((executorOf host settings).execute_launched tooling.programs command _
        start) ?_
      intro result after launched
      refine Ensures.pure (launched.mono fun launch isLaunch => ?_)
      exact ⟨host, job, start, command, due, isLaunch⟩
  · have given : (!options.image.isEmpty) = true := by simpa using image
    simp only [given, ne_eq, image, not_false_eq_true, if_true]
    refine Ensures.bind (Client.withScoped_launched tooling.programs host _ conveys) ?_
    intro answer after launched
    cases answer <;> exact Ensures.pure launched

theorem evaluateJob_launched :
    Ensures (evaluateJob tooling settings options) host fun _ after =>
      host.Launched (options.Allows settings) after := by
  refine Ensures.get_bind ?_
  cases Job.load tooling.library host options.descriptorPath with
  | error cause => exact Ensures.pure (.of_launches rfl)
  | ok job => exact tryWhere_launched tooling settings options host _

theorem Venue.of_allows {path : Bytes} {choices : List Choice} {launches : List Launch}
    (allowed : ∀ launch ∈ launches,
      (choices.foldl Choice.apply ⟨path, false, []⟩).Allows settings launch) :
    Venue settings choices launches := by
  have discover_iff := EvaluateOptions.discover_foldl ⟨path, false, []⟩ choices
  simp only [EvaluateOptions.Allows, EvaluateOptions.image_foldl] at allowed
  constructor
  · intro name last named
    simpa only [last, Option.getD_some, ne_eq, named, not_false_eq_true, if_true] using allowed
  · intro unnamed discover
    simpa only [unnamed, ne_eq, not_true_eq_false, if_false,
      if_pos (discover_iff.2 (.inr discover))] using allowed
  · intro unnamed noContainer
    have notDiscover : ¬ (choices.foldl Choice.apply ⟨path, false, []⟩).discover = true := by
      simp [discover_iff, noContainer]
    simpa only [unnamed, ne_eq, not_true_eq_false, if_false, if_neg notDiscover] using allowed

variable {settings options host}

/-- What is not understood is answered with the usage, and nothing is launched. -/
theorem evaluateWith_refuses {arguments : List Bytes}
    (read : EvaluateOptions.read? ⟨settings .descriptorPath, false, []⟩ arguments = none) :
    Ensures (evaluateWith tooling settings arguments) host fun code after =>
      code = 2 ∧ after.launches = host.launches := by
  unfold evaluateWith
  rw [read]
  exact Ensures.bind_run (Ensures.pure ⟨rfl, rfl⟩)

theorem evaluateWith_launched {arguments : List Bytes}
    (read : EvaluateOptions.read? ⟨settings .descriptorPath, false, []⟩ arguments =
      some options) :
    Ensures (evaluateWith tooling settings arguments) host fun code after =>
      code ≠ 2 ∧ host.Launched (options.Allows settings) after := by
  have ready : host.Launched (options.Allows settings) ((readying settings).run host).2 :=
    .of_launches (readying_launches settings host)
  refine evaluateWith_ends rfl read ((evaluateJob_launched tooling settings options _).mono ?_)
  intro _ ended launched after same
  exact (ready.trans launched).trans (.of_launches same)

end

/-- **Where an evaluation runs its commands.**  Where there are settings, arguments are answered
with something else than the usage just when they are a row of choices, and then everything that
is launched goes through the runtime, into a container of the last image or into the one that is
found; or, where the last image has an empty name or none is given and no container is to be
looked for, all of it is launched by an executor on the host.  Without settings nothing is
done. -/
theorem evaluate_venue (tooling : Tooling) (arguments : List Bytes) (host : Host) :
    (∀ fault, Settings.load tooling.library host (Settings.usualPath host) = .error fault →
      Ensures (evaluate tooling arguments) host fun code after =>
        code = abortedCode ∧ after = host) ∧
    ∀ settings, Settings.load tooling.library host (Settings.usualPath host) = .ok settings →
      (((evaluate tooling arguments).run host).1 ≠ 2 ↔
        ∃ choices : List Choice, arguments = choices.flatMap Choice.words) ∧
      ∀ choices : List Choice, arguments = choices.flatMap Choice.words →
        Venue settings choices
          (host.launchedSince ((evaluate tooling arguments).run host).2) := by
  refine ⟨fun fault => evaluate_aborts tooling arguments, fun settings loaded => ?_⟩
  have understood_iff : ∀ options,
      EvaluateOptions.read? ⟨settings .descriptorPath, false, []⟩ arguments = some options ↔ _ :=
    fun _ => EvaluateOptions.read?_eq_some_iff
  constructor
  · cases read : EvaluateOptions.read? ⟨settings .descriptorPath, false, []⟩ arguments with
    | none =>
      refine iff_of_false (not_not.2 (evaluate_with loaded
        (evaluateWith_refuses tooling read)).1) ?_
      rintro ⟨choices, isRow⟩
      rw [(understood_iff _).2 ⟨choices, isRow, rfl⟩] at read
      cases read
    | some options =>
      obtain ⟨choices, isRow, -⟩ := (understood_iff options).1 read
      exact iff_of_true (evaluate_with loaded (evaluateWith_launched tooling read)).1
        ⟨choices, isRow⟩
  · intro choices isRow
    have launched := evaluate_with loaded (evaluateWith_launched tooling
      ((understood_iff _).2 ⟨choices, isRow, rfl⟩))
    exact Venue.of_allows settings launched.2.since

/-- With an image that has a name, all that is launched concerns its container. -/
theorem namedImage_inContainer :
    imageArguments = [Choice.details (ascii "job"), .image (ascii "img")].flatMap Choice.words ∧
    ((evaluate givingTooling imageArguments).run hostWithJob).1 ≠ 2 ∧
    (hostWithJob.launchedSince
      ((evaluate givingTooling imageArguments).run hostWithJob).2).length = 6 ∧
    ∀ launch ∈ hostWithJob.launchedSince
        ((evaluate givingTooling imageArguments).run hostWithJob).2,
      (imageConfig hostSettings (ascii "img")).ByRuntime launch := by
  obtain ⟨accepted, venue⟩ := (evaluate_venue givingTooling imageArguments hostWithJob).2 _
    hostWithJob_settings
  have isRow : imageArguments =
      [Choice.details (ascii "job"), .image (ascii "img")].flatMap Choice.words := rfl
  exact ⟨isRow, accepted.2 ⟨_, isRow⟩, by decide +kernel,
    (venue _ isRow).image (ascii "img") rfl (by decide)⟩

/-- An image without a name. -/
def namelessArguments : List Bytes :=
  [Choice.details (ascii "job"), .image []].flatMap Choice.words

/-- **An image without a name does not keep the commands off the host**: the executor has its
shell apply the patch there. -/
theorem namelessImage_onHost :
    EvaluateOptions.read? ⟨hostSettings .descriptorPath, false, []⟩ namelessArguments =
      some ⟨ascii "job", false, []⟩ ∧
    ∃ launch ∈ hostWithJob.launchedSince
        ((evaluate givingTooling namelessArguments).run hostWithJob).2,
      launch.program = ascii "/bin/sh" ∧
      launch.arguments =
        [ascii "-c", ascii "cd /testbed && git apply -v /dev/shm/swe-sandbox/patch.diff"] ∧
      OnHost hostSettings launch ∧ ∀ config : Config, ¬ config.ByRuntime launch := by
  have read : EvaluateOptions.read? ⟨hostSettings .descriptorPath, false, []⟩ namelessArguments =
      some ⟨ascii "job", false, []⟩ := rfl
  have listed : (ascii "/bin/sh",
      [ascii "-c", ascii "cd /testbed && git apply -v /dev/shm/swe-sandbox/patch.diff"]) ∈
        (hostWithJob.launchedSince
          ((evaluate givingTooling namelessArguments).run hostWithJob).2).map fun launch =>
            (launch.program, launch.arguments) := by decide +kernel
  obtain ⟨launch, member, same⟩ := List.mem_map.1 listed
  obtain ⟨program, arguments⟩ := Prod.mk.inj same
  have launched := evaluate_with hostWithJob_settings (evaluateWith_launched givingTooling read)
  have onHost : OnHost hostSettings launch := launched.2.since launch member
  refine ⟨read, launch, member, program, arguments, onHost, fun config byRuntime => ?_⟩
  exact absurd (byRuntime.line_head arguments) (by decide)

end Cli

end Assay
