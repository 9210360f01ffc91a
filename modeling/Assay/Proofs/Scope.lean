/-
# Assay.Proofs.Scope -- one container for an evaluation

An evaluation with an image has the runtime run one container, tries the patch in it and
releases it when the trial is over, whatever has come of it.  An evaluation in a container
that it was to look for only uses that container, and releases none.

What is launched says all of this.  `Used` is what a trial in a container launches
(`tryWith_used`): commands in that container, and nothing else.  What a scope launches is a
run, such commands, and the release of what was run: `Leased` says it of the launches alone,
and of the identifiers that the runtime may have given the container
(`Client.withScoped_leased`).  Before its trial, an evaluation launches nothing
(`readying_launches`), and the search for a container no release (`load_quiet`).
-/
import Assay.Cli.Commands
import Assay.Json.Plain
import Assay.Proofs.Discovery
import Assay.Proofs.Steps

namespace Assay

set_option autoImplicit false

open Bytes

namespace Container

open Shell

/-! ## What the runtime is told -/

namespace Config

/-- The launch gives the runtime this verb, addressed as the configuration addresses it. -/
def invokes (config : Config) (verb : Bytes) (launch : Launch) : Bool :=
  (config.runtimeWords ++ [verb]).tail.isPrefixOf launch.arguments

/-- The launch has the runtime execute a command in the container of the configuration. -/
def Executes (config : Config) (launch : Launch) : Prop :=
  ∃ host command directory,
    launch.arguments = (config.commandWords host command directory).tail

variable {config : Config} {verb : Bytes} {launch : Launch}

theorem invokes_iff_of_words {other : Bytes} {more : List Bytes}
    (words : launch.arguments = (config.runtimeWords ++ other :: more).tail) :
    config.invokes verb launch = true ↔ verb = other := by
  rw [invokes, words]
  unfold runtimeWords
  split <;> simp

theorem invokes_iff_of_startWords {name : Bytes}
    (words : launch.arguments = (config.startWords name).tail) :
    config.invokes verb launch = true ↔ verb = ascii "run" := by
  rw [startWords_eq] at words
  exact invokes_iff_of_words words

theorem invokes_iff_of_executes {identifier : Bytes}
    (executes : (config.naming identifier).Executes launch) :
    config.invokes verb launch = true ↔ verb = ascii "exec" := by
  obtain ⟨host, command, directory, words⟩ := executes
  rw [commandWords_eq, naming_runtimeWords] at words
  exact invokes_iff_of_words words

/-- The shell that releases a container is told nothing that the runtime is told. -/
theorem not_invokes_releaseLaunch (other : Config) (host : Host) (notFlag : verb ≠ ascii "-c") :
    config.invokes verb (other.releaseLaunch host) = false := by
  rw [invokes, releaseLaunch]
  unfold runtimeWords
  split <;> simp [List.isPrefixOf, notFlag]

end Config

/-! ## The use of a container -/

/-- Only commands in the container of the configuration were launched while the host became
`after`. -/
def Used (config : Config) (start after : Host) : Prop :=
  ∃ commands, after.launches = commands ++ start.launches ∧
    ∀ launch ∈ commands, config.Executes launch

namespace Used

variable {config : Config} {start host after : Host}

theorem of_launches (same : after.launches = start.launches) : Used config start after :=
  ⟨[], same, fun _ member => by cases member⟩

theorem trans (first : Used config start host) (second : Used config host after) :
    Used config start after := by
  obtain ⟨earlier, before, ran⟩ := first
  obtain ⟨later, launched, runs⟩ := second
  refine ⟨later ++ earlier, by rw [launched, before, List.append_assoc], fun launch member => ?_⟩
  rcases List.mem_append.1 member with isLater | isEarlier
  · exact runs launch isLater
  · exact ran launch isEarlier

/-- The use of a container releases none. -/
theorem quiet (used : Used config start after) : Quiet start after := by
  obtain ⟨commands, launched, executed⟩ := used
  refine ⟨commands, launched, fun launch member other container => ?_⟩
  obtain ⟨host, command, directory, words⟩ := executed launch member
  exact Config.not_releases_of_commandWords words

end Used

theorem Quiet.trans {start host after : Host} (first : Quiet start host)
    (second : Quiet host after) : Quiet start after := by
  obtain ⟨earlier, before, still⟩ := first
  obtain ⟨later, launched, quiet⟩ := second
  refine ⟨later ++ earlier, by rw [launched, before, List.append_assoc], fun launch member => ?_⟩
  rcases List.mem_append.1 member with isLater | isEarlier
  · exact quiet launch isLater
  · exact still launch isEarlier

theorem Client.execute_used (programs : Programs) (client : Client) (command directory : Bytes)
    (timeout : Option Int) (host : Host) :
    Ensures (client.execute programs command directory timeout) host fun _ after =>
      Used client.config host after := by
  refine (execute_launches programs host client command directory timeout).mono ?_
  rintro _ after ⟨spawned, launched, arguments⟩
  refine ⟨spawned.toList, launched, fun launch member => ?_⟩
  exact ⟨_, _, _, arguments launch (Option.mem_toList.1 member)⟩

/-! ## The start of a container -/

section

variable (programs : Programs) (config : Config) (host : Host)

/-- The host in which the runtime is told to run the container: a name was made up for it,
and the command is in the log. -/
def Config.announced : Host :=
  ((Log.debug (ascii "[container] Starting container with command: " ++
    quoteWords (config.startWords (containerName host)))).run ((randomHex 8).run host).2).2

/-- The runtime, told to run a container, exits with 0 and prints this identifier. -/
def Config.Starts (identifier : Bytes) : Prop :=
  ∃ run status, ((invoke programs (config.startWords (containerName host))
      config.startTimeout).run (config.announced host)).1 = .ok run ∧
    run.ending = .reaped status ∧ exitCode status = 0 ∧ trim (run.on .output) = identifier

variable {programs config host} in
/-- A container has one identifier. -/
theorem Config.Starts.unique {identifier other : Bytes}
    (starts : config.Starts programs host identifier)
    (also : config.Starts programs host other) : other = identifier := by
  obtain ⟨run, status, ran, -, -, rfl⟩ := starts
  obtain ⟨again, _, same, -, -, rfl⟩ := also
  rw [ran] at same
  cases same
  rfl

namespace Client

/-- A start succeeds with what the runtime prints when it succeeds. -/
theorem start_answers (client : Client) (identifier : Bytes) :
    Ensures (client.start programs) host fun answer _ =>
      answer = .ok ⟨client.config.naming identifier, .started⟩ ↔
        client.config.Starts programs host identifier := by
  unfold start
  have drawn : Ensures (randomHex 8) host fun digits after =>
      digits = hexDigits 8 host.seed ∧ after = ((randomHex 8).run host).2 := ⟨rfl, rfl⟩
  refine Ensures.bind drawn ?_
  rintro _ _ ⟨rfl, rfl⟩
  refine Ensures.bind_run ?_
  have invoked : Ensures (invoke programs (client.config.startWords (containerName host))
      client.config.startTimeout) (client.config.announced host) fun answer _ =>
        ((invoke programs (client.config.startWords (containerName host))
          client.config.startTimeout).run (client.config.announced host)).1 = answer := rfl
  refine Ensures.bind invoked ?_
  intro answer after answered
  unfold Config.Starts
  rw [answered]
  cases answer with
  | error reason => exact Ensures.pure (by simp)
  | ok run =>
    cases ended : run.ending with
    | outlived =>
      simp only [ended]
      exact Ensures.pure (by simp [ended])
    | reaped status =>
      simp only [ended]
      by_cases success : exitCode status = 0
      · rw [if_neg (not_not.2 success)]
        exact Ensures.bind_any fun _ _ => Ensures.pure (by simp [ended, success, Config.naming])
      · rw [if_pos success]
        exact Ensures.pure (by simp [ended, success])

/-- A start for a scope runs one container at most, and launches nothing else where the
configuration names no container. -/
theorem startScoped_ends (unnamed : config.identifier = []) :
    Ensures (startScoped programs config) host fun answer after => ∃ run : Option Launch,
      after.launches = run.toList ++ host.launches ∧
      (∀ launch ∈ run, launch.arguments = (config.startWords (containerName host)).tail) ∧
      ((∃ cause, answer = .error cause ∧ ∀ identifier, ¬ config.Starts programs host identifier) ∨
        ∃ identifier, answer = .ok ⟨config.naming identifier, .started⟩ ∧
          config.Starts programs host identifier) := by
  have begun : Ensures ((new config).start programs) host fun answer after =>
      (∃ run : Option Launch, after.launches = run.toList ++ host.launches ∧
        (∀ launch ∈ run, launch.arguments = (config.startWords (containerName host)).tail) ∧
        ∀ started, answer = .ok started →
          ∃ identifier, started = ⟨config.naming identifier, .started⟩) ∧
      ∀ identifier, answer = .ok ⟨config.naming identifier, .started⟩ ↔
        config.Starts programs host identifier :=
    ⟨start_launches programs host (new config), start_answers programs host (new config)⟩
  refine Ensures.bind begun ?_
  rintro answer after ⟨⟨run, launched, arguments, shape⟩, starts_iff⟩
  cases answer with
  | ok client =>
    obtain ⟨identifier, rfl⟩ := shape client rfl
    exact Ensures.pure ⟨run, launched, arguments, .inr ⟨identifier, rfl, (starts_iff _).1 rfl⟩⟩
  | error cause =>
    have idle : Ensures ((new config).release programs) after fun _ still => still = after :=
      congrArg Prod.snd (release_idle programs after (Or.inr unnamed))
    refine Ensures.bind idle ?_
    rintro _ _ rfl
    refine Ensures.pure ⟨run, launched, arguments, .inl ⟨cause, rfl, fun identifier starts => ?_⟩⟩
    cases (starts_iff identifier).2 starts

end Client

end

/-! ## The lease of a container -/

/-- These launches, the last one first, are what becomes of one container in a scope, when
`started` says which identifiers the runtime gave it. -/
structure Leased (config : Config) (started : Bytes → Prop) (launches : List Launch) : Prop where
  /-- The runtime is told to run a container once at most. -/
  ran : launches.countP (config.invokes (ascii "run")) ≤ 1
  /-- What was started under an identifier is released last of all, and by this launch only. -/
  released : ∀ identifier, started identifier → identifier ≠ [] → ∃ ending earlier,
    launches = (config.naming identifier).releaseLaunch ending :: earlier ∧
      ∀ launch ∈ earlier, ∀ other container, Config.releases other container launch = false
  /-- Nothing is released that was not started. -/
  unreleased : (∀ identifier, started identifier → identifier = []) →
    ∀ launch ∈ launches, ∀ other container, Config.releases other container launch = false
  /-- Whatever is executed is executed in the container that was started. -/
  executed : ∀ launch ∈ launches, config.invokes (ascii "exec") launch = true →
    ∃ identifier, started identifier ∧ launch.ExecutesIn identifier

theorem Leased.nothing {config : Config} {started : Bytes → Prop}
    (unnamed : ∀ identifier, started identifier → identifier = []) :
    Leased config started [] where
  ran := Nat.zero_le 1
  released identifier starts named := absurd (unnamed identifier starts) named
  unreleased _ launch member := by cases member
  executed launch member := by cases member

section

variable {config : Config} {name identifier : Bytes} {run : Option Launch}
variable {commands : List Launch} {started : Bytes → Prop}

/-- What is launched before the end of a scope: the container is run, and then used. -/
structure Leasing (config : Config) (name identifier : Bytes) (run : Option Launch)
    (commands : List Launch) : Prop where
  runs : ∀ launch ∈ run, launch.arguments = (config.startWords name).tail
  uses : ∀ launch ∈ commands, (config.naming identifier).Executes launch

namespace Leasing

theorem ran (leasing : Leasing config name identifier run commands) :
    (commands ++ run.toList).countP (config.invokes (ascii "run")) ≤ 1 := by
  have notRun : commands.countP (config.invokes (ascii "run")) = 0 := by
    rw [List.countP_eq_zero]
    intro launch member invoked
    have verb := (Config.invokes_iff_of_executes (leasing.uses launch member)).1 invoked
    exact absurd verb (by decide)
  calc (commands ++ run.toList).countP (config.invokes (ascii "run"))
      = run.toList.countP (config.invokes (ascii "run")) := by
        rw [List.countP_append, notRun, Nat.zero_add]
    _ ≤ run.toList.length := List.countP_le_length
    _ ≤ 1 := by cases run <;> simp

theorem unreleased (leasing : Leasing config name identifier run commands) :
    ∀ launch ∈ commands ++ run.toList, ∀ other container,
      Config.releases other container launch = false := by
  intro launch member other container
  rcases List.mem_append.1 member with isCommand | isRun
  · obtain ⟨host, command, directory, words⟩ := leasing.uses launch isCommand
    exact Config.not_releases_of_commandWords words
  · exact Config.not_releases_of_startWords (leasing.runs launch (Option.mem_toList.1 isRun))

theorem executed (leasing : Leasing config name identifier run commands) :
    ∀ launch ∈ commands ++ run.toList, config.invokes (ascii "exec") launch = true →
      launch ∈ commands ∧ launch.ExecutesIn identifier := by
  intro launch member invoked
  rcases List.mem_append.1 member with isCommand | isRun
  · obtain ⟨host, command, directory, words⟩ := leasing.uses launch isCommand
    exact ⟨isCommand, Config.executesIn_of_commandWords words⟩
  · have words := leasing.runs launch (Option.mem_toList.1 isRun)
    exact absurd ((Config.invokes_iff_of_startWords words).1 invoked) (by decide)

/-- A scope that has nothing to release leaves it at that. -/
theorem leased_of_unnamed (leasing : Leasing config name identifier run commands)
    (unnamed : ∀ other, started other → other = [])
    (starts : ∀ launch ∈ commands, started identifier) :
    Leased config started (commands ++ run.toList) where
  ran := leasing.ran
  released other startsOther named := absurd (unnamed other startsOther) named
  unreleased _ := leasing.unreleased
  executed launch member invoked := by
    obtain ⟨isCommand, there⟩ := leasing.executed launch member invoked
    exact ⟨identifier, starts launch isCommand, there⟩

/-- A scope that ends with a release. -/
theorem leased_of_released (leasing : Leasing config name identifier run commands)
    (named : identifier ≠ []) (starts : started identifier)
    (only : ∀ other, started other → other = identifier) (ending : Host) :
    Leased config started
      ((config.naming identifier).releaseLaunch ending :: (commands ++ run.toList)) where
  ran := by
    rw [List.countP_cons_of_neg]
    · exact leasing.ran
    · rw [Config.not_invokes_releaseLaunch _ ending (by decide)]
      exact Bool.false_ne_true
  released other startsOther _ := by
    rw [only other startsOther]
    exact ⟨ending, _, rfl, leasing.unreleased⟩
  unreleased vain := absurd (vain identifier starts) named
  executed launch member invoked := by
    rcases List.mem_cons.1 member with rfl | earlier
    · rw [Config.not_invokes_releaseLaunch _ ending (by decide)] at invoked
      cases invoked
    · exact ⟨identifier, starts, (leasing.executed launch earlier invoked).2⟩

end Leasing

end

/-- **A container that is started for a scope is released at its end**, whatever is done
with it there: it is only used. -/
theorem Client.withScoped_leased {α : Type} (programs : Programs) {config : Config}
    (unnamed : config.identifier = []) {body : Client → Act α}
    (uses : ∀ client host, Ensures (body client) host fun _ after => Used client.config host after)
    (host : Host) :
    Ensures (withScoped programs config body) host fun _ after =>
      Leased config (config.Starts programs host) (host.launchedSince after) := by
  have since : ∀ {begun after : Host} {run : Option Launch} {new : List Launch},
      begun.launches = run.toList ++ host.launches → after.launches = new ++ begun.launches →
        host.launchedSince after = new ++ run.toList := by
    intro begun after run new launched more
    rw [Host.launchedSince_append (by rw [launched]; simp) more,
      Host.launchedSince_append (Nat.le_refl _) launched, Host.launchedSince_self,
      List.append_nil]
  refine Ensures.bind (startScoped_ends programs config host unnamed) ?_
  rintro answer begun ⟨run, launched, runs, ⟨cause, rfl, vain⟩ | ⟨identifier, rfl, starts⟩⟩
  · have leasing : Leasing config (containerName host) [] run [] :=
      ⟨runs, fun launch member => by cases member⟩
    refine Ensures.pure ?_
    rw [since launched (List.nil_append _).symm]
    exact leasing.leased_of_unnamed (fun other startsOther => absurd startsOther (vain other))
      fun launch member => by cases member
  · refine Ensures.bind (uses _ begun) ?_
    rintro result ended ⟨commands, more, executes⟩
    have leasing : Leasing config (containerName host) identifier run commands := ⟨runs, executes⟩
    by_cases named : identifier = []
    · subst named
      have idle : Ensures (release programs ⟨config.naming [], .started⟩) ended fun _ after =>
          after = ended := congrArg Prod.snd (release_idle programs ended (Or.inr rfl))
      refine Ensures.bind idle ?_
      rintro _ _ rfl
      refine Ensures.pure ?_
      rw [since launched more]
      exact leasing.leased_of_unnamed (fun other => starts.unique) fun _ _ => starts
    · refine Ensures.bind (release_issues programs ended (by simp) named) ?_
      rintro _ after ⟨-, traced⟩
      have launches : after.launches =
          ((config.naming identifier).releaseLaunch ended :: commands) ++ begun.launches := by
        rw [List.cons_append, ← more]
        exact congrArg Prod.fst traced
      refine Ensures.pure ?_
      rw [since launched launches]
      exact leasing.leased_of_released named starts (fun other => starts.unique) ended

/-! ## The search for a container -/

theorem Quiet.of_launches {host after : Host} (same : after.launches = host.launches) :
    Quiet host after :=
  ⟨[], same, fun launch member => by cases member⟩

/-- To look for a container is to release none. -/
theorem load_quiet (library : Json.Library) (programs : Programs) (config : Config)
    (namespaces : List Bytes) (name : Bytes) (host : Host) :
    Ensures (load library programs config namespaces name) host fun _ after => Quiet host after := by
  refine Ensures.get_bind ?_
  cases discoveryName host name with
  | error cause => exact Ensures.pure (.of_launches rfl)
  | ok fullName =>
    dsimp only
    split
    · exact Ensures.pure (.of_launches rfl)
    · refine (Client.findAgain_ends programs config [] .unbound namespaces config.attempts
        config.attempts .start).mono ?_
      rintro _ after ⟨calls, _, -, -, trail⟩
      refine ⟨_, trail.launches_eq, fun launch member other container => ?_⟩
      obtain ⟨call, -, spawned⟩ := List.mem_filterMap.1 (List.mem_reverse.1 member)
      obtain ⟨program, -, rfl⟩ := Option.map_eq_some_iff.1 spawned
      simp [Config.releases]

end Container

namespace Cli

open Container Evaluation

/-! ## The trial in a container -/

/-- A trial in a container only uses it, however the trial ends. -/
theorem tryWith_used (trial : Trial) (job : Job) (programs : Programs) (client : Client)
    (host : Host) :
    Ensures (tryWith trial job (.inContainer programs client [])) host fun _ after =>
      Used client.config host after := by
  let used : Invariant := fun _ after => Used client.config host after
  have issues : ∀ command journal start, trial.Due job start command → used journal start →
      (trial.issue (.inContainer programs client []) command).Ends start journal
        (fun _ => used) (fun _ => used) := by
    intro command journal start _ before
    refine trial.issue_enters (.inContainer programs client []) command fun _ _ _ => ?_
    exact before.trans (client.execute_used programs command [] (some trial.timeout) start)
  have maintains : (trial.run (.inContainer programs client []) job).Maintains used :=
    trial.run_maintains job (fun _ _ _ _ _ before => before) issues
  have begins : used [] host := Used.of_launches rfl
  exact maintains.holds begins

/-! ## Before the trial -/

/-- What an evaluation does before it reads its job: it makes the directory for the trial
and takes up the logger. -/
def readying (settings : Settings) : Act Unit := do
  let directory : Bytes := settings .workDirectory
  let _ ← makeDirectories directory
  useLogger settings (some (Path.under directory (ascii "run_instance.log"))) false

theorem addFile_launches (path : Bytes) (appending : Bool) (host : Host) :
    Ensures (Log.addFile path appending) host fun _ after => after.launches = host.launches := by
  unfold Log.addFile
  dsimp only
  split
  -- the directory above the file is made first, or there is none
  on_goal 1 => refine Ensures.bind_run ?_
  all_goals
    refine Ensures.get_bind ?_
    split
    · rfl
    · split <;> rfl

theorem useLogger_launches (settings : Settings) (path : Bytes) (console : Bool) (host : Host) :
    Ensures (useLogger settings (some path) console) host fun _ after =>
      after.launches = host.launches := by
  unfold useLogger
  dsimp only
  refine Ensures.bind_run (Ensures.bind (addFile_launches path false _) ?_)
  intro opened after same
  cases opened with
  | true =>
    refine Ensures.bind_run ?_
    split <;> exact same
  | false =>
    refine Ensures.bind_run (Ensures.bind_run ?_)
    split <;> exact same

theorem readying_launches (settings : Settings) (host : Host) :
    Ensures (readying settings) host fun _ after => after.launches = host.launches :=
  Ensures.bind_run (useLogger_launches settings _ false _)

/-! ## Evaluations -/

/-- A job is read in this host, and the runtime, told to run a container for it, gives that
this identifier. -/
def Begins (tooling : Tooling) (settings : Settings) (options : EvaluateOptions) (host : Host)
    (identifier : Bytes) : Prop :=
  (∃ job, Job.load tooling.library host options.descriptorPath = .ok job) ∧
    (imageConfig settings options.image).Starts tooling.programs host identifier

section

variable (tooling : Tooling) (settings : Settings) {options : EvaluateOptions} (host : Host)

theorem tryWhere_leased (image : options.image ≠ []) (trial : Trial) (job : Job) :
    Ensures (tryWhere tooling settings options trial job) host fun _ after =>
      Leased (imageConfig settings options.image)
        ((imageConfig settings options.image).Starts tooling.programs host)
        (host.launchedSince after) := by
  unfold tryWhere
  dsimp only
  rw [if_pos (by simpa using image)]
  refine Ensures.bind (Client.withScoped_leased tooling.programs rfl
    (fun client => tryWith_used trial job tooling.programs client) host) ?_
  intro answer after leased
  cases answer <;> exact Ensures.pure leased

theorem tryWhere_quiet (noImage : options.image = []) (discover : options.discover = true)
    (trial : Trial) (job : Job) :
    Ensures (tryWhere tooling settings options trial job) host fun _ after =>
      Quiet host after := by
  unfold tryWhere
  dsimp only
  rw [if_neg (by simp [noImage]), if_pos discover]
  refine Ensures.bind (load_quiet tooling.library tooling.programs _ _ _ host) ?_
  intro answer bound quiet
  cases answer with
  | error cause => exact Ensures.pure quiet
  | ok client =>
    exact (tryWith_used trial job tooling.programs client bound).mono fun _ _ used =>
      quiet.trans used.quiet

theorem evaluateJob_leased (image : options.image ≠ []) :
    Ensures (evaluateJob tooling settings options) host fun _ after =>
      Leased (imageConfig settings options.image) (Begins tooling settings options host)
        (host.launchedSince after) := by
  refine Ensures.get_bind ?_
  cases read : Job.load tooling.library host options.descriptorPath with
  | error cause =>
    have never : ∀ identifier, ¬ Begins tooling settings options host identifier := by
      rintro identifier ⟨⟨job, loaded⟩, -⟩
      rw [read] at loaded
      cases loaded
    refine Ensures.pure ?_
    rw [Host.launchedSince_self]
    exact .nothing fun identifier begins => absurd begins (never identifier)
  | ok job =>
    have same : Begins tooling settings options host =
        (imageConfig settings options.image).Starts tooling.programs host :=
      funext fun identifier => propext ⟨fun begins => begins.2, fun starts => ⟨⟨job, read⟩, starts⟩⟩
    rw [same]
    exact tryWhere_leased tooling settings host image _ _

theorem evaluateJob_quiet (noImage : options.image = []) (discover : options.discover = true) :
    Ensures (evaluateJob tooling settings options) host fun _ after => Quiet host after := by
  refine Ensures.get_bind ?_
  cases Job.load tooling.library host options.descriptorPath with
  | error cause => exact Ensures.pure (.of_launches rfl)
  | ok job => exact tryWhere_quiet tooling settings host noImage discover _ _

end

/-- Without settings an evaluation is aborted, and nothing is done. -/
theorem evaluate_aborts (tooling : Tooling) (arguments : List Bytes) {host : Host}
    {fault : Settings.LoadError}
    (withheld : Settings.load tooling.library host (Settings.usualPath host) = .error fault) :
    Ensures (evaluate tooling arguments) host fun code after =>
      code = abortedCode ∧ after = host := by
  refine Ensures.get_bind ?_
  rw [withheld]
  exact Ensures.pure ⟨rfl, rfl⟩

theorem evaluate_with {tooling : Tooling} {arguments : List Bytes} {host : Host}
    {settings : Settings} {post : Int → Host → Prop}
    (loaded : Settings.load tooling.library host (Settings.usualPath host) = .ok settings)
    (ends : Ensures (evaluateWith tooling settings arguments) host post) :
    Ensures (evaluate tooling arguments) host post := by
  refine Ensures.get_bind ?_
  rw [loaded]
  exact ends

/-- An evaluation whose arguments are understood reads its job and tries it when all is ready,
and says in the end what came of it. -/
theorem evaluateWith_ends {tooling : Tooling} {arguments : List Bytes} {host : Host}
    {settings : Settings} {options : EvaluateOptions} {begun : Host} {post : Host → Prop}
    (ready : ((readying settings).run host).2 = begun)
    (read : EvaluateOptions.read? ⟨settings .descriptorPath, false, []⟩ arguments = some options)
    (job : Ensures (evaluateJob tooling settings options) begun fun _ ended =>
      ∀ after : Host, after.launches = ended.launches → post after) :
    Ensures (evaluateWith tooling settings arguments) host fun code after =>
      code ≠ 2 ∧ post after := by
  unfold evaluateWith
  rw [read]
  dsimp only
  refine Ensures.bind_run (Ensures.bind_run ?_)
  change Ensures _ ((readying settings).run host).2 _
  rw [ready]
  refine Ensures.bind job ?_
  intro answer ended finish
  cases answer.bind (reportOf tooling) with
  | ok report =>
    obtain ⟨text, resolved⟩ := report
    refine Ensures.bind_run (Ensures.pure ⟨?_, finish _ rfl⟩)
    cases resolved <;> decide
  | error text =>
    refine Ensures.bind ((keeps_launches_log .error _).ensures ended) ?_
    intro _ after same
    exact Ensures.bind_run (Ensures.pure ⟨by decide, finish _ same⟩)

/-- **An evaluation with an image leases one container** and gives it back, whatever comes of
the trial; **an evaluation in a container that it was to look for releases none.**  Without
settings there is no evaluation, and nothing is done. -/
theorem evaluate_leased (tooling : Tooling) (arguments : List Bytes) (host : Host) :
    (∀ fault, Settings.load tooling.library host (Settings.usualPath host) = .error fault →
      Ensures (evaluate tooling arguments) host fun code after =>
        code = abortedCode ∧ after = host) ∧
    ∀ settings options,
      Settings.load tooling.library host (Settings.usualPath host) = .ok settings →
      EvaluateOptions.read? ⟨settings .descriptorPath, false, []⟩ arguments = some options →
        Ensures (evaluate tooling arguments) host fun _ after =>
          (options.image ≠ [] →
            Leased (imageConfig settings options.image)
              (Begins tooling settings options ((readying settings).run host).2)
              (host.launchedSince after)) ∧
          (options.image = [] → options.discover = true → Quiet host after) := by
  refine ⟨fun fault => evaluate_aborts tooling arguments, fun settings options loaded read => ?_⟩
  have ready : ((readying settings).run host).2.launches = host.launches :=
    readying_launches settings host
  generalize begins : ((readying settings).run host).2 = begun at ready ⊢
  have job : Ensures (evaluateJob tooling settings options) begun fun _ ended =>
      (options.image ≠ [] → Leased (imageConfig settings options.image)
        (Begins tooling settings options begun) (begun.launchedSince ended)) ∧
      (options.image = [] → options.discover = true → Quiet begun ended) :=
    ⟨evaluateJob_leased tooling settings begun, evaluateJob_quiet tooling settings begun⟩
  refine evaluate_with loaded ((evaluateWith_ends begins read (job.mono ?_)).mono
    fun _ _ => And.right)
  rintro _ ended ⟨leased, quiet⟩ after same
  have since : host.launchedSince after = begun.launchedSince ended := by
    simp only [Host.launchedSince, ready, same]
  rw [since]
  exact ⟨leased, fun noImage discover =>
    (Quiet.of_launches ready).trans ((quiet noImage discover).trans (.of_launches same))⟩

/-- Programs that all print the identifier of a container and succeed. -/
def givingTooling : Tooling where
  library := Json.plain
  programs := fun host _ _ => (.ok ⟨[(.output, ascii "c1\n")], [], .reaped 0, 0⟩, host.files)
  spawner := fun host _ => (.error [], host.files)
  input := []

/-- A host with a job and a runtime that is found without a search. -/
def hostWithJob : Host :=
  ((writeFile (ascii "job") (ascii "\x7b\"instance_id\": \"i\", \"model_patch\": \"p\"\x7d")).run
    { Host.bare with environ := [ascii "EVALBOX_CONTAINER_EXECUTABLE=./rt"] }).2

/-- The settings of that host, which has no configuration. -/
def hostSettings : Settings :=
  Settings.layered .null hostWithJob

theorem hostWithJob_settings :
    Settings.load Json.plain hostWithJob (Settings.usualPath hostWithJob) = .ok hostSettings :=
  rfl

def imageArguments : List Bytes :=
  [ascii "--details", ascii "job", ascii "--image", ascii "img"]

def imageOptions : EvaluateOptions :=
  ⟨ascii "job", false, ascii "img"⟩

theorem imageEvaluation_leased :
    Settings.load Json.plain hostWithJob (Settings.usualPath hostWithJob) = .ok hostSettings ∧
    EvaluateOptions.read? ⟨hostSettings .descriptorPath, false, []⟩ imageArguments =
      some imageOptions ∧
    Begins givingTooling hostSettings imageOptions ((readying hostSettings).run hostWithJob).2
      (ascii "c1") ∧
    ∃ ending earlier, hostWithJob.launchedSince
        ((evaluate givingTooling imageArguments).run hostWithJob).2 =
      ((imageConfig hostSettings (ascii "img")).naming (ascii "c1")).releaseLaunch ending ::
        earlier := by
  have read : EvaluateOptions.read? ⟨hostSettings .descriptorPath, false, []⟩ imageArguments =
      some imageOptions := rfl
  have begins : Begins givingTooling hostSettings imageOptions
      ((readying hostSettings).run hostWithJob).2 (ascii "c1") := by
    have loads : (Job.load Json.plain ((readying hostSettings).run hostWithJob).2
        imageOptions.descriptorPath).toOption.isSome = true := by decide +kernel
    exact ⟨⟨_, ok_of_toOption_eq_some (Option.some_get loads).symm⟩,
      ⟨[(.output, ascii "c1\n")], [], .reaped 0, 0⟩, 0, rfl, rfl, rfl, by decide +kernel⟩
  have leased := ((evaluate_leased givingTooling imageArguments hostWithJob).2 _ _
    hostWithJob_settings read).1 (by decide)
  obtain ⟨ending, earlier, launched, -⟩ := leased.released (ascii "c1") begins (by decide)
  exact ⟨hostWithJob_settings, read, begins, ending, earlier, launched⟩

end Cli

end Assay
