/-
# Assay.Proofs.Launches -- what a client launches

Each thing that is done with a client launches one program at most.  The lemmas here
say for each of them which program that is and with which arguments, whatever the
programs do: `start_launches`, `execute_launches`, and for releases `release_issues`
of the ownership of clients.  An invocation of the runtime is never taken for the
release of a container (`not_releases_of_runtimeWords`), so that releases can be
counted among all launches.

From that follows what is released when a start fails (`partway_isReleased_iff`).
-/
import Assay.Proofs.Lexemes
import Assay.Proofs.Ownership

namespace Assay

set_option autoImplicit false

open Bytes

namespace Host

/-- The launches of a host since it was `start`, the last one first. -/
def launchedSince (start host : Host) : List Launch :=
  host.launches.take (host.launches.length - start.launches.length)

/-- What is launched further comes in front. -/
theorem launchedSince_append {start host after : Host} {new : List Launch}
    (grown : start.launches.length ≤ host.launches.length)
    (more : after.launches = new ++ host.launches) :
    start.launchedSince after = new ++ start.launchedSince host := by
  have count : (new ++ host.launches).length - start.launches.length =
      new.length + (host.launches.length - start.launches.length) := by
    rw [List.length_append]
    omega
  rw [launchedSince, more, count, List.take_length_add_append]
  rfl

theorem launchedSince_self (host : Host) : host.launchedSince host = [] := by
  simp [launchedSince]

end Host

theorem keeps_launches_log (level : Log.Level) (message : Bytes) :
    Keeps Host.launches (Log.log level message) :=
  Log.keeps_log (fun _ _ _ _ => rfl) level message

/-- The launch runs a command in a container. -/
def Launch.ExecutesIn (launch : Launch) (container : Bytes) : Prop :=
  ∃ front command, launch.arguments = front ++ [container, ascii "bash", ascii "-lc", command]

theorem keeps_launches_randomHex (length : Nat) : Keeps Host.launches (randomHex length) := by
  -- for any seed, as the arithmetic of this one must not be unfolded
  have same : ∀ (host : Host) seed, Host.launches { host with seed } = host.launches :=
    fun _ _ => rfl
  exact keeps_modifyGet fun host => same host (nextSeed (host.seed + length))

namespace Container

open Shell

namespace Config

/-- The configuration, but for another container. -/
def naming (config : Config) (identifier : Bytes) : Config :=
  { config with identifier }

@[simp]
theorem naming_identifier (config : Config) (identifier : Bytes) :
    (config.naming identifier).identifier = identifier :=
  rfl

@[simp]
theorem naming_runtimeWords (config : Config) (identifier : Bytes) :
    (config.naming identifier).runtimeWords = config.runtimeWords :=
  rfl

@[simp]
theorem naming_stopTimeout (config : Config) (identifier : Bytes) :
    (config.naming identifier).stopTimeout = config.stopTimeout :=
  rfl

@[simp]
theorem naming_self (config : Config) : config.naming config.identifier = config :=
  rfl

/-- The launch hands the shell the line that releases a container, which is addressed as
the configuration addresses its own. -/
def releases (config : Config) (container : Bytes) (launch : Launch) : Bool :=
  launch.program == Client.shellProgram &&
    launch.arguments == [ascii "-c", (config.naming container).releaseLine]

/-! ## Releases among launches -/

/-- A line releases one container. -/
theorem releaseLine_injective (config : Config) {container other : Bytes}
    (same : (config.naming container).releaseLine = (config.naming other).releaseLine) :
    container = other := by
  refine quoteWord_injective ?_
  -- the container stands in the line twice, so both are quoted in as many bytes
  have lengths := congrArg List.length same
  simp only [releaseLine, naming_identifier, naming_runtimeWords, naming_stopTimeout,
    List.length_append] at lengths
  simp only [releaseLine, naming_identifier, naming_runtimeWords, naming_stopTimeout,
    List.append_assoc, List.append_cancel_left_eq] at same
  exact (List.append_inj same (by omega)).1

/-- The release of a configuration is the release of its container and of no other. -/
theorem releases_releaseLaunch_iff (config : Config) (host : Host) (container : Bytes) :
    config.releases container (config.releaseLaunch host) = true ↔
      config.identifier = container := by
  constructor
  · intro released
    simp only [releases, releaseLaunch, Bool.and_eq_true, beq_iff_eq, List.cons.injEq, and_true,
      true_and] at released
    rw [← config.naming_self] at released
    exact releaseLine_injective config released
  · rintro rfl
    simp [releases, releaseLaunch]

/-- The runtime is not invoked by the arguments of a shell. -/
theorem not_releases_of_runtimeWords {config other : Config} {verb container : Bytes}
    {more : List Bytes} {launch : Launch} (notShell : verb ≠ ascii "-c")
    (invoked : launch.arguments = (other.runtimeWords ++ verb :: more).tail) :
    config.releases container launch = false := by
  rw [releases, invoked]
  unfold runtimeWords
  split <;> simp [notShell]

/-- To start a container, the runtime is told to run it. -/
theorem startWords_eq (config : Config) (name : Bytes) :
    config.startWords name = config.runtimeWords ++ ascii "run" ::
      ([ascii "-d", ascii "--name", name, ascii "-w", config.directory] ++ config.runArguments ++
        [config.image, ascii "sleep", config.lifetime]) := by
  simp [startWords]

/-- For a command in a container, the runtime is told to execute it. -/
theorem commandWords_eq (config : Config) (host : Host) (command directory : Bytes) :
    config.commandWords host command directory = config.runtimeWords ++ ascii "exec" ::
      ([ascii "-w", directory] ++
        (config.forwardedEntries host ++ config.environment.toList).flatMap variableWords ++
        [config.identifier, ascii "bash", ascii "-lc", command]) := by
  simp [commandWords]

theorem not_releases_of_startWords {config other : Config} {name container : Bytes}
    {launch : Launch} (words : launch.arguments = (other.startWords name).tail) :
    config.releases container launch = false := by
  rw [startWords_eq] at words
  exact not_releases_of_runtimeWords (by decide) words

theorem not_releases_of_commandWords {config other : Config} {host : Host}
    {command directory container : Bytes} {launch : Launch}
    (words : launch.arguments = (other.commandWords host command directory).tail) :
    config.releases container launch = false := by
  rw [commandWords_eq] at words
  exact not_releases_of_runtimeWords (by decide) words

end Config

/-- No container was released while the host became `after`. -/
def Quiet (host after : Host) : Prop :=
  ∃ new, after.launches = new ++ host.launches ∧
    ∀ launch ∈ new, ∀ config container, Config.releases config container launch = false

theorem Quiet.grown {host after : Host} (quiet : Quiet host after) :
    host.launches.length ≤ after.launches.length := by
  obtain ⟨new, launched, -⟩ := quiet
  simp [launched]

/-! ## What is launched -/

variable (programs : Programs) (host : Host)

theorem invoke_launches (words : List Bytes) (limit : Int) :
    Ensures (invoke programs words limit) host fun _ after => ∃ spawned : Option Launch,
      after.launches = spawned.toList ++ host.launches ∧
        ∀ launch ∈ spawned, launch.arguments = words.tail := by
  unfold invoke
  refine Ensures.get_bind ?_
  dsimp only
  split
  · exact Ensures.pure ⟨none, rfl, fun launch member => by cases member⟩
  · refine ⟨some _, rfl, fun launch member => ?_⟩
    cases member
    rfl

/-- The name that a host gives to the next container it starts. -/
def containerName (host : Host) : Bytes :=
  ascii "evalbox-" ++ hexDigits 8 host.seed

namespace Client

variable (client : Client)

/-- To start a container is to launch the runtime, if it is found; a client that has
started one differs in the identifier and the state. -/
theorem start_launches :
    Ensures (client.start programs) host fun answer after => ∃ spawned : Option Launch,
      after.launches = spawned.toList ++ host.launches ∧
        (∀ launch ∈ spawned,
          launch.arguments = (client.config.startWords (containerName host)).tail) ∧
        ∀ started, answer = .ok started →
          ∃ identifier, started = ⟨client.config.naming identifier, .started⟩ := by
  unfold start
  have drawn : Ensures (randomHex 8) host fun digits after =>
      digits = hexDigits 8 host.seed ∧ after.launches = host.launches :=
    ⟨rfl, keeps_launches_randomHex 8 host⟩
  refine Ensures.bind drawn ?_
  rintro _ seeded ⟨rfl, same⟩
  refine Ensures.bind ((keeps_launches_log .debug _).ensures seeded) ?_
  intro _ ready unlogged
  refine Ensures.bind (invoke_launches programs ready _ _) ?_
  rintro answer after ⟨spawned, launched, arguments⟩
  rw [unlogged, same] at launched
  cases answer with
  | error reason => exact ⟨spawned, launched, arguments, fun started ended => by cases ended⟩
  | ok run =>
    dsimp only
    cases run.ending with
    | outlived => exact ⟨spawned, launched, arguments, fun started ended => by cases ended⟩
    | reaped status =>
      dsimp only
      split
      · exact ⟨spawned, launched, arguments, fun started ended => by cases ended⟩
      · refine Ensures.bind ((keeps_launches_log .info _).ensures after) ?_
        intro _ ended unlogged
        refine ⟨spawned, unlogged.trans launched, arguments, fun started answered => ?_⟩
        cases answered
        exact ⟨_, rfl⟩

/-- To execute a command is to launch the runtime with the words for it, if the client has
a container and the runtime is found. -/
theorem execute_launches (command directory : Bytes) (timeout : Option Int) :
    Ensures (client.execute programs command directory timeout) host fun _ after =>
      ∃ spawned : Option Launch, after.launches = spawned.toList ++ host.launches ∧
        ∀ launch ∈ spawned, launch.arguments = (client.config.commandWords host command
          (if directory.isEmpty then client.config.directory else directory)).tail := by
  unfold execute
  split
  · exact Ensures.pure ⟨none, rfl, fun launch member => by cases member⟩
  · refine Ensures.get_bind ?_
    refine Ensures.bind ((keeps_launches_log .info _).ensures host) ?_
    intro _ ready unlogged
    refine Ensures.bind (invoke_launches programs ready _ _) ?_
    rintro answer after ⟨spawned, launched, arguments⟩
    rw [unlogged] at launched
    exact Ensures.pure ⟨spawned, launched, arguments⟩

end Client

/-- The words for a command name the container that the configuration names. -/
theorem Config.executesIn_of_commandWords {config : Config} {host : Host}
    {command directory : Bytes} {launch : Launch}
    (words : launch.arguments = (config.commandWords host command directory).tail) :
    launch.ExecutesIn config.identifier := by
  refine ⟨config.runtimeWords.tail ++ [ascii "exec", ascii "-w", directory] ++
    (config.forwardedEntries host ++ config.environment.toList).flatMap variableWords,
    command, words.trans ?_⟩
  simp [commandWords, runtimeWords]

/-! ## Starts that fail -/

/-- When a start for a scope fails, the runtime was launched once at most, to run the
container, and what is released is the container that the configuration names. -/
theorem Client.startScoped_launches (config : Config) :
    Ensures (startScoped programs config) host fun answer after =>
      ∀ cause, answer = .error cause → ∃ spawned : Option Launch, ∃ before : Host,
        (∀ launch ∈ spawned, launch.arguments = (config.startWords (containerName host)).tail) ∧
        host.launchedSince after =
          (if config.identifier = [] then [] else [config.releaseLaunch before]) ++
            spawned.toList := by
  unfold startScoped
  refine Ensures.bind (start_launches programs host (new config)) ?_
  rintro answer failed ⟨spawned, launched, arguments, -⟩
  cases answer with
  | ok client => exact Ensures.pure fun cause ended => by cases ended
  | error cause =>
    have noLonger : host.launches.length ≤ host.launches.length := Nat.le_refl _
    by_cases unnamed : config.identifier = []
    · have idle : Ensures ((new config).release programs) failed fun _ after => after = failed :=
        congrArg Prod.snd (release_idle programs failed (Or.inr unnamed))
      refine Ensures.bind idle ?_
      rintro _ _ rfl
      refine Ensures.pure fun cause ended => ⟨spawned, host, arguments, ?_⟩
      rw [if_pos unnamed, Host.launchedSince_append noLonger launched, Host.launchedSince_self]
      simp
    · have due : (new config).state ≠ .released := by
        unfold new
        split <;> simp
      refine Ensures.bind (release_issues programs failed due unnamed) ?_
      rintro _ after ⟨-, released⟩
      have launches : after.launches =
          ([config.releaseLaunch failed] ++ spawned.toList) ++ host.launches := by
        rw [List.append_assoc, ← launched]
        exact congrArg Prod.fst released
      refine Ensures.pure fun cause ended => ⟨spawned, failed, arguments, ?_⟩
      rw [if_neg unnamed, Host.launchedSince_append noLonger launches, Host.launchedSince_self]
      simp

/-- The runtime was run to start a container for a scope, and the start failed all the same. -/
def FailsPartway (programs : Programs) (config : Config) (host : Host) : Prop :=
  (∃ cause, ((Client.startScoped programs config).run host).1 = .error cause) ∧
    ∃ launch ∈ host.launchedSince ((Client.startScoped programs config).run host).2,
      launch.arguments = (config.startWords (containerName host)).tail

/-- By the end of a start for a scope, a release of the container that was to be started has
been issued. -/
def IsReleased (programs : Programs) (config : Config) (host : Host) : Prop :=
  ∃ launch ∈ host.launchedSince ((Client.startScoped programs config).run host).2,
    config.releases (containerName host) launch = true

/-- **A container that was started partway is released only where the configuration names
that very container already**: what is released is what the configuration names, and a
start changes that only when it has succeeded. -/
theorem partway_isReleased_iff {config : Config} (partway : FailsPartway programs config host) :
    IsReleased programs config host ↔ config.identifier = containerName host := by
  obtain ⟨⟨cause, failed⟩, -⟩ := partway
  obtain ⟨spawned, before, arguments, launched⟩ :=
    Client.startScoped_launches programs host config cause failed
  have named : containerName host ≠ [] := List.cons_ne_nil _ _
  have notReleased : ∀ launch ∈ spawned,
      config.releases (containerName host) launch = false := fun launch member =>
    Config.not_releases_of_startWords (arguments launch member)
  rw [IsReleased, launched]
  constructor
  · rintro ⟨launch, member, released⟩
    rcases List.mem_append.1 member with fromConfig | fromRun
    · split at fromConfig
      · cases fromConfig
      · rw [List.mem_singleton.1 fromConfig] at released
        exact (config.releases_releaseLaunch_iff before _).1 released
    · rw [notReleased launch (Option.mem_toList.1 fromRun)] at released
      cases released
  · intro same
    have notEmpty : config.identifier ≠ [] := same ▸ named
    refine ⟨config.releaseLaunch before, ?_, (config.releases_releaseLaunch_iff before _).2 same⟩
    rw [if_neg notEmpty]
    exact List.mem_cons_self

/-- Programs that write nothing and end in one way. -/
def silently (ending : Ending) : Programs :=
  fun host _ _ => (.ok ⟨[], [], ending, 0⟩, host.files)

/-- A runtime that is found without a search. -/
def localRuntime : Config :=
  { executable := ascii "./rt" }

/-- A configuration that names the container that is started next. -/
def foreknown : Config :=
  { localRuntime with identifier := containerName .bare }

theorem foreknown_isReleased :
    FailsPartway (silently (.reaped 256)) foreknown .bare ∧
      IsReleased (silently (.reaped 256)) foreknown .bare := by
  have partway : FailsPartway (silently (.reaped 256)) foreknown .bare :=
    ⟨⟨_, rfl⟩, by decide +kernel⟩
  exact ⟨partway, (partway_isReleased_iff (silently (.reaped 256)) .bare partway).2 rfl⟩

/-- A container that the runtime leaves behind when it fails, or when it takes too long, is
not released. -/
theorem partway_not_released :
    (FailsPartway (silently (.reaped 256)) localRuntime .bare ∧
        ¬ IsReleased (silently (.reaped 256)) localRuntime .bare) ∧
      FailsPartway (silently .outlived) localRuntime .bare ∧
        ¬ IsReleased (silently .outlived) localRuntime .bare := by
  unfold FailsPartway IsReleased
  refine ⟨⟨⟨⟨_, rfl⟩, ?_⟩, ?_⟩, ⟨⟨_, rfl⟩, ?_⟩, ?_⟩
  all_goals decide +kernel

end Container

end Assay
