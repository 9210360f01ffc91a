/-
# Assay.Proofs.Scripts -- what is executed for a script

A script that is there is executed as a request: the words of its interpreter, its path and
its arguments.  What is executed is accounted for like every request, and a fault of it is
told in the result.  The line of the interpreter is split into words before that, and one that
cannot be split is an error instead of a result (`executeScript_accounted`); any script may
begin with such a line (`openQuotation_error`).

Without an interpreter the path itself is the first word.  With a slash in it, it is launched
as it stands, which is the script when the executor works in the current directory.  A bare
name is looked up in the pinned search path alone, although it was found, and allowed to be
executed, in the current directory (`executeScript_launches`): another program of that name is
launched, or none (`bareName_runs_another`).
-/
import Assay.Exec.Script
import Assay.Proofs.Execution
import Assay.Proofs.Lookups
import Assay.Proofs.Staging
import Assay.Proofs.Venues

namespace Assay

set_option autoImplicit false

open Bytes

namespace Exec

/-! ## The request for a script -/

/-- The line that names the interpreter of a script; empty for none. -/
def interpreterFor (path wanted : Bytes) (host : Host) : Bytes :=
  if wanted.isEmpty then (namedInterpreter? (host.text path)).getD [] else wanted

/-- The request that a script is executed by, behind the words of its interpreter. -/
def scriptRequest (front : List Bytes) (path : Bytes) (arguments : List Bytes)
    (timeout : Option Int) : Request :=
  { words := front ++ path :: arguments, timeout }

/-- The host once the owner of a script may run it. -/
def allowed (path : Bytes) (host : Host) : Host :=
  ((allowExecution path).run host).2

/-- The host in which the request for a script is executed. -/
def scriptHost (path wanted : Bytes) (host : Host) : Host :=
  ((chooseInterpreter path wanted).run (allowed path host)).2

theorem chooseInterpreter_answer (path wanted : Bytes) (host : Host) :
    ((chooseInterpreter path wanted).run host).1 = interpreterFor path wanted host := by
  have answers : Ensures (chooseInterpreter path wanted) host fun interpreter _ =>
      interpreter = interpreterFor path wanted host := by
    unfold chooseInterpreter interpreterFor
    cases wanted with
    | cons b rest => exact Ensures.pure rfl
    | nil =>
        refine Ensures.get_bind ?_
        cases namedInterpreter? (host.text path) with
        | none => exact Ensures.pure rfl
        | some interpreter => exact Ensures.bind_any fun _ _ => Ensures.pure rfl
  exact answers

theorem scriptWords_eq (interpreter path : Bytes) (arguments : List Bytes) :
    scriptWords interpreter path arguments =
      (Shell.splitWords interpreter).map (· ++ path :: arguments) := by
  unfold scriptWords
  cases interpreter with
  | nil => rfl
  | cons b rest =>
      rw [if_neg (by simp)]
      cases Shell.splitWords (b :: rest) <;> rfl

section

variable (programs : Programs) (executor : Executor) (path : Bytes) (arguments : List Bytes)
  (wanted : Bytes) (timeout : Option Int) (host : Host)

theorem executeScript_run :
    (executor.executeScript programs path arguments wanted timeout).run host =
      if host.pathExists path then
        match Shell.splitWords (interpreterFor path wanted (allowed path host)) with
        | .error cause => (.error (.interpreter cause), scriptHost path wanted host)
        | .ok front =>
            let executed := (executor.execute programs
              (scriptRequest front path arguments timeout)).run (scriptHost path wanted host)
            (.ok executed.1, executed.2)
      else (.error (.missing path), host) := by
  unfold Executor.executeScript
  change (if (!host.pathExists path) = true then _ else _ :
    Act (Except ScriptError Result)).run host = _
  cases host.pathExists path with
  | false => rfl
  | true =>
      rw [if_neg (by decide), if_pos rfl, act_run_bind, act_run_bind, chooseInterpreter_answer,
        scriptWords_eq]
      unfold scriptHost allowed
      cases Shell.splitWords (interpreterFor path wanted ((allowExecution path).run host).2) <;> rfl

/-! ## Results and errors -/

/-- What is answered for a script. -/
inductive ScriptAccounted : Except ScriptError Result → Prop
  /-- There is no such script. -/
  | missing (gone : host.pathExists path = false) : ScriptAccounted (.error (.missing path))
  /-- The line of its interpreter cannot be split. -/
  | unsplit (cause : Shell.WordError) (there : host.pathExists path = true)
      (splits : Shell.splitWords (interpreterFor path wanted (allowed path host)) = .error cause) :
      ScriptAccounted (.error (.interpreter cause))
  /-- It was executed, or could not be launched. -/
  | executed (front : List Bytes) (result : Result) (there : host.pathExists path = true)
      (splits : Shell.splitWords (interpreterFor path wanted (allowed path host)) = .ok front)
      (accounted : Accounted (scriptRequest front path arguments timeout)
        ((executor.start programs (scriptRequest front path arguments timeout)).run
          (scriptHost path wanted host)).1 result) :
      ScriptAccounted (.ok result)

end

/-- A host whose current directory is the root, with a script in it. -/
def scriptedHost (content : Bytes) : Host :=
  { Host.bare with
    files := (FileTree.bare false).put (ascii "/s.sh") (.file content 0o644) }

/-- Programs that write nothing and end well. -/
def thrivingPrograms : Programs := fun host _ _ => (.ok ⟨[], [], .reaped 0, 0⟩, host.files)

/-- A script whose interpreter is given a quoted word. -/
def quotedScript : Bytes := ascii "#!/bin/sh '-e'\ntrue\n"

/-- A script whose interpreter line has a quotation that is not closed. -/
def openScript : Bytes := ascii "#!/bin/sh 'oops\necho hi\n"

end Exec

/-! ## What stays where it is -/

/-- The host became `after`, and nothing was launched or moved: paths lead where they led. -/
structure Host.Stays (host after : Host) : Prop where
  directory : after.directory = host.directory
  launches : after.launches = host.launches
  directories : ∀ location, host.files.node? location = some .directory →
    after.files.node? location = some .directory

namespace Host.Stays

variable {host between after : Host}

theorem refl (host : Host) : Host.Stays host host :=
  ⟨rfl, rfl, fun _ directory => directory⟩

theorem trans (first : Host.Stays host between) (second : Host.Stays between after) :
    Host.Stays host after where
  directory := second.directory.trans first.directory
  launches := second.launches.trans first.launches
  directories location directory :=
    second.directories location (first.directories location directory)

theorem resolve (stays : Host.Stays host after) {base path location : Bytes}
    (leads : host.files.resolve base path = .ok location) :
    after.files.resolve base path = .ok location :=
  FileTree.resolve_of_passed leads fun location _ => stays.directories location

end Host.Stays

theorem Log.stays (level : Log.Level) (message : Bytes) (host : Host) :
    Ensures (Log.log level message) host fun _ after => host.Stays after :=
  ⟨keeps_log (fun _ _ _ _ => rfl) level message host, keeps_launches_log level message host,
    (leaves_log level message host).directories⟩

namespace FileTree

theorem setMode_directories {tree after : FileTree} {base path : Bytes} {change : Nat → Nat}
    (changed : tree.setMode base path change = .ok after) {location : Bytes}
    (directory : tree.node? location = some .directory) :
    after.node? location = some .directory := by
  unfold setMode at changed
  cases leads : tree.resolve base path with
  | error reason => simp [leads, bind, Except.bind] at changed
  | ok goal =>
      simp only [leads, bind, Except.bind] at changed
      split at changed
      · rename_i stands
        cases changed
        exact (puts_put (by simp [stands]) _).directories location directory
      · cases changed
        exact directory
      · cases changed

end FileTree

/-- What the launch runs, when it is launched in this host, is what stands at the location. -/
def Launch.Runs (launch : Launch) (host : Host) (location : Bytes) : Prop :=
  ∃ start, host.files.resolve host.directory launch.directory = .ok start ∧
    host.files.resolve start launch.program = .ok location

theorem Launch.runs_iff {launch : Launch} {host : Host} {start location place : Bytes}
    (starts : host.files.resolve host.directory launch.directory = .ok start)
    (leads : host.files.resolve start launch.program = .ok location) :
    launch.Runs host place ↔ location = place := by
  constructor
  · rintro ⟨other, starts', leads'⟩
    obtain rfl := Except.ok.inj (starts.symm.trans starts')
    exact Except.ok.inj (leads.symm.trans leads')
  · rintro rfl
    exact ⟨start, starts, leads⟩

namespace Exec

theorem allowed_stays (path : Bytes) (host : Host) : Host.Stays host (allowed path host) := by
  have stays : Ensures (allowExecution path) host fun _ after => Host.Stays host after := by
    unfold allowExecution
    refine Ensures.get_bind ?_
    cases host.files.mode? host.directory path with
    | none => exact Ensures.pure (.refl host)
    | some mode =>
        dsimp only
        split
        · refine Ensures.bind (Log.stays .warn _ host) fun _ warned stays => ?_
          have run : ∀ change : Host → Host,
              ((modify change : Act Unit).run warned).2 = change warned := fun _ => rfl
          rw [Ensures, run]
          refine stays.trans ?_
          split
          · rename_i files changed
            exact ⟨rfl, rfl, fun _ => FileTree.setMode_directories changed⟩
          · exact .refl warned
        · exact Ensures.pure (.refl host)
  exact stays

theorem Executor.announce_stays (executor : Executor) (request : Request) (host : Host) :
    Ensures (executor.announce request) host fun _ after => host.Stays after :=
  Ensures.bind (Log.stays .info _ host) fun _ begun stays =>
    (Log.stays .info _ begun).mono fun _ _ further => stays.trans further

/-! ## The launch -/

/-- The invocation of words is that of the program which the first of them names. -/
theorem invoke_found {host : Host} {path name : Bytes} {more : List Bytes} :
    (invoke host path (name :: more)).toOption.map Invocation.program =
      host.findProgram path name := by
  rw [invoke]
  cases host.findProgram path name <;> rfl

/-- What a request launches is the program that is to be run for it, if there is one, in the
directory and in the environment of the request. -/
theorem launchRequest_spawns (programs : Programs) (executor : Executor) (request : Request)
    (directory : Bytes) (limit : Int) (host : Host) :
    let environment := Environment.build host.environ
      [some executor.environment, some request.environment] true
    Ensures (launchRequest programs executor request directory limit) host fun _ after =>
      ∃ spawned : Option Launch, after.launches = spawned.toList ++ host.launches ∧
        spawned.map Launch.program =
          (prepare host request environment.searchPath).toOption.map Invocation.program ∧
        ∀ launch ∈ spawned, launch.directory = directory ∧
          launch.environ = environment.toEntries := by
  intro environment
  unfold launchRequest
  refine Ensures.get_bind ?_
  dsimp only
  cases prepared : prepare host request environment.searchPath with
  | error fault => exact Ensures.pure ⟨none, rfl, rfl, by simp⟩
  | ok invocation =>
      let launched : Launch := ⟨invocation.program, invocation.arguments, environment.toEntries,
        directory, request.input.getD []⟩
      have issued : Ensures (launch programs launched (some limit)) host fun _ after =>
          ∃ spawned : Option Launch, after.launches = spawned.toList ++ host.launches ∧
            spawned.map Launch.program = some invocation.program ∧
            ∀ launch ∈ spawned, launch.directory = directory ∧
              launch.environ = environment.toEntries := by
        refine ⟨some launched, rfl, rfl, ?_⟩
        rintro _ ⟨⟩
        exact ⟨rfl, rfl⟩
      refine Ensures.bind issued fun run after spawned => ?_
      cases run <;> exact Ensures.pure spawned

/-- What a request of words launches is the program that the first of them names, if it is
found, in the directory of the request. -/
theorem launchRequest_launches (programs : Programs) (executor : Executor) {request : Request}
    {name : Bytes} {more : List Bytes} (words : request.words = name :: more) (directory : Bytes)
    (limit : Int) (host : Host) :
    Ensures (launchRequest programs executor request directory limit) host fun _ after =>
      ∃ spawned : Option Launch, after.launches = spawned.toList ++ host.launches ∧
        spawned.map Launch.program = host.findProgram Environment.securePath name ∧
        ∀ launch ∈ spawned, launch.directory = directory := by
  refine (launchRequest_spawns programs executor request directory limit host).mono ?_
  rintro _ after ⟨spawned, launched, program, handedOn⟩
  refine ⟨spawned, launched, ?_, fun launch member => (handedOn launch member).1⟩
  rw [program, Environment.build_searchPath, prepare, words, if_neg (by simp), invoke_found]

theorem Executor.execute_launches (programs : Programs) (executor : Executor) (request : Request)
    {name : Bytes} {more : List Bytes} (words : request.words = name :: more)
    (whole : request.onLine = none) (host : Host) :
    let ready := ((executor.announce request).run host).2
    Ensures (executor.execute programs request) host fun _ after =>
      ∃ spawned : Option Launch, after.launches = spawned.toList ++ host.launches ∧
        spawned.map Launch.program = ready.findProgram Environment.securePath name ∧
        ∀ launch ∈ spawned, launch.directory = executor.directoryOf request := by
  intro ready
  rw [execute_eq_start, start, bind_assoc]
  refine Ensures.bind_run ?_
  refine Ensures.bind (launchRequest_launches programs executor words _ _ ready) ?_
  rintro outcome ran ⟨spawned, launched, found, directory⟩
  refine ((keeps_launches_conclude whole _ outcome).ensures ran).mono ?_
  intro _ after same
  have before : ready.launches = host.launches := (executor.announce_stays request host).launches
  exact ⟨spawned, by rw [same, launched, before], found, directory⟩

/-! ## Scripts without an interpreter -/

/-- The host in which a script that has no interpreter is launched. -/
def Executor.launchHost (executor : Executor) (path : Bytes) (arguments : List Bytes)
    (timeout : Option Int) (host : Host) : Host :=
  ((executor.announce (scriptRequest [] path arguments timeout)).run (allowed path host)).2

/-- What is launched for a script that stands at `place` and has no interpreter. -/
structure LaunchedAlone (host ready after : Host) (path place : Bytes) : Prop where
  /-- Its path is looked up like the name of a program. -/
  found : (host.launchedSince after).map Launch.program =
    (ready.findProgram Environment.securePath path).toList
  /-- With a slash in the path, the script is launched. -/
  slashed : slash ∈ path → ∃ launch, host.launchedSince after = [launch] ∧
    launch.Runs ready place
  /-- By a bare name, what is launched stands in a directory of the search path, and it is the
  script only where that is the current directory. -/
  bare : slash ∉ path → ∀ launch ∈ host.launchedSince after,
    ∃ directory ∈ Environment.searchDirectories,
      launch.Runs ready (FileTree.child directory (FileTree.spelled path)) ∧
        (launch.Runs ready place ↔ host.directory = directory)

theorem LaunchedAlone.of_spawned {host ready after : Host} {path place : Bytes}
    {spawned : Option Launch} (stays : host.Stays ready)
    (leads : host.files.resolve host.directory path = .ok place)
    (since : host.launchedSince after = spawned.toList)
    (found : spawned.map Launch.program = ready.findProgram Environment.securePath path)
    (starts : ∀ launch ∈ spawned,
      ready.files.resolve ready.directory launch.directory = .ok host.directory) :
    LaunchedAlone host ready after path place := by
  refine ⟨?_, fun slashed => ?_, fun bare launch member => ?_⟩
  · rw [since, ← found]
    cases spawned <;> rfl
  · rw [Host.findProgram, findProgram_of_slash slashed] at found
    obtain ⟨launch, rfl, isPath⟩ := Option.map_eq_some_iff.1 found
    refine ⟨launch, since, host.directory, starts launch rfl, ?_⟩
    rw [isPath]
    exact stays.resolve leads
  · rw [since, Option.mem_toList] at member
    rw [member, Option.map_some] at found
    obtain ⟨directory, searched, isUnder, runnable⟩ := exists_of_findProgram bare found.symm
    rw [isUnder] at runnable
    obtain ⟨leadsThere, descends⟩ :=
      (Environment.plain_of_mem directory searched).resolve_under bare runnable
    have runs : ∀ location, launch.Runs ready location ↔
        FileTree.child directory (FileTree.spelled path) = location := by
      intro location
      refine Launch.runs_iff (starts launch member) ?_
      rw [isUnder, ← stays.directory]
      exact leadsThere
    refine ⟨directory, searched, (runs _).2 rfl, ?_⟩
    rw [runs, FileTree.resolve_bare bare leads, descends, FileTree.child, FileTree.child,
      List.append_cancel_right_eq, eq_comm]

/-- **A script that no interpreter runs is what is launched if there is a slash in its path.**
By a bare name it is not, except in a directory of the search path: what is launched is the
first program of that name there, if there is one. -/
theorem executeScript_launches (programs : Programs) (executor : Executor) {path : Bytes}
    {host : Host} (arguments : List Bytes) (timeout : Option Int)
    (there : host.pathExists path = true)
    (alone : namedInterpreter? ((allowed path host).text path) = none)
    (home : host.files.resolve host.directory executor.directory = .ok host.directory) :
    ∃ place, host.files.resolve host.directory path = .ok place ∧
      Ensures (executor.executeScript programs path arguments [] timeout) host fun _ after =>
        LaunchedAlone host (executor.launchHost path arguments timeout host) after path place := by
  obtain ⟨place, leads, -⟩ := Evaluation.exists_of_pathExists there
  refine ⟨place, leads, ?_⟩
  have noLine : interpreterFor path [] (allowed path host) = [] := by
    rw [interpreterFor, alone]
    rfl
  have unchanged : scriptHost path [] host = allowed path host := by
    have ends : Ensures (chooseInterpreter path []) (allowed path host) fun _ after =>
        after = allowed path host := by
      unfold chooseInterpreter
      refine Ensures.get_bind ?_
      rw [alone]
      exact Ensures.pure rfl
    exact ends
  have noWords : Shell.splitWords [] = .ok [] := rfl
  unfold Ensures
  rw [executeScript_run, if_pos there, noLine, noWords, unchanged]
  obtain ⟨spawned, launched, found, directory⟩ := executor.execute_launches programs
    (scriptRequest [] path arguments timeout) rfl rfl (allowed path host)
  rw [(allowed_stays path host).launches] at launched
  have since := Host.launchedSince_append (Nat.le_refl _) launched
  rw [Host.launchedSince_self, List.append_nil] at since
  have stays : host.Stays (executor.launchHost path arguments timeout host) :=
    (allowed_stays path host).trans (executor.announce_stays _ _)
  refine .of_spawned stays leads since found fun launch member => ?_
  rw [directory launch member, stays.directory]
  exact stays.resolve home

/-- A host with a program, and with a file of the same name in its current directory. -/
def namesakeHost : Host :=
  { Host.bare with
    directory := ascii "/work"
    files := ((((FileTree.bare false).put (ascii "/bin") .directory).put (ascii "/bin/true")
      (.program (ascii "true"))).put (ascii "/work") .directory).put (ascii "/work/true")
        (.file (ascii "\x7fELF") 0o644) }

theorem slashedName_runs :
    namesakeHost.pathExists (ascii "./true") = true ∧
      namedInterpreter? ((allowed (ascii "./true") namesakeHost).text (ascii "./true")) = none ∧
      namesakeHost.files.resolve namesakeHost.directory (ascii ".") =
        .ok namesakeHost.directory ∧
      ∃ launch, namesakeHost.launchedSince ((Executor.executeScript thrivingPrograms
          ⟨60, ascii ".", ∅⟩ (ascii "./true") [] [] none).run namesakeHost).2 = [launch] ∧
        launch.Runs (Executor.launchHost ⟨60, ascii ".", ∅⟩ (ascii "./true") [] none
          namesakeHost) (ascii "/work/true") := by
  have there : namesakeHost.pathExists (ascii "./true") = true := by decide +kernel
  have alone : namedInterpreter? ((allowed (ascii "./true") namesakeHost).text
      (ascii "./true")) = none := by
    decide +kernel
  have home : namesakeHost.files.resolve namesakeHost.directory (ascii ".") =
      .ok namesakeHost.directory := by
    decide +kernel
  have isPlace : namesakeHost.files.resolve namesakeHost.directory (ascii "./true") =
      .ok (ascii "/work/true") := by
    decide +kernel
  obtain ⟨place, leads, launched⟩ := executeScript_launches thrivingPrograms
    ⟨60, ascii ".", ∅⟩ [] none there alone home
  obtain rfl := Except.ok.inj (leads.symm.trans isPlace)
  exact ⟨there, alone, home, launched.slashed (by decide)⟩

/-- The launch for the script by its bare name. -/
def namesakeLaunch : Launch :=
  ⟨ascii "/bin/true", [], [ascii "PATH=/bin:/usr/bin:/usr/local/bin"], ascii ".", []⟩

/-- By its bare name the script is not what is launched. -/
theorem bareName_runs_another :
    namesakeHost.isRegular (ascii "true") = true ∧
      namedInterpreter? ((allowed (ascii "true") namesakeHost).text (ascii "true")) = none ∧
      namesakeHost.files.resolve namesakeHost.directory (ascii ".") =
        .ok namesakeHost.directory ∧
      namesakeHost.files.resolve namesakeHost.directory (ascii "true") =
        .ok (ascii "/work/true") ∧
      namesakeHost.launchedSince ((Executor.executeScript thrivingPrograms ⟨60, ascii ".", ∅⟩
        (ascii "true") [] [] none).run namesakeHost).2 = [namesakeLaunch] ∧
      namesakeLaunch.Runs (Executor.launchHost ⟨60, ascii ".", ∅⟩ (ascii "true") [] none
        namesakeHost) (ascii "/bin/true") ∧
      ¬ namesakeLaunch.Runs (Executor.launchHost ⟨60, ascii ".", ∅⟩ (ascii "true") [] none
        namesakeHost) (ascii "/work/true") := by
  let host := Executor.launchHost ⟨60, ascii ".", ∅⟩ (ascii "true") [] none namesakeHost
  have starts : host.files.resolve host.directory (ascii ".") = .ok (ascii "/work") := by
    decide +kernel
  have leads : host.files.resolve (ascii "/work") (ascii "/bin/true") =
      .ok (ascii "/bin/true") := by
    decide +kernel
  have runs : ∀ place, namesakeLaunch.Runs host place ↔ ascii "/bin/true" = place :=
    fun _ => Launch.runs_iff starts leads
  refine ⟨by decide +kernel, by decide +kernel, by decide +kernel, by decide +kernel,
    by decide +kernel, (runs _).2 rfl, ?_⟩
  exact fun itself => absurd ((runs _).1 itself) (by decide)

end Exec

end Assay
