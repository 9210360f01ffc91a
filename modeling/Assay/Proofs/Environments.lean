/-
# Assay.Proofs.Environments -- what a child finds in its environment

An environment is built from entries and overlays, and of all that define a name the last one
counts: first the overlays from the last to the first, and then the entries from the last to
the first (`get?_layer`, `get?_ofEntries`).  Over all of them lies the pinned search path.

A child gets the environment as entries again, and reads there what the map holds
(`getVariable?_toEntries`); so the search path in which an executor looks up a bare name is
the one that the child it launches is given (`build_decided`).
-/
import Assay.Proofs.Scripts
import Assay.Proofs.Search
import Mathlib.Data.List.Infix
import Mathlib.Data.List.TakeWhile

namespace Assay

set_option autoImplicit false

open Bytes

namespace Environment

/-! ## Entries -/

/-- The entry sets the name to this value: what stands before its first equals sign is the
name, and is not empty. -/
structure Sets (entry name value : Bytes) : Prop where
  named : name ≠ []
  first : equals ∉ name
  parts : entry = name ++ equals :: value

theorem cut?_equals_eq_none {entry : Bytes} (without : equals ∉ entry) :
    cut? [equals] entry = none := by
  have notThere : ¬ contains entry [equals] = true := by
    rw [contains_iff_isInfix, List.singleton_infix_iff]
    exact without
  rw [← Option.not_isSome_iff_eq_none]
  exact notThere

theorem nameValue?_eq_some_iff {entry name value : Bytes} :
    nameValue? entry = some (name, value) ↔ Sets entry name value := by
  by_cases has : equals ∈ entry
  · obtain ⟨before, behind, rfl, first⟩ := List.eq_append_cons_of_mem has
    rw [nameValue?, cut_of_not_mem first]
    dsimp only
    constructor
    · intro found
      split at found
      · cases found
      · rename_i named
        cases found
        exact ⟨by simpa using named, first, rfl⟩
    · rintro ⟨named, notIn, parts⟩
      have same : before = name ∧ behind = value := by
        have cut := cut_of_not_mem first behind
        rw [parts, cut_of_not_mem notIn] at cut
        cases cut
        exact ⟨rfl, rfl⟩
      obtain ⟨rfl, rfl⟩ := same
      rw [if_neg (by simpa using named)]
  · rw [nameValue?, cut?_equals_eq_none has]
    refine ⟨nofun, fun sets => absurd ?_ has⟩
    rw [sets.parts]
    exact List.mem_append_right _ List.mem_cons_self

/-- An entry without an equals sign, or with one at its front, sets nothing. -/
theorem nameValue?_eq_none {entry : Bytes}
    (idle : equals ∉ entry ∨ entry.head? = some equals) : nameValue? entry = none := by
  rw [Option.eq_none_iff_forall_ne_some]
  rintro ⟨name, value⟩ found
  obtain ⟨named, first, rfl⟩ := nameValue?_eq_some_iff.1 found
  rcases idle with without | front
  · exact without (List.mem_append_right _ List.mem_cons_self)
  · obtain ⟨b, rest, rfl⟩ := List.exists_cons_of_ne_nil named
    rw [List.cons_append, List.head?_cons, Option.some.injEq] at front
    exact first (front ▸ List.mem_cons_self)

/-- The last of the entries that set the name sets it to this value. -/
def LastSet (entries : List Bytes) (name value : Bytes) : Prop :=
  ∃ before entry after, entries = before ++ entry :: after ∧ Sets entry name value ∧
    ∀ later ∈ after, ∀ other, ¬ Sets later name other

theorem get?_ofEntries (entries : List Bytes) (name : Bytes) :
    (ofEntries entries).get? name = entries.reverse.findSome? fun entry =>
      (nameValue? entry).bind fun found => if found.1 = name then some found.2 else none := by
  rw [ofEntries, KeyMap.ofList]
  induction entries using List.reverseRecOn with
  | nil => rfl
  | append_singleton earlier entry ih =>
      rw [List.filterMap_append, List.foldl_append, List.reverse_append, List.reverse_singleton,
        List.singleton_append, List.findSome?_cons, ← ih]
      cases found : nameValue? entry with
      | none => simp [found]
      | some pair =>
          simp only [List.filterMap_cons, found, List.filterMap_nil, List.foldl_cons,
            List.foldl_nil, KeyMap.get?_insert, Option.bind_some]
          split <;> rfl

theorem get?_ofEntries_eq_some_iff {entries : List Bytes} {name value : Bytes} :
    (ofEntries entries).get? name = some value ↔ LastSet entries name value := by
  have reads : ∀ {entry value : Bytes}, ((nameValue? entry).bind fun found =>
      if found.1 = name then some found.2 else none) = some value ↔ Sets entry name value := by
    intro entry value
    rw [← nameValue?_eq_some_iff]
    cases nameValue? entry with
    | none => simp
    | some pair =>
        obtain ⟨key, text⟩ := pair
        by_cases same : key = name <;> simp [same]
  rw [get?_ofEntries, List.findSome?_eq_some_iff]
  constructor
  · rintro ⟨after, entry, before, order, found, unset⟩
    refine ⟨before.reverse, entry, after.reverse, ?_, reads.1 found, fun later member other sets => ?_⟩
    · rw [← List.reverse_reverse entries, order]
      simp
    · have nothing := unset later (List.mem_reverse.1 member)
      rw [reads.2 sets] at nothing
      cases nothing
  · rintro ⟨before, entry, after, rfl, sets, unset⟩
    refine ⟨after.reverse, entry, before.reverse, by simp, reads.2 sets, fun later member => ?_⟩
    rw [Option.eq_none_iff_forall_ne_some]
    exact fun other found => unset later (List.mem_reverse.1 member) other (reads.1 found)

/-! ## Overlays -/

/-- The last of the overlays that define the name defines it as this value. -/
def LastDefined (overlays : List (Option Environment)) (name value : Bytes) : Prop :=
  ∃ before overlay after, overlays = before ++ some overlay :: after ∧
    overlay.get? name = some value ∧ ∀ later, some later ∈ after → later.get? name = none

/-- None of the overlays defines the name. -/
def Undefined (overlays : List (Option Environment)) (name : Bytes) : Prop :=
  ∀ overlay, some overlay ∈ overlays → overlay.get? name = none

theorem get?_layer (environment : Environment) (overlays : List (Option Environment))
    (name : Bytes) :
    (environment.layer overlays).get? name =
      (overlays.reverse.findSome? fun overlay => overlay.bind (·.get? name)).or
        (environment.get? name) := by
  rw [layer]
  induction overlays using List.reverseRecOn with
  | nil => rfl
  | append_singleton lower overlay ih =>
      rw [List.foldl_append, List.foldl_cons, List.foldl_nil, KeyMap.get?_override, ih,
        List.reverse_append, List.reverse_singleton, List.singleton_append, List.findSome?_cons]
      cases overlay with
      | none => rfl
      | some overlay => cases found : overlay.get? name <;> simp [found]

theorem findSome?_overlays_eq_some_iff {overlays : List (Option Environment)}
    {name value : Bytes} :
    (overlays.reverse.findSome? fun overlay => overlay.bind (·.get? name)) = some value ↔
      LastDefined overlays name value := by
  rw [List.findSome?_eq_some_iff]
  constructor
  · rintro ⟨after, overlay, before, order, found, undefined⟩
    obtain ⟨overlay, rfl, found⟩ := Option.bind_eq_some_iff.1 found
    refine ⟨before.reverse, overlay, after.reverse, ?_, found, fun later member => ?_⟩
    · rw [← List.reverse_reverse overlays, order]
      simp
    · exact undefined (some later) (List.mem_reverse.1 member)
  · rintro ⟨before, overlay, after, rfl, found, undefined⟩
    refine ⟨after.reverse, some overlay, before.reverse, by simp, found, fun later member => ?_⟩
    cases later with
    | none => rfl
    | some later => exact undefined later (List.mem_reverse.1 member)

theorem findSome?_overlays_eq_none_iff {overlays : List (Option Environment)} {name : Bytes} :
    (overlays.reverse.findSome? fun overlay => overlay.bind (·.get? name)) = none ↔
      Undefined overlays name := by
  rw [List.findSome?_eq_none_iff]
  constructor
  · exact fun undefined overlay member => undefined (some overlay) (List.mem_reverse.2 member)
  · intro undefined overlay member
    cases overlay with
    | none => rfl
    | some overlay => exact undefined overlay (List.mem_reverse.1 member)

/-- A name has the value of the last overlay that defines it, or of the last entry that sets
it. -/
theorem get?_layered_eq_some_iff {entries : List Bytes} {overlays : List (Option Environment)}
    {name value : Bytes} :
    ((ofEntries entries).layer overlays).get? name = some value ↔
      LastDefined overlays name value ∨ Undefined overlays name ∧ LastSet entries name value := by
  rw [get?_layer, Option.or_eq_some_iff, findSome?_overlays_eq_some_iff,
    findSome?_overlays_eq_none_iff, get?_ofEntries_eq_some_iff]

theorem get?_build_eq_some_iff {entries : List Bytes} {overlays : List (Option Environment)}
    {pinned : Bool} {name value : Bytes} (free : pinned = true → name ≠ pathName) :
    (build entries overlays pinned).get? name = some value ↔
      LastDefined overlays name value ∨ Undefined overlays name ∧ LastSet entries name value := by
  rw [← get?_layered_eq_some_iff, build]
  cases pinned with
  | false => rfl
  | true => rw [if_pos rfl, pin, KeyMap.get?_insert, if_neg (Ne.symm (free rfl))]

/-- No entry and no overlay undoes the pin. -/
theorem get?_build_pathName (entries : List Bytes) (overlays : List (Option Environment)) :
    (build entries overlays true).get? pathName = some securePath := by
  rw [build, if_pos rfl, pin, KeyMap.get?_insert, if_pos rfl]

/-- An entry that sets nothing makes no difference. -/
theorem build_without_idle {before after : List Bytes} {entry : Bytes}
    (idle : equals ∉ entry ∨ entry.head? = some equals) (overlays : List (Option Environment))
    (pinned : Bool) :
    build (before ++ entry :: after) overlays pinned = build (before ++ after) overlays pinned := by
  have same : ofEntries (before ++ entry :: after) = ofEntries (before ++ after) := by
    rw [ofEntries, ofEntries, List.filterMap_append, List.filterMap_cons, nameValue?_eq_none idle,
      ← List.filterMap_append]
  rw [build, build, same]

/-! ## What a child reads -/

theorem lt_append_cons (front : Bytes) (b : UInt8) (rest : Bytes) :
    front < front ++ b :: rest := by
  induction front with
  | nil => exact List.nil_lt_cons b rest
  | cons c front ih => exact List.cons_lt_cons_self.2 ih

/-- A name that stands before an equals sign in an entry is the name of the entry, or the
entry's own name goes on behind it. -/
theorem eq_or_lt_of_startsWith {name key value : Bytes} (plain : equals ∉ name)
    (starts : startsWith (key ++ equals :: value) (name ++ [equals]) = true) :
    key = name ∨ name < key := by
  rw [startsWith, List.isPrefixOf_iff_prefix] at starts
  obtain ⟨rest, parts⟩ := starts
  rw [List.append_assoc, List.singleton_append] at parts
  rcases List.append_eq_append_iff.1 parts with ⟨between, rfl, behind⟩ | ⟨between, rfl, behind⟩
  · cases between with
    | nil => exact .inl (List.append_nil _)
    | cons b between => exact .inr (lt_append_cons name b between)
  · cases between with
    | nil => exact .inl (List.append_nil _).symm
    | cons b between =>
        obtain ⟨rfl, -⟩ := List.cons.inj behind
        exact absurd (List.mem_append_right _ List.mem_cons_self) plain

/-- What a child reads for a name that its environment has.  Entries whose own names go on with
an equals sign come later in the order of names. -/
theorem getVariable?_toEntries {environment : Environment} {name value : Bytes} (host : Host)
    (found : environment.get? name = some value) (named : name ≠ []) (whole : 0 ∉ name)
    (plain : equals ∉ name) :
    ({ host with environ := environment.toEntries } : Host).getVariable? name = some value := by
  have passes : untilZero name = name :=
    List.takeWhile_eq_self_iff.2 fun b member => bne_iff_ne.2 fun zero => whole (zero ▸ member)
  obtain ⟨before, after, order⟩ := List.append_of_mem (KeyMap.mem_toList_iff.2 found)
  have first : (environment.toEntries.find? fun entry => startsWith entry (name ++ [equals])) =
      some (name ++ equals :: value) := by
    rw [List.find?_eq_some_iff_append]
    refine ⟨?_, before.map fun entry => entry.1 ++ equals :: entry.2,
      after.map fun entry => entry.1 ++ equals :: entry.2, ?_, fun entry member => ?_⟩
    · rw [startsWith, List.isPrefixOf_iff_prefix]
      exact ⟨value, by simp⟩
    · rw [toEntries, order]
      simp
    · obtain ⟨⟨key, text⟩, earlier, rfl⟩ := List.mem_map.1 member
      have ascending := environment.ascending
      rw [show environment.entries = before ++ (name, value) :: after from order] at ascending
      have below : key < name :=
        (List.pairwise_append.1 ascending).2.2 (key, text) earlier (name, value) List.mem_cons_self
      rw [Bool.not_eq_true', Bool.eq_false_iff]
      intro starts
      rcases eq_or_lt_of_startsWith plain starts with rfl | above
      · exact List.lt_irrefl _ below
      · exact List.lt_irrefl _ (List.lt_trans below above)
  rw [Host.getVariable?, passes, if_neg (by simpa using named), first, Option.map_some]
  simp

end Environment

/-! ## What an executor launches -/

/-- What the program that is launched reads for a variable. -/
def Launch.getVariable? (launch : Launch) (name : Bytes) : Option Bytes :=
  ({ Host.bare with environ := launch.environ } : Host).getVariable? name

namespace Exec

/-- The environment that a request is executed in. -/
def Executor.environmentFor (executor : Executor) (request : Request) (host : Host) :
    Environment :=
  .build host.environ [some executor.environment, some request.environment] true

/-- The words that are run for a request, unless the shell runs its line. -/
def Request.directWords? (request : Request) : Option (List Bytes) :=
  if request.words.isEmpty then
    match Shell.dispatch request.command with
    | .shell => none
    | .direct => (Shell.splitWords request.command).toOption
  else some request.words

/-- The lines of the request are handed on to something that launches nothing. -/
def Request.IsQuiet (request : Request) : Prop :=
  ∀ handler ∈ request.onLine, ∀ text, Keeps Host.launches (handler text)

/-- What is launched for a request, if anything is, in a host that is ready for it. -/
structure LooksUp (environment : Environment) (ready : Host) (request : Request)
    (spawned : Option Launch) : Prop where
  /-- It reads in its environment the search path. -/
  handedOn : ∀ launch ∈ spawned,
    launch.getVariable? Environment.pathName = environment.get? Environment.pathName
  /-- A name that is run directly stands for what is found in that search path. -/
  found : ∀ name more path, request.directWords? = some (name :: more) →
    environment.get? Environment.pathName = some path →
    spawned.map Launch.program = ready.findProgram path name

theorem prepare_found {host : Host} {request : Request} {path name : Bytes} {more : List Bytes}
    (direct : request.directWords? = some (name :: more)) :
    (prepare host request path).toOption.map Invocation.program = host.findProgram path name := by
  unfold Request.directWords? at direct
  unfold prepare
  split at direct
  · rename_i noWords
    rw [if_pos noWords, invokeLine]
    cases dispatched : Shell.dispatch request.command with
    | shell =>
        rw [dispatched] at direct
        cases direct
    | direct =>
        rw [dispatched] at direct
        cases split : Shell.splitWords request.command with
        | error cause =>
            rw [split] at direct
            cases direct
        | ok words =>
            rw [split] at direct
            cases direct
            exact invoke_found
  · rename_i someWords
    have words : request.words = name :: more := Option.some.inj direct
    rw [if_neg someWords, words]
    exact invoke_found

section

variable (programs : Programs) (executor : Executor) (request : Request)

theorem launchRequest_looksUp (directory : Bytes) (limit : Int) (host : Host) :
    Ensures (launchRequest programs executor request directory limit) host fun _ after =>
      ∃ spawned : Option Launch, after.launches = spawned.toList ++ host.launches ∧
        LooksUp (executor.environmentFor request host) host request spawned := by
  have pinned : (executor.environmentFor request host).get? Environment.pathName =
      some Environment.securePath :=
    Environment.get?_build_pathName _ _
  have looked : ∀ path, (executor.environmentFor request host).get? Environment.pathName =
      some path → (executor.environmentFor request host).searchPath = path := by
    intro path isPath
    rw [Environment.searchPath, isPath, Option.getD_some]
  refine (launchRequest_spawns programs executor request directory limit host).mono ?_
  rintro _ after ⟨spawned, launched, program, handedOn⟩
  refine ⟨spawned, launched, fun launch member => ?_, fun name more path direct isPath => ?_⟩
  · rw [pinned, Launch.getVariable?, (handedOn launch member).2]
    exact Environment.getVariable?_toEntries Host.bare pinned (by decide) (by decide) (by decide)
  · rw [program, ← looked path isPath]
    exact prepare_found direct

theorem keeps_streamed {α : Type} {view : Host → α} {handler : LineHandler}
    (logs : ∀ level message, Keeps view (Log.log level message))
    (handles : ∀ text, Keeps view (handler text)) (mode : Shell.Dispatch) (limit : Int)
    (run : ChildRun) : Keeps view (streamed handler mode limit run) := by
  have steps : ∀ (reading : Reading) (stream : Stream),
      Keeps view (reading.step handler stream) := by
    intro reading stream
    unfold Reading.step
    dsimp only
    split
    · split <;> exact Keeps.pure _
    · refine (handles _).bind fun fault => ?_
      cases fault <;> exact Keeps.pure _
    · exact Keeps.pure _
    · exact Keeps.pure _
  have goesOn : ∀ (turns : List Stream) (reading : Reading),
      Keeps view (reading.goOn handler turns) := by
    intro turns
    induction turns with
    | nil => exact fun reading => Keeps.pure reading
    | cons stream rest ih => exact fun reading => (steps reading stream).bind ih
  refine Keeps.bind (goesOn _ _) fun reading => ?_
  dsimp only
  split
  · refine (logs .warn _).bind fun _ => ?_
    cases run.ending <;> exact Keeps.pure _
  · cases run.ending <;> exact Keeps.pure _

/-- Nothing is launched for a result. -/
theorem keeps_launches_of_quiet {request : Request} (quiet : request.IsQuiet) (limit : Int)
    (launched : Except StartError (Shell.Dispatch × ChildRun)) :
    Keeps Host.launches (conclude request limit launched) := by
  cases streams : request.onLine with
  | none => exact keeps_launches_conclude streams limit launched
  | some handler =>
      cases launched with
      | error fault =>
          exact (keeps_launches_log _ _).bind fun _ =>
            (keeps_launches_log _ _).bind fun _ => Keeps.pure _
      | ok launched =>
          obtain ⟨mode, run⟩ := launched
          simp only [conclude, streams]
          refine (keeps_streamed keeps_launches_log (quiet handler streams) mode limit run).bind
            fun _ => ?_
          exact (keeps_launches_log _ _).bind fun _ => Keeps.pure _

/-- The host in which a request is launched. -/
def Executor.readyHost (host : Host) : Host :=
  ((executor.announce request).run host).2

theorem Executor.start_looksUp (host : Host) :
    Ensures (executor.start programs request) host fun _ after =>
      ∃ spawned : Option Launch, after.launches = spawned.toList ++ host.launches ∧
        LooksUp (executor.environmentFor request host) (executor.readyHost request host) request
          spawned := by
  have sameEnviron : Keeps Host.environ (executor.announce request) :=
    (Log.keeps_log (fun _ _ _ _ => rfl) .info _).bind fun _ =>
      Log.keeps_log (fun _ _ _ _ => rfl) .info _
  have environment : executor.environmentFor request (executor.readyHost request host) =
      executor.environmentFor request host := by
    rw [environmentFor, environmentFor]
    exact congrArg (fun entries => Environment.build entries _ true) (sameEnviron host)
  have launches : (executor.readyHost request host).launches = host.launches :=
    (executor.announce_stays request host).launches
  refine Ensures.bind_run ((launchRequest_looksUp programs executor request _ _ _).mono ?_)
  rintro _ after ⟨spawned, launched, looksUp⟩
  exact ⟨spawned, by rw [launched]; exact congrArg _ launches, environment ▸ looksUp⟩

/-- What is executed is what the request has started, with nothing else when its lines are
handed on to something quiet. -/
theorem Executor.execute_looksUp (host : Host) :
    ∃ spawned : Option Launch,
      LooksUp (executor.environmentFor request host) (executor.readyHost request host) request
        spawned ∧
      ((executor.start programs request).run host).2.launches =
        spawned.toList ++ host.launches ∧
      (request.IsQuiet → ((executor.execute programs request).run host).2.launches =
        spawned.toList ++ host.launches) := by
  obtain ⟨spawned, launched, looksUp⟩ := executor.start_looksUp programs request host
  refine ⟨spawned, looksUp, launched, fun quiet => ?_⟩
  rw [execute_eq_start]
  exact (keeps_launches_of_quiet quiet _ _ _).trans launched

end

end Exec

/-- **An environment holds for each name what was said of it last**, in the overlays or else in
the entries, and above all else the pinned search path.  In that path, which it reads in its own
environment, a child has been looked up by its name. -/
theorem Environment.build_decided (entries : List Bytes) (overlays : List (Option Environment))
    (pinned : Bool) :
    (∀ name value, (pinned = true → name ≠ pathName) →
      ((build entries overlays pinned).get? name = some value ↔
        LastDefined overlays name value ∨ Undefined overlays name ∧ LastSet entries name value)) ∧
    (∀ before entry after, entries = before ++ entry :: after →
      equals ∉ entry ∨ entry.head? = some equals →
      build (before ++ after) overlays pinned = build entries overlays pinned) ∧
    (build entries overlays true).get? pathName = some securePath ∧
    ∀ (programs : Programs) (executor : Exec.Executor) (request : Exec.Request) (host : Host),
      ∃ spawned : Option Launch,
        Exec.LooksUp (build host.environ [some executor.environment, some request.environment]
          true) (executor.readyHost request host) request spawned ∧
        ((executor.start programs request).run host).2.launches =
          spawned.toList ++ host.launches ∧
        (request.IsQuiet → ((executor.execute programs request).run host).2.launches =
          spawned.toList ++ host.launches) := by
  refine ⟨fun _ _ => get?_build_eq_some_iff, ?_, get?_build_pathName entries overlays,
    fun programs executor request host => executor.execute_looksUp programs request host⟩
  rintro before entry after rfl idle
  exact (build_without_idle idle overlays pinned).symm

namespace Environment

/-- Entries of which one has no name, one sets nothing, and two set the same name. -/
def crowdedEntries : List Bytes :=
  [ascii "D=1", ascii "=C:", ascii "A", ascii "D=2=3", ascii "PATH=/games"]

/-- Overlays of which one is missing and two define the same name. -/
def crowdedOverlays : List (Option Environment) :=
  [some (.ofList [(ascii "C", ascii "x"), (ascii "PATH", ascii "/tmp")]), none,
    some (.ofList [(ascii "C", ascii "y")])]

theorem crowdedEntries_decided :
    (build crowdedEntries crowdedOverlays true).get? (ascii "C") = some (ascii "y") ∧
      (build crowdedEntries crowdedOverlays true).get? (ascii "D") = some (ascii "2=3") ∧
      build [ascii "D=1", ascii "A", ascii "D=2=3", ascii "PATH=/games"] crowdedOverlays true =
        build crowdedEntries crowdedOverlays true ∧
      (build crowdedEntries crowdedOverlays true).get? pathName = some securePath := by
  obtain ⟨decided, idle, secure, -⟩ := build_decided crowdedEntries crowdedOverlays true
  refine ⟨(decided _ _ fun _ => by decide).2 (.inl ?_),
    (decided _ _ fun _ => by decide).2 (.inr ⟨?_, ?_⟩),
    idle [ascii "D=1"] (ascii "=C:") [ascii "A", ascii "D=2=3", ascii "PATH=/games"] rfl
      (.inr rfl), secure⟩
  · exact ⟨[some (.ofList [(ascii "C", ascii "x"), (ascii "PATH", ascii "/tmp")]), none],
      .ofList [(ascii "C", ascii "y")], [], rfl, by decide +kernel, fun _ member => nomatch member⟩
  · intro overlay member
    have undefined : ∀ overlay ∈ crowdedOverlays,
        overlay.bind (·.get? (ascii "D")) = none := by decide +kernel
    exact undefined (some overlay) member
  · refine ⟨[ascii "D=1", ascii "=C:", ascii "A"], _, [ascii "PATH=/games"], rfl,
      ⟨by decide, by decide, rfl⟩, fun later member other sets => ?_⟩
    rw [List.mem_singleton.1 member, ← nameValue?_eq_some_iff] at sets
    have names : nameValue? (ascii "PATH=/games") = some (ascii "PATH", ascii "/games") := by decide
    rw [names] at sets
    exact absurd (congrArg (fun found : Option (Bytes × Bytes) => found.map (·.1)) sets)
      (by simp [ascii])

end Environment

end Assay
