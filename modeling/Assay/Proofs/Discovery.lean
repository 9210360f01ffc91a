/-
# Assay.Proofs.Discovery -- how a container is looked for

A search asks the runtime for one listing after another and says in the log what came of
it; it does nothing else to the host.  `Trail` is the record of that: which listings were
asked for, in which host each, and where that led.  What a listing shows is said without
the reader (`FirstShown`).  A search that plans to ask for some namespaces either misses
in all of them or stops at the first that finds the container (`Search`).  One round is
such a search, and so are several, over all their namespaces in a row (`Search.again`);
`load_loaded` says from that what comes of the whole.
-/
import Assay.Container.Discovery
import Assay.Proofs.Launches

namespace Assay.Container

set_option autoImplicit false

open Bytes

variable (library : Json.Library)

/-! ## What a listing shows -/

/-- The line is read as a JSON object that names a container and gives its identifier, both as
strings. -/
def Shows (line name identifier : Bytes) : Prop :=
  ∃ members, library.parse line = some (.object members) ∧
    Json.findMember (ascii "Names") members = some (.string name) ∧
    Json.findMember (ascii "ID") members = some (.string identifier)

/-- The first line that shows a container of this name gives it this identifier. -/
def FirstShown (text : List Bytes) (name identifier : Bytes) : Prop :=
  ∃ before line rest, text = before ++ line :: rest ∧ Shows library line name identifier ∧
    ∀ earlier ∈ before, ∀ other, ¬ Shows library earlier name other

variable {library}

theorem Listed.ofLine?_eq_some_iff {line : Bytes} {listed : Listed} :
    Listed.ofLine? library line = some listed ↔ Shows library line listed.name listed.identifier := by
  have string?_eq : ∀ {value : Json} {text : Bytes},
      value.string? = some text ↔ value = .string text := by
    intro value text
    cases value <;> simp [Json.string?]
  have get?_eq : ∀ {value member : Json} {key : Bytes}, value.get? key = some member ↔
      ∃ members, value = .object members ∧ Json.findMember key members = some member := by
    intro value member key
    cases value <;> simp [Json.get?, Json.object?]
  simp only [Listed.ofLine?, Option.bind_eq_bind, Option.bind_eq_some_iff, string?_eq, get?_eq]
  constructor
  · rintro ⟨_, read, _, ⟨members, rfl, named⟩, _, rfl, _, ⟨_, same, given⟩, _, rfl, made⟩
    cases same
    cases made
    exact ⟨members, read, named, given⟩
  · rintro ⟨members, read, named, given⟩
    exact ⟨_, read, _, ⟨members, rfl, named⟩, _, rfl, _, ⟨members, rfl, given⟩, _, rfl, rfl⟩

section

variable {line name identifier : Bytes} {more : List Bytes}

/-- A line gives a container one identifier. -/
theorem Shows.unique {other : Bytes} (shown : Shows library line name identifier)
    (also : Shows library line name other) : other = identifier := by
  obtain ⟨members, read, -, given⟩ := shown
  obtain ⟨_, again, -, same⟩ := also
  rw [read] at again
  cases again
  rw [given] at same
  cases same
  rfl

theorem firstShown_cons_of_shows {here : Bytes} (shown : Shows library line name here) :
    FirstShown library (line :: more) name identifier ↔ here = identifier := by
  constructor
  · rintro ⟨before, found, rest, split, finds, missed⟩
    cases before with
    | nil =>
        cases split
        exact finds.unique shown
    | cons first before =>
        cases split
        exact absurd shown (missed line List.mem_cons_self here)
  · rintro rfl
    exact ⟨[], line, more, rfl, shown, fun _ member => by cases member⟩

theorem firstShown_cons_of_not (hidden : ∀ other, ¬ Shows library line name other) :
    FirstShown library (line :: more) name identifier ↔ FirstShown library more name identifier := by
  constructor
  · rintro ⟨before, found, rest, split, finds, missed⟩
    cases before with
    | nil =>
        cases split
        exact absurd finds (hidden identifier)
    | cons first before =>
        cases split
        exact ⟨before, found, rest, rfl, finds, fun earlier member =>
          missed earlier (List.mem_cons_of_mem line member)⟩
  · rintro ⟨before, found, rest, rfl, finds, missed⟩
    refine ⟨line :: before, found, rest, rfl, finds, fun earlier member => ?_⟩
    rcases List.mem_cons.1 member with rfl | later
    · exact hidden
    · exact missed earlier later

theorem identifierIn?_eq_some_iff {listing : Bytes} :
    identifierIn? library name listing = some identifier ↔
      FirstShown library (lines listing) name identifier := by
  unfold identifierIn?
  induction lines listing with
  | nil => simp [FirstShown]
  | cons line more ih =>
      cases read : Listed.ofLine? library line with
      | none =>
          rw [List.filterMap_cons_none read, ih, firstShown_cons_of_not]
          intro other shown
          have reads : Listed.ofLine? library line = some ⟨name, other⟩ :=
            Listed.ofLine?_eq_some_iff.2 shown
          rw [reads] at read
          cases read
      | some listed =>
          have shown := Listed.ofLine?_eq_some_iff.1 read
          rw [List.filterMap_cons_some read]
          by_cases same : listed.name = name
          · subst same
            rw [List.find?_cons_of_pos (by simp), firstShown_cons_of_shows shown]
            simp
          · rw [List.find?_cons_of_neg (by simpa using same), ih, firstShown_cons_of_not]
            intro other shown'
            have reads : Listed.ofLine? library line = some ⟨name, other⟩ :=
              Listed.ofLine?_eq_some_iff.2 shown'
            rw [reads] at read
            cases read
            exact same rfl

end

/-! ## Calls for listings -/

/-- A call for the listing of a namespace. -/
structure Asked where
  namespaceName : Bytes
  /-- The host in which it was made. -/
  host : Host

namespace Asked

variable (library) (programs : Programs) (config : Config) (call : Asked)

/-- What the runtime answers to the call. -/
def answer : Except Bytes ChildRun :=
  ((invoke programs (config.listingWords call.namespaceName) config.timeout).run call.host).1

/-- The call succeeded, and the runtime printed this listing. -/
def Printed (listing : Bytes) : Prop :=
  ∃ run status, call.answer programs config = .ok run ∧ run.ending = .reaped status ∧
    exitCode status = 0 ∧ run.on .output = listing

/-- The call succeeded, and what was printed gives a container of this name the identifier. -/
def Finds (name identifier : Bytes) : Prop :=
  ∃ listing, call.Printed programs config listing ∧ FirstShown library (lines listing) name identifier

/-- The call failed, or what was printed does not show the container. -/
def Misses (name : Bytes) : Prop :=
  ∀ identifier, ¬ call.Finds library programs config name identifier

/-- What the call launches; nothing where the runtime is not to be found. -/
def launch? : Option Launch :=
  (call.host.findProgram (runtimePath call.host) config.executable).map fun program =>
    { program
      arguments := [ascii "-n", call.namespaceName, ascii "ps", ascii "--format", ascii "json"]
      environ := call.host.environ
      directory := call.host.directoryPath
      input := [] }

end Asked

/-- From one host to another by these calls in order, and by records in the log. -/
inductive Trail (programs : Programs) (config : Config) (start : Host) : List Asked → Host → Prop
  | start : Trail programs config start [] start
  | said {calls : List Asked} {host : Host} (trail : Trail programs config start calls host)
      (level : Log.Level) (message : Bytes) :
      Trail programs config start calls ((Log.log level message).run host).2
  | asked {calls : List Asked} {host : Host} (trail : Trail programs config start calls host)
      (namespaceName : Bytes) :
      Trail programs config start (calls ++ [⟨namespaceName, host⟩])
        ((invoke programs (config.listingWords namespaceName) config.timeout).run host).2

/-- A search launches nothing but what its calls do, each in its turn. -/
theorem Trail.launches_eq {programs : Programs} {config : Config} {start after : Host}
    {calls : List Asked} (trail : Trail programs config start calls after) :
    after.launches = (calls.filterMap (Asked.launch? config)).reverse ++ start.launches := by
  induction trail with
  | start => rfl
  | said _ level message ih => exact (keeps_launches_log level message _).trans ih
  | @asked calls host _ namespaceName ih =>
      have launched : ((invoke programs (config.listingWords namespaceName) config.timeout).run
          host).2.launches =
            (Asked.launch? config ⟨namespaceName, host⟩).toList ++ host.launches := by
        have found : (config.listingWords namespaceName).headD [] = config.executable := rfl
        unfold invoke Asked.launch?
        simp only [found, StateT.run_bind, StateT.run_get, pure_bind]
        cases host.findProgram (runtimePath host) config.executable <;> rfl
      rw [launched, ih, List.filterMap_append, List.reverse_append, List.append_assoc]
      cases spawned : Asked.launch? config ⟨namespaceName, host⟩ with
      | none => simp [spawned]
      | some launch => simp [spawned]

/-- What comes of a search that plans to ask for these namespaces in order: all calls were
made and missed, or the last one made is the first that finds the container. -/
inductive Search (library : Json.Library) (programs : Programs) (config : Config) (name : Bytes)
    (planned : List Bytes) :
    List Asked → Option Located → Prop
  | missed {calls : List Asked} (asked : calls.map Asked.namespaceName = planned)
      (vain : ∀ call ∈ calls, call.Misses library programs config name) :
      Search library programs config name planned calls none
  | found {calls : List Asked} {last : Asked} {left : List Bytes} {identifier : Bytes}
      (asked : calls.map Asked.namespaceName ++ last.namespaceName :: left = planned)
      (vain : ∀ call ∈ calls, call.Misses library programs config name)
      (finds : last.Finds library programs config name identifier) :
      Search library programs config name planned (calls ++ [last])
        (some ⟨identifier, last.namespaceName⟩)

section

variable {programs : Programs} {config : Config} {name : Bytes} {planned : List Bytes}
variable {calls : List Asked}

theorem Search.nothing : Search library programs config name [] [] none :=
  .missed rfl fun _ member => by cases member

/-- A search goes on after one that has missed. -/
theorem Search.again {more : List Bytes} {later : List Asked} {result : Option Located}
    (first : Search library programs config name planned calls none)
    (second : Search library programs config name more later result) :
    Search library programs config name (planned ++ more) (calls ++ later) result := by
  cases first with
  | missed asked vain =>
      have both : ∀ {further : List Asked},
          (∀ call ∈ further, call.Misses library programs config name) →
          ∀ call ∈ calls ++ further, call.Misses library programs config name := by
        intro further misses call member
        rcases List.mem_append.1 member with earlier | later
        · exact vain call earlier
        · exact misses call later
      cases second with
      | missed askedLater vainLater =>
          exact .missed (by rw [List.map_append, asked, askedLater]) (both vainLater)
      | @found further last left _ askedLater vainLater finds =>
          have plan : (calls ++ further).map Asked.namespaceName ++ last.namespaceName :: left =
              planned ++ more := by
            rw [List.map_append, asked, List.append_assoc, askedLater]
          rw [← List.append_assoc]
          exact .found plan (both vainLater) finds

/-- A search that has found the container leaves the rest of its plan. -/
theorem Search.stop {located : Located}
    (found : Search library programs config name planned calls (some located)) (more : List Bytes) :
    Search library programs config name (planned ++ more) calls (some located) := by
  cases found with
  | @found calls last left _ asked vain finds =>
      have plan : calls.map Asked.namespaceName ++ last.namespaceName :: (left ++ more) =
          planned ++ more := by
        rw [← asked, List.append_assoc, List.cons_append]
      exact .found plan vain finds

end

/-! ## The stages of a search -/

section

-- which container the configuration names, and the state of the client, make no difference
variable (programs : Programs) (config : Config) (identifier : Bytes) (state : State)
variable {name : Bytes} {start host : Host} {calls : List Asked}

/-- To ask for a listing is one call, and a record if the runtime cannot be invoked. -/
theorem Client.listing?_ends (namespaceName : Bytes)
    (trail : Trail programs config start calls host) :
    Ensures (Client.listing? programs ⟨{ config with identifier }, state⟩ namespaceName) host
      fun answer after =>
        (∀ listing, answer = some listing ↔
          Asked.Printed programs config ⟨namespaceName, host⟩ listing) ∧
        Trail programs config start (calls ++ [⟨namespaceName, host⟩]) after := by
  have called : Ensures (invoke programs (config.listingWords namespaceName) config.timeout) host
      fun answer after => Asked.answer programs config ⟨namespaceName, host⟩ = answer ∧
        Trail programs config start (calls ++ [⟨namespaceName, host⟩]) after :=
    ⟨rfl, trail.asked namespaceName⟩
  refine Ensures.bind called ?_
  rintro answer after ⟨answered, further⟩
  simp only [Asked.Printed, answered]
  cases answer with
  | error reason => exact ⟨by simp [Log.warn], further.said .warn _⟩
  | ok run =>
      dsimp only
      cases ended : run.ending with
      | outlived => exact Ensures.pure ⟨by simp [ended], further⟩
      | reaped status =>
          refine Ensures.pure ⟨fun listing => ?_, further⟩
          by_cases success : exitCode status = 0 <;> simp [ended, success]

/-- One round. -/
theorem Client.locate?_ends (namespaces : List Bytes)
    (trail : Trail programs config start calls host) :
    Ensures (Client.locate? library programs ⟨{ config with identifier }, state⟩ name namespaces) host
      fun result after => ∃ more, Search library programs config name namespaces more result ∧
        Trail programs config start (calls ++ more) after := by
  induction namespaces generalizing host calls with
  | nil =>
      refine Ensures.pure ⟨[], .nothing, ?_⟩
      rwa [List.append_nil]
  | cons namespaceName rest ih =>
      refine Ensures.bind (listing?_ends programs config identifier state namespaceName trail) ?_
      rintro answer after ⟨printed, further⟩
      have finds_iff : ∀ identifier, answer.bind (identifierIn? library name) = some identifier ↔
          Asked.Finds library programs config ⟨namespaceName, host⟩ name identifier := by
        intro identifier
        simp only [Option.bind_eq_some_iff, identifierIn?_eq_some_iff, printed, Asked.Finds]
      cases looked : answer.bind (identifierIn? library name) with
      | some identifier =>
          have found : Search library programs config name (namespaceName :: rest)
              ([] ++ [⟨namespaceName, host⟩]) (some ⟨identifier, namespaceName⟩) :=
            .found rfl (fun _ member => by cases member) ((finds_iff identifier).1 looked)
          exact Ensures.pure ⟨_, found, further⟩
      | none =>
          have missed : Search library programs config name [namespaceName]
              [⟨namespaceName, host⟩] none := by
            refine .missed rfl fun call member identifier finds => ?_
            rw [List.mem_singleton.1 member] at finds
            rw [(finds_iff identifier).2 finds] at looked
            cases looked
          obtain ⟨more, search, whole⟩ := ih further
          exact ⟨_, missed.again search, by rwa [← List.append_assoc]⟩

/-- One round, and whether it was in vain. -/
theorem Client.find_ends (namespaces : List Bytes)
    (trail : Trail programs config start calls host) :
    Ensures (Client.find library programs ⟨{ config with identifier }, state⟩ namespaces name) host
      fun answer after => ∃ more, Search library programs config name namespaces more answer.toOption ∧
        Trail programs config start (calls ++ more) after := by
  refine Ensures.bind (locate?_ends programs config identifier state namespaces trail) ?_
  rintro result after ⟨more, search, further⟩
  cases result <;> exact ⟨more, search, further⟩

/-- The client that a configuration and what a search has found make, if it has found
anything. -/
def Config.boundTo (config : Config) : Option Located → Except ContainerError Client
  | some ⟨identifier, namespaceName⟩ => .ok ⟨{ config with identifier, namespaceName }, .bound⟩
  | none => .error .notFound

/-- **Several rounds** are a search over all their namespaces in a row. -/
theorem Client.findAgain_ends (namespaces : List Bytes) (total left : Nat)
    (trail : Trail programs config start calls host) :
    Ensures (Client.findAgain library programs ⟨{ config with identifier }, state⟩ namespaces name total
        left) host
      fun answer after => ∃ more result, answer = config.boundTo result ∧
        Search library programs config name (List.replicate left namespaces).flatten more result ∧
        Trail programs config start (calls ++ more) after := by
  induction left generalizing host calls with
  | zero =>
      refine Ensures.pure ⟨[], none, rfl, .nothing, ?_⟩
      rwa [List.append_nil]
  | succ left ih =>
      rw [List.replicate_succ, List.flatten_cons]
      refine Ensures.bind (find_ends programs config identifier state namespaces trail) ?_
      rintro answer after ⟨more, search, further⟩
      cases answer with
      | ok located =>
          exact ⟨more, some located, rfl, search.stop _, further.said .info _⟩
      | error cause =>
          obtain ⟨later, result, answered, next, whole⟩ := ih (further.said .warn _)
          exact ⟨more ++ later, result, answered, search.again next, by rwa [← List.append_assoc]⟩

end

/-! ## A whole search -/

/-- What comes of looking for a container.  Outside a group of containers, or without
namespaces, the host is as before.  Otherwise the runtime was asked for the namespaces in
order, round after round: the client is bound to what the first call has found that found
anything, or every call of all the rounds was made in vain. -/
inductive Loaded (library : Json.Library) (programs : Programs) (config : Config)
    (namespaces : List Bytes) (name : Bytes) (host : Host) : Except ContainerError Client → Host → Prop
  | podUnknown (unset : host.getVariable (ascii "POD_NAME") = [] ∨
        host.getVariable (ascii "POD_NAMESPACE") = []) :
      Loaded library programs config namespaces name host (.error .podUnknown) host
  | namespacesMissing (nowhere : namespaces = []) :
      Loaded library programs config namespaces name host (.error .namespacesMissing) host
  | found {pod podNamespace : Bytes} {calls : List Asked} {last : Asked} {left : List Bytes}
      {identifier : Bytes} {after : Host}
      (isPod : host.getVariable (ascii "POD_NAME") = pod ∧ pod ≠ [])
      (inNamespace : host.getVariable (ascii "POD_NAMESPACE") = podNamespace ∧ podNamespace ≠ [])
      (somewhere : namespaces ≠ [])
      (trail : Trail programs config host (calls ++ [last]) after)
      (asked : calls.map Asked.namespaceName ++ last.namespaceName :: left =
        (List.replicate config.attempts namespaces).flatten)
      (vain : ∀ call ∈ calls, call.Misses library programs config
        (ascii "k8s://" ++ podNamespace ++ ascii "/" ++ pod ++ ascii "/" ++ name))
      (finds : last.Finds library programs config
        (ascii "k8s://" ++ podNamespace ++ ascii "/" ++ pod ++ ascii "/" ++ name) identifier) :
      Loaded library programs config namespaces name host
        (.ok ⟨{ config with identifier, namespaceName := last.namespaceName }, .bound⟩) after
  | notFound {pod podNamespace : Bytes} {calls : List Asked} {after : Host}
      (isPod : host.getVariable (ascii "POD_NAME") = pod ∧ pod ≠ [])
      (inNamespace : host.getVariable (ascii "POD_NAMESPACE") = podNamespace ∧ podNamespace ≠ [])
      (somewhere : namespaces ≠ [])
      (trail : Trail programs config host calls after)
      (asked : calls.map Asked.namespaceName =
        (List.replicate config.attempts namespaces).flatten)
      (count : (calls.length : Int) = max 1 config.discoveryAttempts * namespaces.length)
      (vain : ∀ call ∈ calls, call.Misses library programs config
        (ascii "k8s://" ++ podNamespace ++ ascii "/" ++ pod ++ ascii "/" ++ name)) :
      Loaded library programs config namespaces name host (.error .notFound) after

theorem discoveryName_eq (host : Host) (name : Bytes) :
    discoveryName host name =
      if host.getVariable (ascii "POD_NAME") = [] ∨
          host.getVariable (ascii "POD_NAMESPACE") = [] then .error .podUnknown
      else .ok (ascii "k8s://" ++ host.getVariable (ascii "POD_NAMESPACE") ++ ascii "/" ++
        host.getVariable (ascii "POD_NAME") ++ ascii "/" ++ name) := by
  have between : ascii "/" = [slash] := rfl
  simp only [discoveryName, Bool.or_eq_true, List.isEmpty_iff, between, List.append_assoc,
    List.cons_append, List.nil_append]

/-- **A container is looked for in the namespaces in order, round after round, up to the
first call that finds it**, whatever reads the lines. -/
theorem load_loaded (library : Json.Library) (programs : Programs) (config : Config)
    (namespaces : List Bytes) (name : Bytes) (host : Host) :
    Ensures (load library programs config namespaces name) host
      (Loaded library programs config namespaces name host) := by
  refine Ensures.get_bind ?_
  rw [discoveryName_eq]
  by_cases unset : host.getVariable (ascii "POD_NAME") = [] ∨
      host.getVariable (ascii "POD_NAMESPACE") = []
  · rw [if_pos unset]
    exact Ensures.pure (.podUnknown unset)
  · rw [if_neg unset]
    rw [not_or] at unset
    dsimp only
    by_cases nowhere : namespaces = []
    · rw [if_pos (List.isEmpty_iff.2 nowhere)]
      exact Ensures.pure (.namespacesMissing nowhere)
    · rw [if_neg (by simpa using nowhere)]
      have isPod := And.intro (rfl : host.getVariable (ascii "POD_NAME") = _) unset.1
      have inNamespace := And.intro (rfl : host.getVariable (ascii "POD_NAMESPACE") = _) unset.2
      have begun : Trail programs config host [] host := .start
      refine (Client.findAgain_ends programs config [] .unbound namespaces config.attempts
        config.attempts begun).mono ?_
      rintro _ after ⟨calls, result, rfl, search, trail⟩
      cases search with
      | missed asked vain =>
          have count : (calls.length : Int) =
              max 1 config.discoveryAttempts * namespaces.length := by
            have lengths := congrArg List.length asked
            rw [List.length_map, List.length_flatten, List.map_replicate, List.sum_replicate_nat]
              at lengths
            rw [lengths, Int.natCast_mul, Config.attempts, Int.toNat_of_nonneg (by omega)]
          exact .notFound isPod inNamespace nowhere trail asked count vain
      | found asked vain finds => exact .found isPod inNamespace nowhere trail asked vain finds

end Assay.Container
