/-
# Assay.Proofs.Ownership -- one holder for a client, one release for its container

Whatever is done with holders, in whatever order, a client is held in one place at
most, and the launches that release containers are one for each client that was
released, in the order of the releases.  A client nobody holds any longer was
released; one that is still held was released only if its holder was asked to.

`Accounted` is the invariant.  It speaks of the clients in the table, of who holds
what, of one client that is on its way from one holder to another (`spare`), and of
`order`, the places of the clients released so far.  There is one lemma for each
thing that happens on the way: `take` a client from its holder, `release` what a
holder holds, `place` the spare client, `add` a client to the table.  A step is made
of these (`step_accounted`) and a run of steps (`run_accounted`).
-/
import Assay.Container.Holdings
import Assay.Proofs.Acts
import Mathlib.Data.List.Induction
import Mathlib.Data.List.Nodup
import Mathlib.Data.List.Perm.Subperm

namespace Assay.Container

set_option autoImplicit false

open Bytes

/-- The launch by which a host releases the container of a configuration. -/
def Config.releaseLaunch (host : Host) (config : Config) : Launch where
  program := Client.shellProgram
  arguments := [ascii "-c", config.releaseLine]
  environ := host.environ
  directory := host.directoryPath
  input := []

/-- The configuration of the client that is taken on, if one is. -/
def Handover.taken : Handover → List Config
  | .acquire _ client => [client.config]
  | _ => []

namespace Client

/-- What has been launched, and what further launches are made from. -/
def launching (host : Host) : List Launch × List Bytes × Bytes :=
  (host.launches, host.environ, host.directory)

variable (programs : Programs) {client : Client} (host : Host)

theorem release_idle (idle : client.state = .released ∨ client.config.identifier = []) :
    (client.release programs).run host = (client, host) := by
  unfold release
  rw [if_pos idle]
  rfl

/-- A release that is due is launched, whatever comes of it. -/
theorem release_issues (due : client.state ≠ .released) (named : client.config.identifier ≠ []) :
    Ensures (client.release programs) host fun released after =>
      released = { client with state := .released } ∧
        launching after =
          (client.config.releaseLaunch host :: host.launches, host.environ, host.directory) := by
  have notIdle : ¬ (client.state = .released ∨ client.config.identifier = []) := by
    simp [due, named]
  have logged : ∀ level message, Keeps launching (Log.log level message) :=
    fun level message => Log.keeps_log (fun _ _ _ _ => rfl) level message
  unfold release
  rw [if_neg notIdle]
  refine Ensures.get_bind ?_
  have launch_issues : Ensures (launch programs (client.config.releaseLaunch host) none) host
      fun _ after => launching after =
        (client.config.releaseLaunch host :: host.launches, host.environ, host.directory) := rfl
  refine Ensures.bind launch_issues ?_
  intro answer launched traced
  cases answer with
  | ok run => exact ⟨rfl, (logged _ _ launched).trans traced⟩
  | error reason => exact ⟨rfl, (logged _ _ launched).trans traced⟩

end Client

namespace Holdings

/-! ## Who holds what -/

@[simp]
theorem held?_hold (holdings : Holdings) (holder other : Bytes) (place : Option Nat) :
    (holdings.hold holder place).held? other =
      if holder = other then place else holdings.held? other := by
  unfold held? hold
  rw [KeyMap.get?_insert]
  split <;> rfl

theorem held?_of_holders {holdings other : Holdings} (same : other.holders = holdings.holders) :
    other.held? = holdings.held? := by
  funext holder
  rw [held?, held?, same]

/-- To hold what one holds already is no change. -/
theorem held?_hold_self (holdings : Holdings) (holder : Bytes) :
    (holdings.hold holder (holdings.held? holder)).held? = holdings.held? := by
  funext other
  rw [held?_hold]
  split
  · rename_i isHolder
    rw [isHolder]
  · rfl

theorem held?_erase (holdings : Holdings) (holder other : Bytes) :
    held? { holdings with holders := holdings.holders.erase holder } other =
      if holder = other then none else holdings.held? other := by
  unfold held?
  rw [KeyMap.get?_erase]
  split <;> rfl

/-- The client at a place is held, or on its way to a holder. -/
def Owned (held : Bytes → Option Nat) (spare : Option Nat) (place : Nat) : Prop :=
  spare = some place ∨ ∃ holder, held holder = some place

/-- The launch that releases the container of the configuration at a place. -/
def launchAt (start : Host) (configs : List Config) (place : Nat) : Option Launch :=
  configs[place]?.map (Config.releaseLaunch start)

/-- How a table of clients, their holders and a host hang together when the run began
in the host `start`, clients of these configurations were taken on, those in `asked`
were released on request, and those in `order` were released at all. -/
structure Accounted (start : Host) (configs : List Config) (clients : List Client)
    (held : Bytes → Option Nat) (spare : Option Nat) (asked : Nat → Prop) (order : List Nat)
    (host : Host) : Prop where
  /-- No client leaves the table. -/
  table : clients.map (·.config) = configs
  ownedInTable : ∀ place, Owned held spare place → place < clients.length
  askedInTable : ∀ place, asked place → place < clients.length
  orderInTable : ∀ place ∈ order, place < clients.length
  /-- No two holders hold one client. -/
  alone : ∀ one other place, held one = some place → held other = some place → one = other
  /-- No holder holds the client that is on its way. -/
  spareAlone : ∀ holder place, held holder = some place → spare ≠ some place
  /-- A client was released once it was given up or its release was asked for. -/
  settled : ∀ place, place < clients.length →
    (place ∈ order ↔ ¬ Owned held spare place ∨ asked place)
  state : ∀ place client, clients[place]? = some client →
    (client.state = .released ↔ place ∈ order)
  named : ∀ config ∈ configs, config.identifier ≠ []
  once : order.Nodup
  /-- Each release was one launch, and there were no other launches. -/
  issued : host.launches = (order.filterMap (launchAt start configs)).reverse ++ start.launches
  environ : host.environ = start.environ
  directory : host.directory = start.directory

namespace Accounted

variable {start host : Host} {configs : List Config} {clients : List Client}
  {held held' : Bytes → Option Nat} {spare : Option Nat} {asked : Nat → Prop} {order : List Nat}

theorem empty (start : Host) :
    Accounted start [] [] (fun _ => none) none (fun _ => False) [] start where
  table := rfl
  ownedInTable place owned := by rcases owned with h | ⟨holder, h⟩ <;> cases h
  askedInTable place h := h.elim
  orderInTable place member := by cases member
  alone one other place h := by cases h
  spareAlone holder place h := by cases h
  settled place less := by cases less
  state place client found := by simp at found
  named config member := by cases member
  once := List.nodup_nil
  issued := rfl
  environ := rfl
  directory := rfl

theorem configs_length (inv : Accounted start configs clients held spare asked order host) :
    configs.length = clients.length := by
  rw [← inv.table, List.length_map]

/-- A client is taken from its holder: now it is on its way. -/
theorem take (inv : Accounted start configs clients held none asked order host) {source : Bytes}
    (shown : ∀ holder, held' holder = if source = holder then none else held holder) :
    Accounted start configs clients held' (held source) asked order host := by
  have kept : ∀ holder place, held' holder = some place →
      source ≠ holder ∧ held holder = some place := by
    intro holder place holds
    rw [shown] at holds
    split at holds
    · cases holds
    · exact ⟨‹_›, holds⟩
  have same : ∀ place, Owned held' (held source) place ↔ Owned held none place := by
    intro place
    constructor
    · rintro (fromSource | ⟨holder, holds⟩)
      · exact Or.inr ⟨source, fromSource⟩
      · exact Or.inr ⟨holder, (kept holder place holds).2⟩
    · rintro (none_ | ⟨holder, holds⟩)
      · cases none_
      · by_cases isSource : source = holder
        · exact Or.inl (isSource ▸ holds)
        · exact Or.inr ⟨holder, by rw [shown, if_neg isSource, holds]⟩
  refine { inv with ownedInTable := ?_, alone := ?_, spareAlone := ?_, settled := ?_ }
  · intro place owned
    exact inv.ownedInTable place ((same place).1 owned)
  · intro one other place h h'
    exact inv.alone one other place (kept one place h).2 (kept other place h').2
  · intro holder place holds fromSource
    obtain ⟨different, holds⟩ := kept holder place holds
    exact different (inv.alone source holder place fromSource holds)
  · intro place less
    rw [same]
    exact inv.settled place less

/-- The client that was on its way is placed with a holder.  What that holder held
before was released, and is given up now. -/
theorem place (target : Bytes)
    (inv : Accounted start configs clients held spare
      (fun place => asked place ∨ held target = some place) order host)
    (shown : ∀ holder, held' holder = if target = holder then spare else held holder) :
    Accounted start configs clients held' none asked order host := by
  have atTarget : held' target = spare := by rw [shown, if_pos rfl]
  have elsewhere : ∀ holder, target ≠ holder → held' holder = held holder := by
    intro holder different
    rw [shown, if_neg different]
  have owned_iff : ∀ place, Owned held' none place ↔
      Owned held spare place ∧ held target ≠ some place := by
    intro place
    constructor
    · rintro (none_ | ⟨holder, holds⟩)
      · cases none_
      · by_cases isTarget : target = holder
        · subst isTarget
          rw [atTarget] at holds
          exact ⟨Or.inl holds, fun had => inv.spareAlone target place had holds⟩
        · rw [elsewhere holder isTarget] at holds
          exact ⟨Or.inr ⟨holder, holds⟩, fun had => isTarget (inv.alone _ _ place had holds)⟩
    · rintro ⟨onItsWay | ⟨holder, holds⟩, notHad⟩
      · exact Or.inr ⟨target, atTarget.trans onItsWay⟩
      · have different : target ≠ holder := fun isTarget => notHad (isTarget ▸ holds)
        exact Or.inr ⟨holder, (elsewhere holder different).trans holds⟩
  refine { inv with
    ownedInTable := ?_, askedInTable := ?_, alone := ?_, spareAlone := ?_, settled := ?_ }
  · intro place owned
    exact inv.ownedInTable place ((owned_iff place).1 owned).1
  · intro place wasAsked
    exact inv.askedInTable place (Or.inl wasAsked)
  · intro one other place h h'
    by_cases isOne : target = one <;> by_cases isOther : target = other
    · exact isOne.symm.trans isOther
    · subst isOne
      rw [atTarget] at h
      rw [elsewhere other isOther] at h'
      exact absurd h (inv.spareAlone other place h')
    · subst isOther
      rw [atTarget] at h'
      rw [elsewhere one isOne] at h
      exact absurd h' (inv.spareAlone one place h)
    · rw [elsewhere one isOne] at h
      rw [elsewhere other isOther] at h'
      exact inv.alone one other place h h'
  · intro holder place _ none_
    cases none_
  · intro place less
    rw [inv.settled place less, owned_iff]
    by_cases had : held target = some place
    · simp [had]
    · simp [had]

/-- A client comes into the table and is on its way to its first holder. -/
theorem add (inv : Accounted start configs clients held none asked order host) {client : Client}
    (due : client.state ≠ .released) (named : client.config.identifier ≠ []) :
    Accounted start (configs ++ [client.config]) (clients ++ [client]) held (some clients.length)
      asked order host := by
  have fresh : clients.length ∉ order := fun member =>
    absurd (inv.orderInTable _ member) (Nat.lt_irrefl _)
  have longer : (clients ++ [client]).length = clients.length + 1 := by simp
  refine {
    table := ?_, ownedInTable := ?_, askedInTable := ?_, orderInTable := ?_, alone := inv.alone,
    spareAlone := ?_, settled := ?_, state := ?_, named := ?_, once := inv.once, issued := ?_,
    environ := inv.environ, directory := inv.directory }
  · rw [List.map_append, inv.table]
    rfl
  · rintro place (isNew | ⟨holder, holds⟩)
    · cases isNew
      omega
    · have := inv.ownedInTable place (Or.inr ⟨holder, holds⟩)
      omega
  · intro place wasAsked
    have := inv.askedInTable place wasAsked
    omega
  · intro place member
    have := inv.orderInTable place member
    omega
  · intro holder place holds isNew
    cases isNew
    exact absurd (inv.ownedInTable _ (Or.inr ⟨holder, holds⟩)) (Nat.lt_irrefl _)
  · intro place less
    by_cases isNew : place = clients.length
    · subst isNew
      have notAsked : ¬ asked clients.length := fun wasAsked =>
        absurd (inv.askedInTable _ wasAsked) (Nat.lt_irrefl _)
      simp [fresh, notAsked, Owned]
    · rw [inv.settled place (by omega)]
      simp [Owned, Ne.symm isNew]
  · intro place other found
    rcases Nat.lt_trichotomy place clients.length with less | same | greater
    · rw [List.getElem?_append_left less] at found
      exact inv.state place other found
    · subst same
      rw [List.getElem?_concat_length] at found
      cases found
      simp [due, fresh]
    · rw [List.getElem?_eq_none (by omega)] at found
      cases found
  · intro other member
    rcases List.mem_append.1 member with old | new
    · exact inv.named other old
    · rw [List.mem_singleton.1 new]
      exact named
  · have same : order.filterMap (launchAt start (configs ++ [client.config])) =
        order.filterMap (launchAt start configs) := by
      refine List.filterMap_congr fun place member => ?_
      have inTable : place < configs.length := by
        rw [inv.configs_length]
        exact inv.orderInTable place member
      unfold launchAt
      rw [List.getElem?_append_left inTable]
    rw [same]
    exact inv.issued

/-- The release of a client that was released before changes nothing. -/
theorem asking (inv : Accounted start configs clients held spare asked order host)
    (request : Option Nat) (done : ∀ place, request = some place → place ∈ order) :
    Accounted start configs clients held spare (fun place => asked place ∨ request = some place)
      order host := by
  refine { inv with askedInTable := ?_, settled := ?_ }
  · rintro place (wasAsked | requested)
    · exact inv.askedInTable place wasAsked
    · exact inv.orderInTable place (done place requested)
  · intro place less
    by_cases requested : request = some place
    · simp [requested, done place requested]
    · simp [requested, inv.settled place less]

/-- The client at a place is released by a launch of its own. -/
theorem release (inv : Accounted start configs clients held spare asked order host) {place : Nat}
    {client : Client} (found : clients[place]? = some client) (due : place ∉ order) {after : Host}
    (launched : Client.launching after =
      (client.config.releaseLaunch host :: host.launches, host.environ, host.directory)) :
    Accounted start configs (clients.set place { client with state := .released }) held spare
      (fun other => asked other ∨ some place = some other) (order ++ [place]) after := by
  have inTable : place < clients.length := (List.getElem?_eq_some_iff.1 found).1
  have sameLaunch : client.config.releaseLaunch host = client.config.releaseLaunch start := by
    simp [Config.releaseLaunch, Host.directoryPath, inv.environ, inv.directory]
  have atPlace : configs[place]? = some client.config := by
    rw [← inv.table, List.getElem?_map, found]
    rfl
  simp only [Client.launching, Prod.mk.injEq] at launched
  obtain ⟨launches, environ, directory⟩ := launched
  refine {
    table := ?_, ownedInTable := ?_, askedInTable := ?_, orderInTable := ?_, alone := inv.alone,
    spareAlone := inv.spareAlone, settled := ?_, state := ?_, named := inv.named, once := ?_,
    issued := ?_, environ := environ.trans inv.environ, directory := directory.trans inv.directory }
  · obtain ⟨inConfigs, atPlace⟩ := List.getElem?_eq_some_iff.1 atPlace
    rw [List.map_set, inv.table]
    change configs.set place client.config = configs
    rw [← atPlace]
    exact List.set_getElem_self inConfigs
  · intro other owned
    rw [List.length_set]
    exact inv.ownedInTable other owned
  · rintro other (wasAsked | isPlace)
    · rw [List.length_set]
      exact inv.askedInTable other wasAsked
    · cases isPlace
      rwa [List.length_set]
  · intro other member
    rw [List.length_set]
    rcases List.mem_append.1 member with old | new
    · exact inv.orderInTable other old
    · rwa [List.mem_singleton.1 new]
  · intro other less
    rw [List.length_set] at less
    by_cases here : place = other
    · simp [here]
    · rw [List.mem_append, inv.settled other less]
      simp [here, Ne.symm here]
  · intro other changed at_
    by_cases here : place = other
    · subst here
      rw [List.getElem?_set_self inTable] at at_
      cases at_
      simp
    · rw [List.getElem?_set_ne here] at at_
      rw [inv.state other changed at_]
      simp [Ne.symm here]
  · refine List.nodup_append.2 ⟨inv.once, by simp, ?_⟩
    intro one member other isPlace same
    rw [List.mem_singleton.1 isPlace] at same
    exact due (same ▸ member)
  · have here : launchAt start configs place = some (client.config.releaseLaunch start) := by
      unfold launchAt
      rw [atPlace]
      rfl
    rw [launches, inv.issued, List.filterMap_append, sameLaunch]
    simp [here]

end Accounted

/-! ## One thing done with holders -/

variable {start host : Host} {configs : List Config} {holdings : Holdings}
  {spare : Option Nat} {asked : Nat → Prop} {order : List Nat} (programs : Programs)

/-- Releasing what a holder holds settles its release, if it was not settled. -/
theorem releaseHeld_accounted
    (inv : Accounted start configs holdings.clients holdings.held? spare asked order host)
    (holder : Bytes) :
    Ensures (holdings.releaseHeld programs holder) host fun released after =>
      released.holders = holdings.holders ∧ ∃ order,
        Accounted start configs released.clients holdings.held? spare
          (fun place => asked place ∨ holdings.held? holder = some place) order after := by
  unfold releaseHeld
  cases holds : holdings.held? holder with
  | none =>
      refine ⟨rfl, order, ?_⟩
      exact inv.asking none fun place none_ => by cases none_
  | some place =>
      have inTable := inv.ownedInTable place (Or.inr ⟨holder, holds⟩)
      have found : holdings.clients[place]? = some holdings.clients[place] :=
        List.getElem?_eq_getElem inTable
      have unchanged : holdings.clients.set place holdings.clients[place] = holdings.clients :=
        List.set_getElem_self inTable
      dsimp only
      rw [found]
      generalize holdings.clients[place] = client at found unchanged
      by_cases member : place ∈ order
      · have idle := (inv.state place client found).2 member
        have noRelease : Ensures (client.release programs) host fun released after =>
            (released, after) = (client, host) := Client.release_idle programs host (Or.inl idle)
        refine Ensures.bind noRelease ?_
        rintro _ _ ⟨rfl, rfl⟩
        refine ⟨rfl, order, ?_⟩
        rw [unchanged]
        refine inv.asking (some place) fun other requested => ?_
        cases requested
        exact member
      · have due : client.state ≠ .released := fun released =>
          member ((inv.state place client found).1 released)
        have named : client.config.identifier ≠ [] := by
          refine inv.named client.config ?_
          rw [← inv.table]
          exact List.mem_map_of_mem (List.mem_of_getElem? found)
        refine Ensures.bind (Client.release_issues programs host due named) ?_
        rintro _ after ⟨rfl, launched⟩
        exact ⟨rfl, order ++ [place], inv.release found member launched⟩

/-- A holder that takes on the client on its way gives up what it held before. -/
theorem replace_accounted (holdings : Holdings)
    (inv : Accounted start configs holdings.clients holdings.held? spare asked order host)
    (holder : Bytes) :
    Ensures (holdings.replace programs holder spare) host fun replaced after =>
      ∃ order, Accounted start configs replaced.clients replaced.held? none asked order after := by
  refine Ensures.bind (releaseHeld_accounted programs inv holder) ?_
  rintro released after ⟨sameHolders, order, inv⟩
  refine Ensures.pure ⟨order, inv.place holder fun other => ?_⟩
  rw [held?_hold, held?_of_holders sameHolders]

/-- Whether it is the release of the client at a place that is asked for. -/
def Asks (holdings : Holdings) : Handover → Nat → Prop
  | .release holder, place => holdings.held? holder = some place
  | _, _ => False

/-- A client that can be taken on: it has a container, and has not let go of it. -/
def Acquirable (client : Client) : Prop :=
  client.state.isReady = true ∧ client.config.identifier ≠ []

/-- **One step keeps the account**, whatever is done. -/
theorem step_accounted
    (inv : Accounted start configs holdings.clients holdings.held? none asked order host)
    {handover : Handover}
    (fit : ∀ holder client, handover = .acquire holder client → Acquirable client) :
    Ensures (holdings.step programs handover) host fun next after =>
      ∃ order, Accounted start (configs ++ handover.taken) next.clients next.held? none
        (fun place => asked place ∨ holdings.Asks handover place) order after := by
  have noRequest : (fun place => asked place ∨ False) = asked := by simp
  cases handover with
  | acquire holder client =>
      obtain ⟨ready, named⟩ := fit holder client rfl
      have due : client.state ≠ .released := by
        intro released
        rw [released] at ready
        cases ready
      simp only [Asks, noRequest]
      exact replace_accounted programs { holdings with clients := holdings.clients ++ [client] }
        (inv.add due named) holder
  | move target source =>
      simp only [Asks, noRequest, Handover.taken, List.append_nil, step]
      by_cases toItself : target = source
      · rw [if_pos toItself]
        refine Ensures.pure ⟨order, ?_⟩
        rw [held?_hold_self]
        exact inv
      · rw [if_neg toItself]
        exact replace_accounted programs (holdings.hold source none)
          (inv.take fun other => held?_hold holdings source other none) target
  | moveThrough target source =>
      simp only [Asks, noRequest, Handover.taken, List.append_nil, step]
      exact replace_accounted programs (holdings.hold source none)
        (inv.take fun other => held?_hold holdings source other none) target
  | release holder =>
      simp only [Handover.taken, List.append_nil]
      refine Ensures.bind (releaseHeld_accounted programs inv holder) ?_
      rintro released after ⟨sameHolders, order, inv⟩
      refine Ensures.pure ⟨order, ?_⟩
      rw [held?_hold_self, held?_of_holders sameHolders]
      exact inv
  | drop holder =>
      simp only [Asks, noRequest, Handover.taken, List.append_nil]
      refine Ensures.bind (releaseHeld_accounted programs inv holder) ?_
      rintro released after ⟨sameHolders, order, inv⟩
      refine Ensures.pure ⟨order, inv.place holder fun other => ?_⟩
      rw [held?_erase, held?_of_holders sameHolders]

/-! ## A run -/

theorem run_append_singleton (handovers : List Handover) (last : Handover) (host : Host) :
    (holdings.run programs (handovers ++ [last])).run host =
      (((holdings.run programs handovers).run host).1.step programs last).run
        ((holdings.run programs handovers).run host).2 := by
  induction handovers generalizing holdings host with
  | nil => rfl
  | cons first rest ih => exact ih _

/-- The release of the client at a place was asked for of the holder that held it then. -/
def Requested (host : Host) (handovers : List Handover) (place : Nat) : Prop :=
  ∃ before holder after, handovers = before ++ .release holder :: after ∧
    ((run programs .empty before).run host).1.held? holder = some place

theorem requested_append_singleton_iff {handovers : List Handover} {last : Handover}
    {host : Host} {place : Nat} :
    Requested programs host (handovers ++ [last]) place ↔
      Requested programs host handovers place ∨
        ((run programs .empty handovers).run host).1.Asks last place := by
  constructor
  · rintro ⟨before, holder, after, split, holds⟩
    rcases List.eq_nil_or_concat after with rfl | ⟨more, final, rfl⟩
    · obtain ⟨rfl, same⟩ := List.append_inj' split rfl
      cases same
      exact Or.inr holds
    · have shorter : handovers ++ [last] = (before ++ .release holder :: more) ++ [final] := by
        simpa using split
      obtain ⟨rfl, -⟩ := List.append_inj' shorter rfl
      exact Or.inl ⟨before, holder, more, rfl, holds⟩
  · rintro (⟨before, holder, after, rfl, holds⟩ | asks)
    · exact ⟨before, holder, after ++ [last], by simp, holds⟩
    · cases last with
      | release holder => exact ⟨handovers, holder, [], rfl, asks⟩
      | _ => exact asks.elim

/-- **A run keeps the account** from the moment nobody holds anything. -/
theorem run_accounted (start : Host) (handovers : List Handover)
    (fit : ∀ holder client, .acquire holder client ∈ handovers → Acquirable client) :
    Ensures (run programs .empty handovers) start fun holdings after =>
      ∃ order, Accounted start (handovers.flatMap Handover.taken) holdings.clients holdings.held?
        none (Requested programs start handovers) order after := by
  induction handovers using List.reverseRecOn with
  | nil =>
      refine ⟨[], ?_⟩
      have nothing : Requested programs start [] = fun _ => False := by
        funext place
        simp [Requested]
      rw [nothing]
      exact Accounted.empty start
  | append_singleton handovers last ih =>
      obtain ⟨order, inv⟩ := ih fun holder client member =>
        fit holder client (List.mem_append_left _ member)
      unfold Ensures
      rw [run_append_singleton, List.flatMap_append, List.flatMap_singleton]
      have requested : Requested programs start (handovers ++ [last]) = fun place =>
          Requested programs start handovers place ∨
            ((run programs .empty handovers).run start).1.Asks last place :=
        funext fun place => propext (requested_append_singleton_iff programs)
      rw [requested]
      refine step_accounted programs inv fun holder client same => ?_
      exact fit holder client (same ▸ List.mem_append_right _ (List.mem_singleton.2 rfl))

/-! ## What becomes of every client -/

theorem filterMap_range_getElem? {α : Type} (items : List α) :
    (List.range items.length).filterMap (items[·]?) = items := by
  induction items with
  | nil => rfl
  | cons item rest ih =>
      rw [List.length_cons, List.range_succ_eq_map, List.filterMap_cons]
      simp [List.filterMap_map, ih]

/-- Items picked at distinct places are no more than the items there are. -/
theorem countP_picked_le {α : Type} {items : List α} {order : List Nat} (once : order.Nodup)
    (inTable : ∀ place ∈ order, place < items.length) (p : α → Bool) :
    (order.filterMap (items[·]?)).countP p ≤ items.countP p := by
  have within : order.Subperm (List.range items.length) :=
    once.subperm fun place member => List.mem_range.2 (inTable place member)
  calc (order.filterMap (items[·]?)).countP p
      ≤ ((List.range items.length).filterMap (items[·]?)).countP p := by
        rw [List.countP_filterMap, List.countP_filterMap]
        exact within.countP_le _
    _ = items.countP p := by rw [filterMap_range_getElem?]

/-- What handovers come to.  A client is known by its place among those that were taken
on; `order` are the places of the clients that were released, in the order of their
releases. -/
structure Settled (programs : Programs) (start : Host) (handovers : List Handover)
    (holdings : Holdings) (after : Host) (order : List Nat) : Prop where
  /-- The clients are those that were taken on, all of them. -/
  table : holdings.clients.map (·.config) = handovers.flatMap Handover.taken
  /-- A client is held by one holder at most. -/
  oneHolder : ∀ one other place,
    holdings.held? one = some place → holdings.held? other = some place → one = other
  /-- The launches since the start are the releases of the clients in `order`. -/
  launches : after.launches =
    (order.filterMap (launchAt start (handovers.flatMap Handover.taken))).reverse ++ start.launches
  /-- The release of a client is issued once at most. -/
  atMostOnce : ∀ place, order.count place ≤ 1
  /-- A container is released no more often than clients were taken on for it: once at
  most when it has one client. -/
  perContainer : ∀ identifier,
    (order.filterMap ((handovers.flatMap Handover.taken)[·]?)).countP (·.identifier == identifier) ≤
      (handovers.flatMap Handover.taken).countP (·.identifier == identifier)
  /-- The release of a client that nobody holds any longer has been issued. -/
  givenUp : ∀ place < holdings.clients.length,
    (∀ holder, holdings.held? holder ≠ some place) → order.count place = 1
  /-- That of a client that is held has not, unless its holder was asked to release it. -/
  kept : ∀ holder place, holdings.held? holder = some place →
    ¬ Requested programs start handovers place → order.count place = 0

/-- **Whatever is done with holders, every client is settled**: it is held once at most,
released once at most, released when it is given up, and not released before unless its
release was asked for. -/
theorem handovers_settled (programs : Programs) (start : Host) (handovers : List Handover)
    (fit : ∀ holder client, .acquire holder client ∈ handovers → Acquirable client) :
    ∃ order, Settled programs start handovers ((run programs .empty handovers).run start).1
      ((run programs .empty handovers).run start).2 order := by
  obtain ⟨order, inv⟩ := run_accounted programs start handovers fit
  refine ⟨order, {
    table := inv.table, oneHolder := inv.alone, launches := inv.issued, atMostOnce := ?_,
    perContainer := ?_, givenUp := ?_, kept := ?_ }⟩
  · exact List.nodup_iff_count_le_one.1 inv.once
  · intro identifier
    refine countP_picked_le inv.once (fun place member => ?_) _
    rw [inv.configs_length]
    exact inv.orderInTable place member
  · intro place less nobody
    have unowned : ¬ Owned ((run programs .empty handovers).run start).1.held? none place := by
      rintro (none_ | ⟨holder, holds⟩)
      · cases none_
      · exact nobody holder holds
    exact List.count_eq_one_of_mem inv.once ((inv.settled place less).2 (Or.inl unowned))
  · intro holder place holds notRequested
    have owned : Owned ((run programs .empty handovers).run start).1.held? none place :=
      Or.inr ⟨holder, holds⟩
    refine List.count_eq_zero.2 fun member => ?_
    rcases (inv.settled place (inv.ownedInTable place owned)).1 member with unowned | requested
    · exact unowned owned
    · exact notRequested requested

/-- A client of a running container, for the witness below. -/
def boundTo (identifier : String) : Client :=
  .new { identifier := ascii identifier }

/-- Programs that end at once. -/
def idlePrograms : Programs :=
  fun host _ _ => (.ok ⟨[], [], .reaped 0, 0⟩, host.files)

/-- Overwriting a holder, moving it to itself, by way of another and away, and letting
holders go that hold something or nothing. -/
def manyHandovers : List Handover :=
  [.acquire [1] (boundTo "a"), .acquire [1] (boundTo "b"), .move [1] [1], .move [2] [1],
    .moveThrough [2] [2], .acquire [1] (boundTo "c"), .release [1], .move [1] [2], .drop [2],
    .drop [1]]

theorem manyHandovers_settled :
    (∀ holder client, .acquire holder client ∈ manyHandovers → Acquirable client) ∧
      ∃ order, Settled idlePrograms .bare manyHandovers
        ((run idlePrograms .empty manyHandovers).run .bare).1
        ((run idlePrograms .empty manyHandovers).run .bare).2 order := by
  have fit : ∀ holder client, .acquire holder client ∈ manyHandovers → Acquirable client := by
    intro holder client member
    simp only [manyHandovers, List.mem_cons, Handover.acquire.injEq, reduceCtorEq, List.not_mem_nil,
      or_false, false_or] at member
    rcases member with ⟨-, rfl⟩ | ⟨-, rfl⟩ | ⟨-, rfl⟩ <;> exact ⟨by decide, by decide⟩
  exact ⟨fit, handovers_settled idlePrograms .bare manyHandovers fit⟩

end Holdings

end Assay.Container
