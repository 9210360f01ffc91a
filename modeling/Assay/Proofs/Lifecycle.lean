/-
# Assay.Proofs.Lifecycle -- the life of a client, call after call

A client is unbound or bound when it is made; then it is started, executes commands and
is released, in whatever order its owner calls for.  `Called` says once what one call can
do (`call_ends`), and everything else is read off that.

Two things are asked of a life.  It is orderly (`Orderly`) when a client is started only
while it is unbound, stays released once it is, and no container it has started is
forgotten: each is the one it has, or was released exactly once.  It is sound (`Sound`)
when a client that is ready names its container.  A start asks neither in what state it
finds the client nor whether it was given a name, and so both are matters of the starts
alone: `orderly_iff` and `sound_iff` say of which.
-/
import Assay.Container.Discovery
import Assay.Json.Plain
import Assay.Proofs.Launches

namespace Assay.Container

set_option autoImplicit false

open Bytes

/-! ## Calls -/

/-- What can be called for with a client. -/
inductive Call where
  | start
  | execute (command directory : Bytes) (timeout : Option Int)
  | release

namespace Client

/-- One call.  A start that fails leaves the client as it was. -/
def call (programs : Programs) (client : Client) : Call → Act Client
  | .start => do
      match ← client.start programs with
      | .ok started => return started
      | .error _ => return client
  | .execute command directory timeout => do
      let _ ← client.execute programs command directory timeout
      return client
  | .release => client.release programs

/-- Several calls in order. -/
def calls (programs : Programs) : Client → List Call → Act Client
  | client, [] => return client
  | client, call :: rest => do calls programs (← client.call programs call) rest

/-- How a client comes to be: it is made from a configuration, or a container was looked
for and found. -/
inductive Made (programs : Programs) : Client → Host → Prop
  | new (config : Config) (host : Host) : Made programs (.new config) host
  | found {library : Json.Library} {config : Config} {namespaces : List Bytes} {name : Bytes}
      {before host : Host} {client : Client}
      (loaded : (load library programs config namespaces name).run before = (.ok client, host)) :
      Made programs client host

/-! ## One call -/

/-- The call is a start, and one that succeeds and makes the client `started`. -/
def Begins (programs : Programs) (client : Client) (host : Host) (call : Call)
    (started : Client) : Prop :=
  call = .start ∧ ((client.start programs).run host).1 = .ok started

/-- What a call can do: a start makes the client a started one, a release lets its
container go, and all else leaves it as it is; only the release launches one. -/
inductive Called (programs : Programs) (client : Client) (host : Host) (call : Call)
    (next : Client) (after : Host) : Prop
  | started (begins : Begins programs client host call next)
      (shape : ∃ identifier, next = ⟨client.config.naming identifier, .started⟩)
      (quiet : Quiet host after)
  | stayed (same : next = client)
      (noStart : ∀ started, ¬ Begins programs client host call started)
      (quiet : Quiet host after)
  | released (isRelease : call = .release) (due : client.state ≠ .released)
      (named : client.config.identifier ≠ []) (shape : next = { client with state := .released })
      (issued : after.launches = client.config.releaseLaunch host :: host.launches)

variable (programs : Programs) (client : Client) (host : Host)

theorem start_quiet : Quiet host ((client.start programs).run host).2 := by
  obtain ⟨spawned, launched, arguments, -⟩ := start_launches programs host client
  exact ⟨spawned.toList, launched, fun launch member _ _ =>
    Config.not_releases_of_startWords (arguments launch (Option.mem_toList.1 member))⟩

theorem execute_quiet (command directory : Bytes) (timeout : Option Int) :
    Quiet host ((client.execute programs command directory timeout).run host).2 := by
  obtain ⟨spawned, launched, arguments⟩ :=
    execute_launches programs host client command directory timeout
  exact ⟨spawned.toList, launched, fun launch member _ _ =>
    Config.not_releases_of_commandWords (arguments launch (Option.mem_toList.1 member))⟩

/-- **One call**, and all that it can do. -/
theorem call_ends (call : Call) :
    Ensures (client.call programs call) host (Called programs client host call) := by
  cases call with
  | start =>
      have quiet := start_quiet programs client host
      obtain ⟨-, -, -, shape⟩ := start_launches programs host client
      have begun : Ensures (client.start programs) host fun answer after =>
          (answer, after) = (client.start programs).run host := rfl
      refine Ensures.bind begun ?_
      rintro answer after ended
      rw [← ended] at quiet shape
      cases answer with
      | ok started =>
          exact .started ⟨rfl, (congrArg Prod.fst ended).symm⟩ (shape started rfl) quiet
      | error cause =>
          refine .stayed rfl (fun started begins => ?_) quiet
          have answered := begins.2
          rw [← ended] at answered
          cases answered
  | execute command directory timeout =>
      exact .stayed rfl (fun started begins => by cases begins.1)
        (execute_quiet programs client host command directory timeout)
  | release =>
      by_cases idle : client.state = .released ∨ client.config.identifier = []
      · have same := release_idle programs host idle
        have quiet : Quiet host ((client.release programs).run host).2 := by
          rw [same]
          exact ⟨[], rfl, fun launch member => by cases member⟩
        exact .stayed (congrArg Prod.fst same) (fun started begins => by cases begins.1) quiet
      · rw [not_or] at idle
        obtain ⟨shape, issued⟩ := release_issues programs host idle.1 idle.2
        exact .released rfl idle.1 idle.2 shape (congrArg Prod.fst issued)

/-! ## A run of calls -/

/-- The client and the host that a run of calls leads to. -/
def reached (first : Client) (start : Host) (calls : List Call) : Client × Host :=
  (first.calls programs calls).run start

/-- One of the calls was a start that succeeded, and it took the client from `before` to
`after`. -/
def Started (first : Client) (start : Host) (calls : List Call) (before after : Client) : Prop :=
  ∃ earlier later, calls = earlier ++ .start :: later ∧
    (reached programs first start earlier).1 = before ∧
    ((before.start programs).run (reached programs first start earlier).2).1 = .ok after

variable {programs} {first next : Client} {start after : Host} {calls : List Call} {call : Call}
  {client} {host}

theorem reached_append_singleton :
    reached programs first start (calls ++ [call]) =
      ((reached programs first start calls).1.call programs call).run
        (reached programs first start calls).2 := by
  induction calls generalizing first start with
  | nil => rfl
  | cons earlier rest ih => exact ih

theorem started_append_singleton_iff {before started : Client} :
    Started programs first start (calls ++ [call]) before started ↔
      Started programs first start calls before started ∨
        (reached programs first start calls).1 = before ∧
          Begins programs before (reached programs first start calls).2 call started := by
  constructor
  · rintro ⟨earlier, later, split, found, answered⟩
    rcases List.eq_nil_or_concat later with rfl | ⟨more, final, rfl⟩
    · obtain ⟨rfl, same⟩ := List.append_inj' split rfl
      cases same
      exact Or.inr ⟨found, rfl, answered⟩
    · have shorter : calls ++ [call] = (earlier ++ .start :: more) ++ [final] := by
        simpa using split
      obtain ⟨rfl, -⟩ := List.append_inj' shorter rfl
      exact Or.inl ⟨earlier, more, rfl, found, answered⟩
  · rintro (⟨earlier, later, rfl, found, answered⟩ | ⟨found, rfl, answered⟩)
    · exact ⟨earlier, later ++ [call], by simp, found, answered⟩
    · exact ⟨calls, [], rfl, found, answered⟩

theorem started_now (here : reached programs first start calls = (client, host))
    (begins : Begins programs client host call next) :
    Started programs first start (calls ++ [call]) client next := by
  refine started_append_singleton_iff.2 (Or.inr ⟨?_, ?_⟩) <;> rw [here]
  exact begins

/-- A call that is no start, or one that fails, adds no start that succeeded. -/
theorem started_unchanged (here : reached programs first start calls = (client, host))
    (noStart : ∀ started, ¬ Begins programs client host call started)
    (before started : Client) :
    Started programs first start (calls ++ [call]) before started ↔
      Started programs first start calls before started := by
  rw [started_append_singleton_iff, here]
  refine or_iff_left ?_
  rintro ⟨rfl, begins⟩
  exact noStart started begins

theorem Started.mono {earlier : List Call} (within : earlier <+: calls) {before started : Client}
    (begun : Started programs first start earlier before started) :
    Started programs first start calls before started := by
  obtain ⟨front, back, rfl, found, answered⟩ := begun
  obtain ⟨rest, rfl⟩ := within
  exact ⟨front, back ++ rest, by simp, found, answered⟩

/-! ## Releases of a container -/

/-- How often a container was released since the host was `start`. -/
def releaseCount (config : Config) (container : Bytes) (start host : Host) : Nat :=
  (start.launchedSince host).countP (config.releases container)

theorem releaseCount_quiet (grown : start.launches.length ≤ host.launches.length)
    (quiet : Quiet host after) (config : Config) (container : Bytes) :
    releaseCount config container start after = releaseCount config container start host := by
  obtain ⟨new, launched, noRelease⟩ := quiet
  have none : new.countP (config.releases container) = 0 := by
    refine List.countP_eq_zero.2 fun launch member => ?_
    simp [noRelease launch member]
  rw [releaseCount, Host.launchedSince_append grown launched, List.countP_append, none]
  simp [releaseCount]

theorem releaseCount_release (grown : start.launches.length ≤ host.launches.length)
    (issued : after.launches = client.config.releaseLaunch host :: host.launches)
    (container : Bytes) :
    releaseCount client.config container start after =
      releaseCount client.config container start host +
        if client.config.identifier = container then 1 else 0 := by
  have launched : after.launches = [client.config.releaseLaunch host] ++ host.launches := issued
  have own := client.config.releases_releaseLaunch_iff host container
  rw [releaseCount, Host.launchedSince_append grown launched, List.countP_append]
  simp [releaseCount, List.countP_cons, own, Nat.add_comm]

/-! ## Orderly lives -/

/-- The ways for a call to change the state of a client, in an orderly life. -/
inductive Moves : Call → State → State → Prop
  | stays (call : Call) (state : State) : Moves call state state
  | begins : Moves .start .unbound .started
  | ends {state : State} (ready : state.isReady = true) : Moves .release state .released

/-- The container is the one that the client has started, or was released exactly once. -/
def Kept (config : Config) (start : Host) (container : Bytes) (point : Client × Host) : Prop :=
  (point.1.state = .started ∧ point.1.config.identifier = container) ∨
    releaseCount config container start point.2 = 1

/-- A run of calls in which the state changes in the orderly ways only, and at every point
of which each container is kept that was started before it. -/
structure Orderly (programs : Programs) (first : Client) (start : Host) (calls : List Call) :
    Prop where
  moves : ∀ earlier call, earlier ++ [call] <+: calls →
    Moves call (reached programs first start earlier).1.state
      (reached programs first start (earlier ++ [call])).1.state
  kept : ∀ earlier, earlier <+: calls → ∀ before started,
    Started programs first start earlier before started →
      Kept first.config start started.config.identifier (reached programs first start earlier)

/-- A start in good order: of a client that had no container, or of one that was given the
very container that it had. -/
def Fits (before started : Client) : Prop :=
  before.state = .unbound ∨
    before.state = .started ∧ started.config.identifier = before.config.identifier

/-- What holds of a client after calls among which every start was in good order. -/
structure Tracked (programs : Programs) (first : Client) (start : Host) (calls : List Call)
    (client : Client) (host : Host) : Prop where
  grown : start.launches.length ≤ host.launches.length
  config : client.config = first.config.naming client.config.identifier
  unnamed : client.state = .unbound → client.config.identifier = []
  /-- Whatever was started is the container that the client names, and it has it still or
  has released it. -/
  owned : ∀ before started, Started programs first start calls before started →
    started.config.identifier = client.config.identifier ∧
      (client.state = .started ∨ client.state = .released)
  origin : client.state = .started →
    ∃ before started, Started programs first start calls before started
  /-- No container was released but by a client that is done with it. -/
  count : ∀ container, releaseCount first.config container start host =
    if client.state = .released ∧ client.config.identifier = container then 1 else 0

/-- A client as it is made: it has no container and names none, or it was given one. -/
def Fresh (client : Client) : Prop :=
  client.state = .unbound ∧ client.config.identifier = [] ∨ client.state = .bound

theorem Fresh.state_eq (fresh : Fresh first) : first.state = .unbound ∨ first.state = .bound := by
  rcases fresh with ⟨unbound, -⟩ | bound
  · exact Or.inl unbound
  · exact Or.inr bound

theorem Tracked.begins (fresh : Fresh first) : Tracked programs first start [] first start where
  grown := Nat.le_refl _
  config := rfl
  unnamed unbound := by
    rcases fresh with ⟨-, unnamed⟩ | bound
    · exact unnamed
    · rw [bound] at unbound
      cases unbound
  owned := by
    rintro before started ⟨earlier, later, split, -⟩
    simp at split
  origin isStarted := by
    rcases fresh.state_eq with state | state <;> rw [state] at isStarted <;> cases isStarted
  count container := by
    rw [releaseCount, Host.launchedSince_self]
    rcases fresh.state_eq with state | state <;> simp [state]

section

variable (inv : Tracked programs first start calls client host)
  (here : reached programs first start calls = (client, host))

include inv here

theorem Tracked.started (begins : Begins programs client host call next)
    (shape : ∃ identifier, next = ⟨client.config.naming identifier, .started⟩)
    (fits : Fits client next) (quiet : Quiet host after) :
    Tracked programs first start (calls ++ [call]) next after := by
  have begun := started_now here begins
  obtain ⟨identifier, rfl⟩ := shape
  refine {
    grown := Nat.le_trans inv.grown quiet.grown, config := ?_, unnamed := ?_, owned := ?_,
    origin := fun _ => ⟨client, _, begun⟩, count := fun container => ?_ }
  · rw [inv.config]
    rfl
  · intro unbound
    cases unbound
  · intro before started begun
    refine ⟨?_, Or.inl rfl⟩
    rcases started_append_singleton_iff.1 begun with earlier | ⟨found, -, now⟩
    · obtain ⟨same, state⟩ := inv.owned before started earlier
      rcases fits with unbound | ⟨-, again⟩
      · simp [unbound] at state
      · exact same.trans again.symm
    · rw [here] at found now
      rw [← found, begins.2] at now
      cases now
      rfl
  · have notReleased : client.state ≠ .released := by
      rcases fits with state | ⟨state, -⟩ <;> simp [state]
    rw [releaseCount_quiet inv.grown quiet, inv.count]
    simp [notReleased]

theorem Tracked.stayed (noStart : ∀ started, ¬ Begins programs client host call started)
    (quiet : Quiet host after) : Tracked programs first start (calls ++ [call]) client after := by
  have unchanged := started_unchanged here noStart
  refine {
    inv with grown := ?_, owned := ?_, origin := ?_, count := fun container => ?_ }
  · exact Nat.le_trans inv.grown quiet.grown
  · simpa only [unchanged] using inv.owned
  · simpa only [unchanged] using inv.origin
  · rw [releaseCount_quiet inv.grown quiet, inv.count]

theorem Tracked.released (due : client.state ≠ .released)
    (issued : after.launches = client.config.releaseLaunch host :: host.launches) :
    Tracked programs first start (calls ++ [.release]) { client with state := .released } after := by
  have noStart : ∀ started, ¬ Begins programs client host .release started :=
    fun _ begins => by cases begins.1
  refine {
    grown := ?_, config := inv.config, unnamed := ?_, owned := ?_, origin := ?_,
    count := fun container => ?_ }
  · rw [issued, List.length_cons]
    exact Nat.le_succ_of_le inv.grown
  · intro unbound
    cases unbound
  · intro before started begun
    rw [started_unchanged here noStart] at begun
    exact ⟨(inv.owned before started begun).1, Or.inr rfl⟩
  · intro isStarted
    cases isStarted
  · have sameReleases : releaseCount first.config = releaseCount client.config := by
      rw [inv.config]
      rfl
    rw [sameReleases, releaseCount_release inv.grown issued, ← sameReleases, inv.count]
    simp [due]

/-- **One call keeps the track**, if it is no start or a start in good order. -/
theorem Tracked.step (called : Called programs client host call next after)
    (fits : ∀ started, Begins programs client host call started → Fits client started) :
    Tracked programs first start (calls ++ [call]) next after := by
  cases called with
  | started begins shape quiet => exact inv.started here begins shape (fits next begins) quiet
  | stayed same noStart quiet =>
      subst same
      exact inv.stayed here noStart quiet
  | released isRelease due named shape issued =>
      subst isRelease shape
      exact inv.released here due issued

end

/-- **A run of calls keeps the track** if every start among them is in good order. -/
theorem tracked_reached (fresh : Fresh first)
    (fits : ∀ before started, Started programs first start calls before started →
      Fits before started) :
    Tracked programs first start calls (reached programs first start calls).1
      (reached programs first start calls).2 := by
  induction calls using List.reverseRecOn with
  | nil => exact Tracked.begins fresh
  | append_singleton calls last ih =>
      have inv := ih fun before started begun =>
        fits before started (begun.mono (List.prefix_append calls [last]))
      rw [reached_append_singleton]
      exact inv.step rfl (call_ends programs _ _ last) fun started begins =>
        fits _ started (started_now (by rfl) begins)

/-! ## How clients begin -/

theorem findAgain_bound (library : Json.Library) (client : Client) (namespaces : List Bytes)
    (name : Bytes) (total left : Nat) (host : Host) :
    Ensures (client.findAgain library programs namespaces name total left) host fun answer _ =>
      ∀ found, answer = .ok found → found.state = .bound := by
  induction left generalizing host with
  | zero => exact fun found ended => by cases ended
  | succ left ih =>
      refine Ensures.bind_any fun answer after => ?_
      cases answer with
      | ok located =>
          refine Ensures.bind_any fun _ _ => Ensures.pure fun found ended => ?_
          cases ended
          rfl
      | error cause => exact Ensures.bind_any fun _ later => ih later

theorem load_bound (library : Json.Library) (config : Config) (namespaces : List Bytes)
    (name : Bytes) (host : Host) :
    Ensures (load library programs config namespaces name) host fun answer _ =>
      ∀ found, answer = .ok found → found.state = .bound := by
  unfold load
  refine Ensures.get_bind ?_
  split
  · exact Ensures.pure fun found ended => by cases ended
  · split
    · exact Ensures.pure fun found ended => by cases ended
    · exact findAgain_bound _ _ _ _ _ _ _

/-- However a client is made, it is bound, or has no container and names none. -/
theorem Made.fresh (made : Made programs first start) : Fresh first := by
  cases made with
  | new config =>
      unfold Client.new
      by_cases unnamed : config.identifier = []
      · exact Or.inl ⟨by simp [unnamed], unnamed⟩
      · exact Or.inr (by simp [unnamed])
  | @found library config namespaces name before _ _ loaded =>
      have bound := @load_bound programs library config namespaces name before
      rw [Ensures, loaded] at bound
      exact Or.inr (bound first rfl)

/-! ## Which lives are orderly -/

/-- **One call moves the client in an orderly way**, if it is no start or a start in good
order. -/
theorem Called.moves (called : Called programs client host call next after)
    (unnamed : client.state = .unbound → client.config.identifier = [])
    (fits : ∀ started, Begins programs client host call started → Fits client started) :
    Moves call client.state next.state := by
  cases called with
  | started begins shape quiet =>
      have inOrder := fits next begins
      obtain ⟨identifier, rfl⟩ := shape
      cases begins.1
      rcases inOrder with unbound | ⟨again, -⟩
      · rw [unbound]
        exact .begins
      · rw [again]
        exact .stays _ _
  | stayed same noStart quiet =>
      rw [same]
      exact .stays _ _
  | released isRelease due named shape issued =>
      subst isRelease shape
      refine .ends ?_
      cases state : client.state with
      | unbound => exact absurd (unnamed state) named
      | released => exact absurd state due
      | started => rfl
      | bound => rfl

theorem Moves.eq_of_start {before : State} (moves : Moves .start before .started) :
    before = .unbound ∨ before = .started := by
  cases moves with
  | stays => exact Or.inr rfl
  | begins => exact Or.inl rfl

/-- A start that succeeds leads to the client that it answers. -/
theorem reached_start (here : reached programs first start calls = (client, host))
    (answered : ((client.start programs).run host).1 = .ok next) :
    ∃ after, reached programs first start (calls ++ [.start]) = (next, after) ∧
      next.state = .started ∧ Quiet host after := by
  have called := call_ends programs client host .start
  rw [reached_append_singleton, here]
  refine ⟨((client.call programs .start).run host).2, ?_⟩
  cases called with
  | started begins shape quiet =>
      have again := begins.2
      rw [answered] at again
      cases again
      obtain ⟨identifier, shape⟩ := shape
      exact ⟨rfl, by rw [shape], quiet⟩
  | stayed same noStart quiet => exact absurd ⟨rfl, answered⟩ (noStart next)
  | released isRelease => cases isRelease

theorem Orderly.mono {earlier : List Call} (within : earlier <+: calls)
    (orderly : Orderly programs first start calls) : Orderly programs first start earlier where
  moves front call inFront := orderly.moves front call (inFront.trans within)
  kept front inFront := orderly.kept front (inFront.trans within)

theorem Orderly.fits (fresh : Fresh first) (orderly : Orderly programs first start calls)
    {before started : Client} (begun : Started programs first start calls before started) :
    Fits before started := by
  induction calls using List.reverseRecOn generalizing before started with
  | nil =>
      obtain ⟨earlier, later, split, -⟩ := begun
      simp at split
  | append_singleton calls last ih =>
      have shorter := orderly.mono (List.prefix_append calls [last])
      rcases started_append_singleton_iff.1 begun with earlier | ⟨rfl, rfl, answered⟩
      · exact ih shorter earlier
      · have inv := tracked_reached fresh fun _ _ => ih shorter
        obtain ⟨after, there, isStarted, quiet⟩ := reached_start (by rfl) answered
        have moves := orderly.moves calls .start (List.prefix_refl _)
        rw [there, isStarted] at moves
        refine moves.eq_of_start.imp_right fun again => ⟨again, ?_⟩
        -- the container it had was started before, and nobody has released it
        obtain ⟨former, owned, formerly⟩ := inv.origin again
        have kept := orderly.kept _ (List.prefix_refl _) former owned
          (formerly.mono (List.prefix_append calls [.start]))
        rw [there] at kept
        rcases kept with ⟨-, same⟩ | released
        · exact same.trans (inv.owned former owned formerly).1
        · rw [releaseCount_quiet inv.grown quiet, inv.count, again] at released
          simp at released

theorem orderly_of_fits (fresh : Fresh first)
    (fits : ∀ before started, Started programs first start calls before started →
      Fits before started) : Orderly programs first start calls := by
  have tracked : ∀ earlier, earlier <+: calls →
      Tracked programs first start earlier (reached programs first start earlier).1
        (reached programs first start earlier).2 := fun earlier within =>
    tracked_reached fresh fun before started begun => fits before started (begun.mono within)
  constructor
  · intro earlier call within
    have inv := tracked earlier ((List.prefix_append earlier [call]).trans within)
    rw [reached_append_singleton]
    exact Called.moves (call_ends programs _ _ call) inv.unnamed fun started begins =>
      fits _ started ((started_now (by rfl) begins).mono within)
  · intro earlier within before started begun
    have inv := tracked earlier within
    obtain ⟨same, state⟩ := inv.owned before started begun
    refine state.imp (fun isStarted => ⟨isStarted, same.symm⟩) fun isReleased => ?_
    rw [inv.count, if_pos ⟨isReleased, same.symm⟩]

/-- **A life is orderly just where every start that succeeds finds the client unbound, or
is given the container that the client has already.** -/
theorem orderly_iff (made : Made programs first start) :
    Orderly programs first start calls ↔
      ∀ before started, Started programs first start calls before started →
        before.state = .unbound ∨
          before.state = .started ∧ started.config.identifier = before.config.identifier :=
  ⟨fun orderly _ _ begun => orderly.fits made.fresh begun, orderly_of_fits made.fresh⟩

/-- Programs that write how many were launched before them. -/
def numbering : Programs :=
  fun host _ _ => (.ok ⟨[(.output, ofNat host.launches.length)], [], .reaped 0, 0⟩, host.files)

/-- A client that is started, used and released. -/
def plainLife : List Call :=
  [.start, .execute (ascii "true") [] none, .release, .release]

/-- Only the first call of that life is a start. -/
theorem plainLife_started {before started : Client}
    (begun : Started numbering (.new localRuntime) .bare plainLife before started) :
    before.state = .unbound ∧ started.config.identifier = ascii "0" := by
  obtain ⟨earlier, later, split, found, answered⟩ := begun
  cases earlier with
  | nil =>
      subst found
      have name : (((Client.new localRuntime).start numbering).run .bare).1.toOption.map
          (·.config.identifier) = some (ascii "0") := by decide +kernel
      refine ⟨rfl, Option.some.inj ?_⟩
      rw [← name]
      exact (congrArg (fun answer => answer.toOption.map (·.config.identifier)) answered).symm
  | cons first rest =>
      have noStart : Call.start ∉ plainLife.tail := by simp [plainLife]
      have tail : plainLife.tail = rest ++ .start :: later := congrArg List.tail split
      rw [tail] at noStart
      exact absurd (List.mem_append_right rest List.mem_cons_self) noStart

theorem plainLife_orderly :
    Made numbering (.new localRuntime) .bare ∧
      Orderly numbering (.new localRuntime) .bare plainLife := by
  have made : Made numbering (.new localRuntime) .bare := .new localRuntime .bare
  exact ⟨made, (orderly_iff made).2 fun _ _ begun => Or.inl (plainLife_started begun).1⟩

/-- A client that is started twice forgets its first container, and one that was released
can be started again. -/
theorem restarts_not_orderly :
    ¬ Orderly numbering (.new localRuntime) .bare [.start, .start] ∧
      ¬ Orderly numbering (.new (localRuntime.naming (ascii "a"))) .bare [.release, .start] := by
  constructor
  · intro orderly
    have kept := orderly.kept [.start, .start] (List.prefix_refl _) _ _
      ⟨[], [.start], rfl, rfl, rfl⟩
    have forgotten : ¬ Kept localRuntime .bare (ascii "0")
        (reached numbering (.new localRuntime) .bare [.start, .start]) := by
      unfold Kept
      decide +kernel
    exact forgotten kept
  · intro orderly
    have moves := orderly.moves [.release] .start (List.prefix_refl _)
    rcases moves.eq_of_start with state | state <;> cases state

/-! ## Sound lives -/

/-- If the client is ready, it names a container, in which its commands are executed, and a
release issues that of the container and is the last. -/
def Sound (programs : Programs) (point : Client × Host) : Prop :=
  point.1.state.isReady = true →
    point.1.config.identifier ≠ [] ∧
      (∀ command directory timeout,
        ∀ launch ∈ point.2.launchedSince
          ((point.1.execute programs command directory timeout).run point.2).2,
        launch.ExecutesIn point.1.config.identifier) ∧
      ((point.1.release programs).run point.2).1.state = .released ∧
      point.2.launchedSince ((point.1.release programs).run point.2).2 =
        [point.1.config.releaseLaunch point.2]

/-- A client that is ready is sound if it names its container. -/
theorem sound_of_named (named : client.config.identifier ≠ []) :
    Sound programs (client, host) := by
  intro ready
  have grown : host.launches.length ≤ host.launches.length := Nat.le_refl _
  have due : client.state ≠ .released := by
    intro released
    rw [released] at ready
    cases ready
  refine ⟨named, ?_, ?_⟩
  · intro command directory timeout launch member
    obtain ⟨spawned, launched, arguments⟩ :=
      execute_launches programs host client command directory timeout
    rw [Host.launchedSince_append grown launched, Host.launchedSince_self, List.append_nil,
      Option.mem_toList] at member
    exact Config.executesIn_of_commandWords (arguments launch member)
  · obtain ⟨released, traced⟩ := release_issues programs host due named
    have launched : ((client.release programs).run host).2.launches =
        [client.config.releaseLaunch host] ++ host.launches := congrArg Prod.fst traced
    rw [Host.launchedSince_append grown launched, Host.launchedSince_self, List.append_nil]
    exact ⟨congrArg Client.state released, rfl⟩

/-- **One call keeps a client named**, if a start gives it a name. -/
theorem Called.named (called : Called programs client host call next after)
    (named : client.state.isReady = true → client.config.identifier ≠ [])
    (gives : ∀ started, Begins programs client host call started →
      started.config.identifier ≠ [])
    (ready : next.state.isReady = true) : next.config.identifier ≠ [] := by
  cases called with
  | started begins shape quiet => exact gives next begins
  | stayed same noStart quiet =>
      subst same
      exact named ready
  | released isRelease due nonempty shape issued =>
      subst shape
      cases ready

/-- **A run of calls keeps a client named** if every start among them gives it a name. -/
theorem named_reached (begins : first.state.isReady = true → first.config.identifier ≠ [])
    (gives : ∀ before started, Started programs first start calls before started →
      started.config.identifier ≠ []) :
    (reached programs first start calls).1.state.isReady = true →
      (reached programs first start calls).1.config.identifier ≠ [] := by
  induction calls using List.reverseRecOn with
  | nil => exact begins
  | append_singleton calls last ih =>
      have earlier := ih fun before started begun =>
        gives before started (begun.mono (List.prefix_append calls [last]))
      rw [reached_append_singleton]
      exact Called.named (call_ends programs _ _ last) earlier fun started begins =>
        gives _ started (started_now (by rfl) begins)

/-- **A life is sound throughout just where the container that the client was given has a
name, if it was given one, and every start that succeeds gives it a name.** -/
theorem sound_iff (made : Made programs first start) :
    (∀ earlier, earlier <+: calls → Sound programs (reached programs first start earlier)) ↔
      (first.state = .bound → first.config.identifier ≠ []) ∧
        ∀ before started, Started programs first start calls before started →
          started.config.identifier ≠ [] := by
  constructor
  · intro sound
    refine ⟨fun bound => ?_, ?_⟩
    · have ready : first.state.isReady = true := by rw [bound]; rfl
      exact (sound [] (List.nil_prefix) ready).1
    · rintro before started ⟨earlier, later, rfl, found, answered⟩
      subst found
      obtain ⟨after, there, isStarted, -⟩ := reached_start (by rfl) answered
      have within : earlier ++ [.start] <+: earlier ++ .start :: later := by
        simp
      have ready : started.state.isReady = true := by rw [isStarted]; rfl
      have here := sound _ within
      rw [there] at here
      exact (here ready).1
  · rintro ⟨bound, gives⟩ earlier within
    have begins : first.state.isReady = true → first.config.identifier ≠ [] := by
      intro ready
      rcases made.fresh with ⟨unbound, -⟩ | isBound
      · rw [unbound] at ready
        cases ready
      · exact bound isBound
    intro ready
    have named := named_reached begins
      (fun before started begun => gives before started (begun.mono within)) ready
    exact sound_of_named named ready

theorem plainLife_sound :
    Made numbering (.new localRuntime) .bare ∧
      ∀ earlier, earlier <+: plainLife →
        Sound numbering (reached numbering (.new localRuntime) .bare earlier) := by
  have made : Made numbering (.new localRuntime) .bare := .new localRuntime .bare
  refine ⟨made, (sound_iff made).2 ⟨(fun bound => by cases bound), fun before started begun => ?_⟩⟩
  rw [(plainLife_started begun).2]
  exact List.cons_ne_nil _ _

/-- A listing of one container, whose identifier is empty. -/
def namelessListing : Programs := fun host _ _ =>
  (.ok ⟨[(.output, ascii "\x7b\"ID\":\"\",\"Names\":\"k8s://team/pod/second\"\x7d\n")], [],
    .reaped 0, 0⟩, host.files)

/-- A host that is a member of a group of containers. -/
def memberHost : Host :=
  { Host.bare with environ := [ascii "POD_NAME=pod", ascii "POD_NAMESPACE=team"] }

/-- A client is started by a runtime that says nothing, and is bound to a container that is
listed without an identifier. -/
theorem nameless_not_sound :
    ¬ Sound (silently (.reaped 0))
        (reached (silently (.reaped 0)) (.new localRuntime) .bare [.start]) ∧
      ∃ client host,
        (load Json.plain namelessListing localRuntime [ascii "default"] (ascii "second")).run
            memberHost = (.ok client, host) ∧ ¬ Sound namelessListing (client, host) := by
  constructor
  · intro sound
    exact (sound rfl).1 rfl
  · have bound : ((load Json.plain namelessListing localRuntime [ascii "default"]
        (ascii "second")).run memberHost).1.toOption.map
          (fun client => (client.state, client.config.identifier)) = some (.bound, []) := by
      decide +kernel
    cases ended : (load Json.plain namelessListing localRuntime [ascii "default"]
        (ascii "second")).run memberHost with
    | mk answer host =>
        rw [ended] at bound
        cases answer with
        | error cause => cases bound
        | ok client =>
            obtain ⟨isBound, unnamed⟩ := Prod.mk.inj (Option.some.inj bound)
            refine ⟨client, host, rfl, fun sound => (sound ?_).1 unnamed⟩
            rw [isBound]
            rfl

end Client

end Assay.Container
