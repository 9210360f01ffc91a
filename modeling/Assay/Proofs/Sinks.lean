/-
# Assay.Proofs.Sinks -- what the sinks of a log hold after any use of it

A log is used by adding files and streams to it, by setting its threshold and by logging
(`Use`), in any order.  What a sink is to hold in the end is said by the history alone: a file
what it held when it was added and then the `records` of all that came later, a stream one
piece of each record for each time that it was added before (`pieces`).

One use is looked at at a time.  A sink that was emptied when it was added keeps its own place,
and what carries the induction is that this place stays at the end of its file: a file that one
sink alone is on goes from `Follows` to `Follows`, with the records of the use behind its
content (`Follows.used`).  So every history whose file sinks are on different files is
`Faithful` (`useAll_faithful`).  Two spellings of a path are two paths and one file, and a file
that is added under both gets each record twice (`twoSpellings_unfaithful`).
-/
import Assay.Proofs.Records
import Assay.Proofs.Staging

namespace Assay

set_option autoImplicit false

open Bytes

namespace FileTree

variable {tree after : FileTree} {location : Bytes} {change : Bytes → Bytes}

/-- The content of the file at a location, empty when there is none. -/
def contentAt (tree : FileTree) (location : Bytes) : Bytes :=
  match tree.node? location with
  | some (.file content _) => content
  | _ => []

/-- The file at a location has this content, or it is the device that forgets what it is
given and so holds anything. -/
def HoldsAt (tree : FileTree) (location content : Bytes) : Prop :=
  tree.node? location = some .nullDevice ∨ ∃ mode, tree.node? location = some (.file content mode)

theorem rewriteAt_guarded (changed : tree.rewriteAt location change = .ok after) :
    after.guarded = tree.guarded := by
  rcases rewriteAt_cases changed with ⟨-, rfl⟩ | ⟨-, rfl⟩ | ⟨old, mode, -, rfl⟩ <;> rfl

theorem rewriteAt_of_allowed {content : Bytes} {mode : Nat}
    (stands : tree.node? location = some (.file content mode))
    (allowed : tree.allows mode ownerWrite = true) :
    tree.rewriteAt location change = .ok (tree.put location (.file (change content) mode)) := by
  rw [rewriteAt, stands]
  exact if_pos allowed

theorem allowed_of_rewriteAt {content : Bytes} {mode : Nat}
    (stands : tree.node? location = some (.file content mode))
    (changed : tree.rewriteAt location change = .ok after) :
    tree.allows mode ownerWrite = true := by
  rw [rewriteAt, stands] at changed
  by_contra denied
  rw [Bool.not_eq_true] at denied
  simp [denied] at changed

/-- The device that forgets what it is given stays. -/
theorem rewriteAt_device {other : Bytes} (forgets : tree.node? other = some .nullDevice)
    (changed : tree.rewriteAt location change = .ok after) :
    after.node? other = some .nullDevice := by
  by_cases same : other = location
  · subst same
    rw [rewriteAt, forgets] at changed
    cases changed
    exact forgets
  · rw [(rewriteAt_leaves changed).1 other same, forgets]

theorem makeEach_guarded (base : Bytes) (paths : List Bytes) (tree : FileTree) :
    (makeEach base paths tree).1.guarded = tree.guarded := by
  induction paths generalizing tree with
  | nil => rfl
  | cons path rest ih =>
      rw [makeEach]
      cases made : tree.makeDirectory base path with
      | error reason => rfl
      | ok between =>
          refine (ih between).trans ?_
          unfold makeDirectory at made
          cases leads : tree.resolve base path with
          | error reason =>
              rw [leads] at made
              cases made
          | ok place =>
              rw [leads] at made
              dsimp only [bind, Except.bind] at made
              split at made <;> cases made <;> rfl

theorem makeDirectories_guarded (tree : FileTree) (base path : Bytes) :
    (tree.makeDirectories base path).1.guarded = tree.guarded := by
  unfold makeDirectories
  split
  · rfl
  · split
    · rfl
    · rfl
    · dsimp only
      split
      · rfl
      · exact makeEach_guarded base _ tree
    · dsimp only
      split
      · rfl
      · exact makeEach_guarded base _ tree
    · rfl

end FileTree

namespace Log

open FileTree

/-! ## Histories -/

/-- What can be done with a log. -/
inductive Use where
  | addFile (path : Bytes) (appending : Bool)
  | addStream (name : Bytes)
  | setThreshold (level : Level)
  | log (level : Level) (message : Bytes)
  deriving DecidableEq, Repr

/-- It is done; answers whether it succeeded. -/
def Use.act : Use → Act Bool
  | .addFile path appending => Log.addFile path appending
  | .addStream name => do
      Log.addStream name
      return true
  | .setThreshold level => do
      Log.setThreshold level
      return true
  | .log level message => do
      Log.log level message
      return true

/-- The threshold after it. -/
def Use.threshold (threshold : Level) : Use → Level
  | .setThreshold level => level
  | _ => threshold

/-- How often it adds the stream. -/
def Use.copies (name : Bytes) : Use → Nat
  | .addStream other => if other = name then 1 else 0
  | _ => 0

/-- The path that a file is added under. -/
def Use.path? : Use → Option Bytes
  | .addFile path _ => some path
  | _ => none

/-- A use at a time of day. -/
structure Dated where
  now : Bytes
  use : Use
  deriving DecidableEq, Repr

/-- Whether a use succeeds. -/
def Dated.succeeds (dated : Dated) (host : Host) : Bool :=
  (dated.use.act.run { host with now := dated.now }).1

/-- The host after a use. -/
def Dated.after (dated : Dated) (host : Host) : Host :=
  (dated.use.act.run { host with now := dated.now }).2

/-- The host after a history. -/
def useAll (uses : List Dated) (host : Host) : Host :=
  uses.foldl (fun host dated => dated.after host) host

/-- The record of a use: there is one when a message is logged that is not below the
threshold. -/
def Dated.records (threshold : Level) (dated : Dated) : List Bytes :=
  match dated.use with
  | .log level message =>
      if level.rank < threshold.rank then [] else [recordText dated.now level message]
  | _ => []

/-- The records of a history, in order. -/
def records : Level → List Dated → List Bytes
  | _, [] => []
  | threshold, dated :: rest =>
      dated.records threshold ++ records (dated.use.threshold threshold) rest

/-- What a history writes to a stream that was added so often before: a piece of each record for
each time that the stream was added. -/
def pieces (name : Bytes) : Level → Nat → List Dated → List Bytes
  | _, _, [] => []
  | threshold, copies, dated :: rest =>
      ((dated.records threshold).flatMap fun record => List.replicate copies record) ++
        pieces name (dated.use.threshold threshold) (copies + dated.use.copies name) rest

/-- The file that a sink is on. -/
def Sink.location? : Sink → Option Bytes
  | .file location _ => some location
  | .stream _ => none

/-- The files that the sinks are on. -/
def Logger.locations (logger : Logger) : List Bytes :=
  logger.sinks.filterMap Sink.location?

/-- Every sink got what it was to get, and nothing else. -/
structure Faithful (host : Host) (uses : List Dated) : Prop where
  /-- A file that was added holds what it held then, or nothing if it was emptied, and then the
  records of all that came later. -/
  files : ∀ before now path appending later,
    uses = before ++ ⟨now, .addFile path appending⟩ :: later →
    Dated.succeeds ⟨now, .addFile path appending⟩ (useAll before host) = true →
    ∃ location,
      (useAll uses host).files.resolve (useAll uses host).directory path = .ok location ∧
      (useAll uses host).files.HoldsAt location
        ((if appending then (useAll before host).files.contentAt location else []) ++
          (records (useAll before host).logger.threshold later).flatten)
  /-- A stream got a piece of each record for each time that it was added before. -/
  streams : ∀ name, (useAll uses host).stream name =
    host.stream name ++ pieces name host.logger.threshold (host.logger.copies name) uses
  /-- When a file could not be added, no more was done than to make directories. -/
  refused : ∀ before now path appending later,
    uses = before ++ ⟨now, .addFile path appending⟩ :: later →
    Dated.succeeds ⟨now, .addFile path appending⟩ (useAll before host) = false →
    ∃ files, Grown (useAll before host).files files ∧
      Dated.after ⟨now, .addFile path appending⟩ (useAll before host) =
        { useAll before host with now := now, files := files }

variable {host : Host} {sinks : List Sink} {tree : FileTree} {location content : Bytes}

/-! ## One sink alone on a file -/

/-- The sinks on a file. -/
def sinksOn (location : Bytes) (sinks : List Sink) : List Sink :=
  sinks.filter fun sink => sink.location? == some location

/-- One sink alone is on the file, which has this content and may be written, and the sink
writes behind the content; or the file forgets what it is given. -/
inductive Follows (sinks : List Sink) (tree : FileTree) (location content : Bytes) : Prop
  | device (forgets : tree.node? location = some .nullDevice)
  | file (place : Option Nat) (mode : Nat)
      (sole : sinksOn location sinks = [.file location place])
      (behind : ∀ start, place = some start → start = content.length)
      (stands : tree.node? location = some (.file content mode))
      (allowed : tree.allows mode ownerWrite = true)

theorem Follows.holdsAt (follows : Follows sinks tree location content) :
    tree.HoldsAt location content := by
  cases follows with
  | device forgets => exact .inl forgets
  | file place mode sole behind stands => exact .inr ⟨mode, stands⟩

theorem sinksOn_eq_nil_iff : sinksOn location sinks = [] ↔ some location ∉ sinks.map Sink.location? := by
  simp [sinksOn, List.filter_eq_nil_iff]

theorem not_writesTo (absent : sinksOn location sinks = []) : ¬ WritesTo sinks location := by
  rintro ⟨place, member⟩
  exact sinksOn_eq_nil_iff.1 absent (List.mem_map.2 ⟨_, member, rfl⟩)

theorem mem_locations_iff {logger : Logger} :
    location ∈ logger.locations ↔ sinksOn location logger.sinks ≠ [] := by
  rw [Ne, sinksOn_eq_nil_iff, Classical.not_not, Logger.locations, List.mem_filterMap, List.mem_map]

theorem sinksOn_cons_self (place : Option Nat) (rest : List Sink) :
    sinksOn location (.file location place :: rest) = .file location place :: sinksOn location rest := by
  simp [sinksOn, Sink.location?]

theorem sinksOn_cons_other {sink : Sink} (other : sink.location? ≠ some location)
    (rest : List Sink) : sinksOn location (sink :: rest) = sinksOn location rest := by
  simp [sinksOn, other]

theorem follows_cons_iff {sink : Sink} (other : sink.location? ≠ some location) :
    Follows (sink :: sinks) tree location content ↔ Follows sinks tree location content := by
  constructor
  · rintro (forgets | ⟨place, mode, sole, behind, stands, allowed⟩)
    · exact .device forgets
    · exact .file place mode (sinksOn_cons_other other sinks ▸ sole) behind stands allowed
  · rintro (forgets | ⟨place, mode, sole, behind, stands, allowed⟩)
    · exact .device forgets
    · exact .file place mode (sinksOn_cons_other other sinks ▸ sole) behind stands allowed

/-- What leaves the file leaves its sink behind the content. -/
theorem Follows.kept {after : FileTree} (follows : Follows sinks tree location content)
    (kept : ∀ node, tree.node? location = some node → after.node? location = some node)
    (guarded : after.guarded = tree.guarded) : Follows sinks after location content := by
  cases follows with
  | device forgets => exact .device (kept _ forgets)
  | file place mode sole behind stands allowed =>
      refine .file place mode sole behind (kept _ stands) ?_
      rw [allows, guarded]
      exact allowed

/-! ## Writing a record -/

theorem overwrite_length (text content : Bytes) :
    overwrite content.length text content = content ++ text := by
  simp [overwrite]

/-- A sink stays on its file. -/
theorem writeTo_location (text : Bytes) (sink : Sink) (host : Host) :
    Ensures (writeTo text sink) host fun later after =>
      later.location? = sink.location? ∧ after.files.guarded = host.files.guarded := by
  cases sink with
  | stream name => exact ⟨rfl, rfl⟩
  | file location place =>
      unfold writeTo
      rw [Ensures, run_modifyGet]
      dsimp only
      split
      · rename_i files changed
        exact ⟨rfl, rewriteAt_guarded changed⟩
      · exact ⟨rfl, rfl⟩

theorem writeToAll_locations (text : Bytes) (sinks : List Sink) (host : Host) :
    Ensures (writeToAll text sinks) host fun later after =>
      later.map Sink.location? = sinks.map Sink.location? ∧
        after.files.guarded = host.files.guarded := by
  induction sinks generalizing host with
  | nil => exact Ensures.pure ⟨rfl, rfl⟩
  | cons sink rest ih =>
      refine Ensures.bind (writeTo_location text sink host) ?_
      rintro sink' between ⟨same, guarded⟩
      refine Ensures.bind (ih between) ?_
      rintro rest' after ⟨sameRest, guarded'⟩
      refine Ensures.pure ⟨?_, guarded'.trans guarded⟩
      rw [List.map_cons, List.map_cons, same, sameRest]

theorem writeTo_device (text : Bytes) (sink : Sink)
    (forgets : host.files.node? location = some .nullDevice) :
    Ensures (writeTo text sink) host fun _ after =>
      after.files.node? location = some .nullDevice := by
  cases sink with
  | stream name => exact forgets
  | file other place =>
      unfold writeTo
      rw [Ensures, run_modifyGet]
      dsimp only
      split
      · rename_i files changed
        exact rewriteAt_device forgets changed
      · exact forgets

theorem writeToAll_device (text : Bytes) (sinks : List Sink)
    (forgets : host.files.node? location = some .nullDevice) :
    Ensures (writeToAll text sinks) host fun _ after =>
      after.files.node? location = some .nullDevice := by
  induction sinks generalizing host with
  | nil => exact Ensures.pure forgets
  | cons sink rest ih =>
      refine Ensures.bind (writeTo_device text sink forgets) fun sink' between forgets' => ?_
      exact Ensures.bind (ih forgets') fun rest' after forgets'' => Ensures.pure forgets''

/-- The text comes behind the content, and the sink has its place behind the text. -/
theorem writeTo_behind {place : Option Nat} {mode : Nat} (text : Bytes)
    (behind : ∀ start, place = some start → start = content.length)
    (stands : host.files.node? location = some (.file content mode))
    (allowed : host.files.allows mode ownerWrite = true) :
    (writeTo text (.file location place)).run host =
      (.file location (place.map (· + text.length)),
        { host with files := host.files.put location (.file (content ++ text) mode) }) := by
  unfold writeTo
  rw [run_modifyGet]
  dsimp only
  rw [rewriteAt_of_allowed stands allowed]
  cases place with
  | none => rfl
  | some start =>
      rw [behind start rfl]
      dsimp only
      rw [overwrite_length]

/-- A sink on another file leaves the file. -/
theorem writeTo_elsewhere (text : Bytes) {sink : Sink} (other : sink.location? ≠ some location)
    (host : Host) :
    Ensures (writeTo text sink) host fun later after =>
      later.location? ≠ some location ∧ after.files.node? location = host.files.node? location ∧
        after.files.guarded = host.files.guarded := by
  obtain ⟨same, guarded⟩ := writeTo_location text sink host
  refine ⟨same ▸ other, (leaves_writeTo text sink host).elsewhere location ?_, guarded⟩
  rintro ⟨place, member⟩
  rw [← List.mem_singleton.1 member] at other
  exact other rfl

theorem writeToAll_elsewhere (text : Bytes) (absent : sinksOn location sinks = [])
    (host : Host) :
    Ensures (writeToAll text sinks) host fun later after =>
      sinksOn location later = [] ∧ after.files.node? location = host.files.node? location ∧
        after.files.guarded = host.files.guarded := by
  obtain ⟨same, guarded⟩ := writeToAll_locations text sinks host
  refine ⟨?_, (leaves_writeToAll text sinks host).elsewhere location (not_writesTo absent), guarded⟩
  rw [sinksOn_eq_nil_iff, same]
  exact sinksOn_eq_nil_iff.1 absent

/-- The only sink on the file is the first one. -/
theorem writeToAll_behind {place : Option Nat} {mode : Nat} {rest : List Sink} (text : Bytes)
    (absent : sinksOn location rest = [])
    (behind : ∀ start, place = some start → start = content.length)
    (stands : host.files.node? location = some (.file content mode))
    (allowed : host.files.allows mode ownerWrite = true) :
    Ensures (writeToAll text (.file location place :: rest)) host fun later after =>
      Follows later after.files location (content ++ text) := by
  have notDirectory : host.files.node? location ≠ some .directory := by simp [stands]
  have puts := puts_put notDirectory (.file (content ++ text) mode)
  refine Ensures.bind_run ?_
  rw [writeTo_behind text behind stands allowed]
  refine Ensures.bind (writeToAll_elsewhere text absent _) ?_
  rintro rest' after ⟨absent', stands', guarded⟩
  refine Ensures.pure (.file (place.map (· + text.length)) mode ?_ ?_ (stands'.trans puts.here) ?_)
  · rw [sinksOn_cons_self, absent']
  · intro start shifted
    obtain ⟨start', begins, rfl⟩ := Option.map_eq_some_iff.1 shifted
    rw [behind start' begins, List.length_append]
  · rw [allows, guarded]
    exact allowed

/-- **A record comes behind the content of a file** that one sink alone is on. -/
theorem writeToAll_follows (text : Bytes) (follows : Follows sinks host.files location content) :
    Ensures (writeToAll text sinks) host fun later after =>
      Follows later after.files location (content ++ text) := by
  induction sinks generalizing host with
  | nil =>
      cases follows with
      | device forgets => exact Ensures.pure (.device forgets)
      | file place mode sole => cases sole
  | cons sink rest ih =>
      by_cases on : sink.location? = some location
      · -- no later sink is on the file, unless it is the device
        cases follows with
        | device forgets => exact Follows.device (writeToAll_device text _ forgets)
        | file place mode sole behind stands allowed =>
            cases sink with
            | stream name => cases on
            | file other start =>
                cases on
                rw [sinksOn_cons_self] at sole
                obtain ⟨same, absent⟩ := List.cons.inj sole
                cases same
                exact writeToAll_behind text absent behind stands allowed
      · refine Ensures.bind (writeTo_elsewhere text on host) ?_
        rintro sink' between ⟨on', same, guarded⟩
        have left := ((follows_cons_iff on).1 follows).kept (fun _ => same.trans) guarded
        exact Ensures.bind (ih left) fun rest' after written =>
          Ensures.pure ((follows_cons_iff on').2 written)

/-! ## One use -/

/-- A record that is logged comes behind the content, and one below the threshold does not. -/
theorem log_follows (host : Host) (level : Level) (message : Bytes)
    (follows : Follows host.logger.sinks host.files location content) :
    Ensures (log level message) host fun _ after =>
      Follows after.logger.sinks after.files location
        (content ++ ((⟨host.now, .log level message⟩ : Dated).records host.logger.threshold).flatten) := by
  unfold log
  refine Ensures.get_bind ?_
  rw [Dated.records]
  dsimp only
  split
  · refine Ensures.pure ?_
    simpa using follows
  · refine Ensures.bind (writeToAll_follows (recordText host.now level message) follows) ?_
    intro later after written
    rw [List.flatten_singleton]
    exact written

/-- The sinks stay on their files. -/
theorem log_locations (level : Level) (message : Bytes) (host : Host) :
    Ensures (log level message) host fun _ after =>
      after.logger.locations = host.logger.locations := by
  unfold log
  refine Ensures.get_bind ?_
  split
  · exact Ensures.pure rfl
  · refine Ensures.bind (writeToAll_locations _ host.logger.sinks host) ?_
    rintro later after ⟨same, -⟩
    have ids := congrArg (List.filterMap id) same
    rw [List.filterMap_map, List.filterMap_map] at ids
    exact ids

/-- A logger with one more sink. -/
def Logger.adding (logger : Logger) (sink : Sink) : Logger :=
  { logger with
    sinks := (logger.sinks ++ [sink]).filter Sink.isFile ++
      (logger.sinks ++ [sink]).filter fun sink => !sink.isFile }

/-- What is read off the files alone does not depend on where the streams are. -/
theorem filterMap_adding {β : Type} {read : Sink → Option β}
    (ofStream : ∀ name, read (.stream name) = none) (logger : Logger) (sink : Sink) :
    (logger.adding sink).sinks.filterMap read = (logger.sinks ++ [sink]).filterMap read := by
  have files : (fun sink : Sink => if sink.isFile then read sink else none) = read := by
    funext sink
    cases sink with
    | stream name => exact (ofStream name).symm
    | file location place => rfl
  have streams : ((logger.sinks ++ [sink]).filter fun sink => !sink.isFile).filterMap read = [] := by
    refine List.filterMap_eq_nil_iff.2 fun sink member => ?_
    cases sink with
    | stream name => exact ofStream name
    | file location place => cases (List.mem_filter.1 member).2
  rw [Logger.adding, List.filterMap_append, streams, List.append_nil, List.filterMap_filter, files]

theorem locations_adding (logger : Logger) (sink : Sink) :
    (logger.adding sink).locations = logger.locations ++ [sink].filterMap Sink.location? := by
  rw [Logger.locations, filterMap_adding (fun _ => rfl), List.filterMap_append]
  rfl

theorem sinksOn_adding (location : Bytes) (logger : Logger) (sink : Sink) :
    sinksOn location (logger.adding sink).sinks =
      sinksOn location logger.sinks ++ sinksOn location [sink] := by
  unfold sinksOn
  rw [← List.filterMap_eq_filter, filterMap_adding (fun _ => rfl), List.filterMap_append,
    List.filterMap_eq_filter]

theorem copies_adding (name : Bytes) (logger : Logger) (sink : Sink) :
    (logger.adding sink).copies name = logger.copies name + [sink].count (.stream name) := by
  have perm := List.filter_append_perm Sink.isFile (logger.sinks ++ [sink])
  rw [Logger.copies, Logger.adding, perm.count_eq, List.count_append]
  rfl

/-- All that adding a file can come to. -/
inductive Adds (path : Bytes) (appending : Bool) (host : Host) : Bool → Host → Prop
  /-- Directories were made at most. -/
  | refused (files : FileTree) (grown : Grown host.files files)
      (guarded : files.guarded = host.files.guarded) :
      Adds path appending host false { host with files := files }
  /-- The file was opened after the directories above it were made. -/
  | added (above files : FileTree) (location : Bytes) (grown : Grown host.files above)
      (guarded : above.guarded = host.files.guarded)
      (leads : above.resolve host.directory path = .ok location)
      (opened : above.rewriteAt location (fun content => if appending then content else []) =
        .ok files) :
      Adds path appending host true
        { host with
          files := files
          logger := host.logger.adding (.file location (if appending then none else some 0)) }

theorem addFile_adds (path : Bytes) (appending : Bool) (host : Host) :
    Ensures (addFile path appending) host (Adds path appending host) := by
  unfold addFile
  dsimp only
  split
  -- the directories above the file are made first, or there are none above it
  on_goal 1 =>
    have grown := makeDirectories_grown host.files host.directory (Path.parent path)
    have guarded := makeDirectories_guarded host.files host.directory (Path.parent path)
    refine Ensures.bind_run ?_
  on_goal 2 =>
    have grown := Grown.refl host.files
    have guarded := Eq.refl host.files.guarded
  all_goals
    refine Ensures.get_bind ?_
    split
    · exact .refused _ grown guarded
    · rename_i location leads
      split
      · exact .refused _ grown guarded
      · rename_i files opened
        exact .added _ files location grown guarded leads opened

theorem used_adds (now path : Bytes) (appending : Bool) (host : Host) :
    Adds path appending { host with now := now }
      (Dated.succeeds ⟨now, .addFile path appending⟩ host)
      (Dated.after ⟨now, .addFile path appending⟩ host) :=
  addFile_adds path appending { host with now := now }

/-- A file that no sink was on is written behind what it held, or from its beginning if it was
emptied. -/
theorem added_follows {logger : Logger} {above files : FileTree} {appending : Bool}
    (grown : Grown tree above)
    (opened : above.rewriteAt location (fun content => if appending then content else []) = .ok files)
    (new : location ∉ logger.locations) :
    Follows (logger.adding (.file location (if appending then none else some 0))).sinks files
      location (if appending then tree.contentAt location else []) := by
  have sole : sinksOn location
      (logger.adding (.file location (if appending then none else some 0))).sinks =
        [.file location (if appending then none else some 0)] := by
    rw [sinksOn_adding, Classical.not_not.1 (mt mem_locations_iff.2 new), sinksOn_cons_self]
    rfl
  have behind : ∀ content : Bytes, ∀ start, (if appending then none else some 0) = some start →
      start = (if appending then content else []).length := by
    intro content start begins
    cases appending with
    | true => cases begins
    | false =>
        cases begins
        rfl
  rcases rewriteAt_cases opened with ⟨free, rfl⟩ | ⟨forgets, rfl⟩ | ⟨old, mode, stands, rfl⟩
  · -- nothing was there, neither before directories were made
    have nothing : tree.node? location = none := by
      cases stood : tree.node? location with
      | none => rfl
      | some node => cases free.symm.trans (grown.kept location node stood)
    have notDirectory : above.node? location ≠ some .directory := by simp [free]
    have puts := puts_put notDirectory (.file (if appending then [] else []) newFileMode)
    have allowed : above.allows newFileMode ownerWrite = true := by
      simp [allows, newFileMode, ownerWrite]
    rw [contentAt, nothing]
    exact .file _ newFileMode sole (behind []) puts.here allowed
  · exact .device forgets
  · -- directories were made only where nothing was
    have stood : tree.node? location = some (.file old mode) := by
      cases stood : tree.node? location with
      | some node => rw [← grown.kept location node stood, stands]
      | none =>
          rcases grown.new location stood with nothing | directory
          · cases stands.symm.trans nothing
          · cases stands.symm.trans directory
    have notDirectory : above.node? location ≠ some .directory := by simp [stands]
    have puts := puts_put notDirectory (.file (if appending then old else []) mode)
    have allowed : above.allows mode ownerWrite = true := allowed_of_rewriteAt stands opened
    rw [contentAt, stood]
    exact .file _ mode sole (behind old) puts.here allowed

/-- A file that is opened is not another one. -/
theorem Follows.opened {files : FileTree} {other : Bytes} {change : Bytes → Bytes}
    {logger : Logger} {place : Option Nat} (follows : Follows logger.sinks tree location content)
    (opened : tree.rewriteAt other change = .ok files) (new : other ∉ logger.locations) :
    Follows (logger.adding (.file other place)).sinks files location content := by
  cases follows with
  | device forgets => exact .device (rewriteAt_device forgets opened)
  | file place' mode sole behind stands allowed =>
      have different : location ≠ other := by
        rintro rfl
        exact new (mem_locations_iff.2 (sole ▸ List.cons_ne_nil _ _))
      refine .file place' mode ?_ behind ?_ ?_
      · rw [sinksOn_adding, sole, sinksOn_cons_other (by simpa [Sink.location?] using different.symm)]
        rfl
      · rw [(rewriteAt_leaves opened).1 location different, stands]
      · rw [allows, rewriteAt_guarded opened]
        exact allowed

/-- **One use hands on the file**, with its record behind the content, unless it adds the file
once more. -/
theorem Follows.used (follows : Follows host.logger.sinks host.files location content)
    (dated : Dated) (distinct : (dated.after host).logger.locations.Nodup) :
    Follows (dated.after host).logger.sinks (dated.after host).files location
      (content ++ (dated.records host.logger.threshold).flatten) := by
  obtain ⟨now, use⟩ := dated
  cases use with
  | addFile path appending =>
      change Follows _ _ location (content ++ [])
      rw [List.append_nil]
      have adds := used_adds now path appending host
      generalize Dated.succeeds ⟨now, .addFile path appending⟩ host = done,
        Dated.after ⟨now, .addFile path appending⟩ host = after at adds distinct ⊢
      cases adds with
      | refused files grown guarded => exact follows.kept (grown.kept location) guarded
      | added above files other grown guarded leads opened =>
          refine (follows.kept (grown.kept location) guarded).opened opened ?_
          rw [locations_adding] at distinct
          exact fun member => (List.nodup_append.1 distinct).2.2 other member other
            List.mem_cons_self rfl
  | addStream name =>
      change Follows (host.logger.adding (.stream name)).sinks host.files location (content ++ [])
      rw [List.append_nil]
      cases follows with
      | device forgets => exact .device forgets
      | file place mode sole behind stands allowed =>
          refine .file place mode ?_ behind stands allowed
          rw [sinksOn_adding, sole]
          rfl
  | setThreshold level =>
      change Follows host.logger.sinks host.files location (content ++ [])
      rw [List.append_nil]
      exact follows
  | log level message => exact log_follows { host with now := now } level message follows

/-! ## Any history -/

/-- What a history keeps: no directory is gone, and no sink. -/
structure Retains (host after : Host) : Prop where
  directory : after.directory = host.directory
  directories : ∀ location, host.files.node? location = some .directory →
    after.files.node? location = some .directory
  locations : host.logger.locations <+: after.logger.locations

theorem Retains.refl (host : Host) : Retains host host :=
  ⟨rfl, fun _ directory => directory, List.prefix_rfl⟩

theorem Retains.trans {between after : Host} (first : Retains host between)
    (second : Retains between after) : Retains host after where
  directory := second.directory.trans first.directory
  directories location directory :=
    second.directories location (first.directories location directory)
  locations := first.locations.trans second.locations

theorem used_retains (dated : Dated) (host : Host) : Retains host (dated.after host) := by
  obtain ⟨now, use⟩ := dated
  cases use with
  | addFile path appending =>
      have adds := used_adds now path appending host
      generalize Dated.succeeds ⟨now, .addFile path appending⟩ host = done,
        Dated.after ⟨now, .addFile path appending⟩ host = after at adds ⊢
      cases adds with
      | refused files grown guarded =>
          exact ⟨rfl, fun location => grown.kept location .directory, List.prefix_rfl⟩
      | added above files location grown guarded leads opened =>
          refine ⟨rfl, fun other directory => ?_, ?_⟩
          · exact (rewriteAt_leaves opened).2 other (grown.kept other .directory directory)
          · rw [locations_adding]
            exact List.prefix_append _ _
  | addStream name =>
      refine ⟨rfl, fun _ directory => directory, ?_⟩
      change _ <+: (host.logger.adding (.stream name)).locations
      rw [locations_adding]
      exact List.prefix_append _ _
  | setThreshold level => exact ⟨rfl, fun _ directory => directory, List.prefix_rfl⟩
  | log level message =>
      have keeps : Keeps Host.directory (Log.log level message) :=
        keeps_log (fun _ _ _ _ => rfl) level message
      have leaves := leaves_log level message { host with now := now }
      have locations := log_locations level message { host with now := now }
      exact ⟨keeps { host with now := now }, leaves.directories, locations ▸ List.prefix_rfl⟩

theorem useAll_append (before later : List Dated) (host : Host) :
    useAll (before ++ later) host = useAll later (useAll before host) :=
  List.foldl_append

theorem useAll_retains (uses : List Dated) (host : Host) : Retains host (useAll uses host) := by
  induction uses generalizing host with
  | nil => exact .refl host
  | cons dated rest ih => exact (used_retains dated host).trans (ih (dated.after host))

/-- What one use writes to a stream, how often the stream is there after it, and the threshold. -/
theorem used_stream (name : Bytes) (dated : Dated) (host : Host) :
    (dated.after host).stream name = host.stream name ++
        (dated.records host.logger.threshold).flatMap
          (fun record => List.replicate (host.logger.copies name) record) ∧
      (dated.after host).logger.copies name = host.logger.copies name + dated.use.copies name ∧
      (dated.after host).logger.threshold = dated.use.threshold host.logger.threshold := by
  obtain ⟨now, use⟩ := dated
  cases use with
  | addFile path appending =>
      have adds := used_adds now path appending host
      generalize Dated.succeeds ⟨now, .addFile path appending⟩ host = done,
        Dated.after ⟨now, .addFile path appending⟩ host = after at adds ⊢
      cases adds with
      | refused files => exact ⟨(List.append_nil _).symm, rfl, rfl⟩
      | added above files location =>
          exact ⟨(List.append_nil _).symm, copies_adding name host.logger _, rfl⟩
  | addStream other =>
      refine ⟨(List.append_nil _).symm,
        (copies_adding name host.logger (.stream other)).trans ?_, rfl⟩
      rw [List.count_singleton]
      simp [Use.copies]
  | setThreshold level => exact ⟨(List.append_nil _).symm, rfl, rfl⟩
  | log level message =>
      have wrote : Wrote name [⟨level, message⟩] { host with now := now } _ :=
        wrote_log level message _
      refine ⟨wrote.stream.trans ?_, wrote.copies, wrote.threshold⟩
      rw [List.flatMap_singleton, Record.pieces, Dated.records]
      dsimp only
      split
      · rfl
      · rw [List.flatMap_singleton]
        rfl

/-- **A history hands on the file**, with all its records behind the content. -/
theorem Follows.usedAll (follows : Follows host.logger.sinks host.files location content)
    (uses : List Dated) (distinct : (useAll uses host).logger.locations.Nodup) :
    Follows (useAll uses host).logger.sinks (useAll uses host).files location
      (content ++ (records host.logger.threshold uses).flatten) := by
  induction uses generalizing host content with
  | nil =>
      change Follows _ _ location (content ++ [])
      rw [List.append_nil]
      exact follows
  | cons dated rest ih =>
      have now := follows.used dated
        (distinct.sublist (useAll_retains rest (dated.after host)).locations.sublist)
      have later := ih now distinct
      rw [(used_stream [] dated host).2.2] at later
      rw [records, List.flatten_append, ← List.append_assoc]
      exact later

theorem useAll_stream (name : Bytes) (uses : List Dated) (host : Host) :
    (useAll uses host).stream name =
      host.stream name ++ pieces name host.logger.threshold (host.logger.copies name) uses := by
  induction uses generalizing host with
  | nil => exact (List.append_nil _).symm
  | cons dated rest ih =>
      obtain ⟨stream, copies, threshold⟩ := used_stream name dated host
      refine (ih (dated.after host)).trans ?_
      rw [stream, copies, threshold, pieces, List.append_assoc]

/-- What a file holds in the end that was added in a host. -/
theorem added_holdsAt {now path : Bytes} {appending : Bool} {later : List Dated}
    (succeeds : Dated.succeeds ⟨now, .addFile path appending⟩ host = true)
    (distinct : (useAll later (Dated.after ⟨now, .addFile path appending⟩ host)).logger.locations.Nodup) :
    ∃ location,
      (useAll later (Dated.after ⟨now, .addFile path appending⟩ host)).files.resolve
        (useAll later (Dated.after ⟨now, .addFile path appending⟩ host)).directory path =
          .ok location ∧
      (useAll later (Dated.after ⟨now, .addFile path appending⟩ host)).files.HoldsAt location
        ((if appending then host.files.contentAt location else []) ++
          (records host.logger.threshold later).flatten) := by
  have adds := used_adds now path appending host
  rw [succeeds] at adds
  generalize Dated.after ⟨now, .addFile path appending⟩ host = after at adds distinct ⊢
  have retains := useAll_retains later after
  cases adds with
  | added above files location grown guarded leads opened =>
      have new : location ∉ host.logger.locations := by
        have distinct' := distinct.sublist retains.locations.sublist
        rw [locations_adding] at distinct'
        exact fun member => (List.nodup_append.1 distinct').2.2 location member location
          List.mem_cons_self rfl
      refine ⟨location, ?_, ((added_follows grown opened new).usedAll later distinct).holdsAt⟩
      rw [retains.directory]
      exact resolve_of_passed leads fun other _ directory =>
        retains.directories other ((rewriteAt_leaves opened).2 other directory)

/-- **Every sink gets what it is to get**, whatever the history, when the files that were added
are different ones. -/
theorem useAll_faithful (uses : List Dated) (host : Host)
    (distinct : (useAll uses host).logger.locations.Nodup) : Faithful host uses where
  files before now path appending later same succeeds := by
    subst same
    rw [useAll_append] at distinct ⊢
    exact added_holdsAt succeeds distinct
  streams name := useAll_stream name uses host
  refused before now path appending later same fails := by
    have adds := used_adds now path appending (useAll before host)
    rw [fails] at adds
    generalize Dated.after ⟨now, .addFile path appending⟩ (useAll before host) = after at adds ⊢
    cases adds with
    | refused files grown => exact ⟨files, grown, rfl⟩

/-- A host in which a log was begun. -/
def begunHost : Host :=
  { Host.bare with files := Host.bare.files.put (ascii "/old.log") (.file (ascii "begun\n") newFileMode) }

/-- The log goes on, a second one is made beside it, a directory cannot be opened, and one of the
records is below the threshold. -/
def twoLogs : List Dated :=
  [⟨ascii "one", .addFile (ascii "old.log") true⟩, ⟨ascii "two", .log .error (ascii "a")⟩,
    ⟨ascii "three", .addFile (ascii "new/b.log") false⟩, ⟨ascii "four", .addFile (ascii "new") true⟩,
    ⟨ascii "five", .addStream errorStream⟩, ⟨ascii "six", .addStream errorStream⟩,
    ⟨ascii "seven", .log .warn (ascii "b")⟩, ⟨ascii "eight", .setThreshold .info⟩,
    ⟨ascii "nine", .log .warn (ascii "c")⟩]

theorem twoLogs_faithful :
    (useAll twoLogs begunHost).logger.locations.Nodup ∧ Faithful begunHost twoLogs ∧
      (useAll twoLogs begunHost).text (ascii "old.log") =
        ascii "begun\ntwo - ERROR - a\nnine - WARN - c\n" ∧
      (useAll twoLogs begunHost).text (ascii "new/b.log") = ascii "nine - WARN - c\n" ∧
      (useAll twoLogs begunHost).stream errorStream =
        [ascii "nine - WARN - c\n", ascii "nine - WARN - c\n"] := by
  have distinct : (useAll twoLogs begunHost).logger.locations.Nodup := by decide +kernel
  exact ⟨distinct, useAll_faithful twoLogs begunHost distinct, by decide +kernel, by decide +kernel,
    by decide +kernel⟩

/-- One file, under two spellings of its path, and one record. -/
def twoSpellings : List Dated :=
  [⟨ascii "noon", .addFile (ascii "a.log") true⟩, ⟨ascii "noon", .addFile (ascii "./a.log") true⟩,
    ⟨ascii "noon", .log .error (ascii "x")⟩]

/-- A host with the device that forgets what it is given. -/
def deviceHost : Host :=
  { Host.bare with files :=
      (Host.bare.files.put (ascii "/dev") .directory).put (ascii "/dev/null") .nullDevice }

/-- The device as the only sink, and one record. -/
def forgottenRecord : List Dated :=
  [⟨ascii "noon", .addFile (ascii "/dev/null") true⟩, ⟨ascii "noon", .log .error (ascii "x")⟩]

/-- Two paths can lead to one file, and that gets each record twice; and what leads to the device
succeeds and holds nothing. -/
theorem twoSpellings_unfaithful :
    ((twoSpellings.filterMap fun dated => dated.use.path?).Nodup ∧
      ¬ Faithful Host.bare twoSpellings) ∧
    records deviceHost.logger.threshold forgottenRecord = [ascii "noon - ERROR - x\n"] ∧
      (useAll forgottenRecord deviceHost).logger.locations = [ascii "/dev/null"] ∧
      (useAll forgottenRecord deviceHost).text (ascii "/dev/null") = [] := by
  refine ⟨⟨by decide, fun faithful => ?_⟩, by decide +kernel, by decide +kernel, by decide +kernel⟩
  obtain ⟨location, leads, holds⟩ := faithful.files [] _ _ _ _ rfl (by decide +kernel)
  have stands : (useAll twoSpellings Host.bare).files.node? (ascii "/a.log") =
      some (.file (ascii "noon - ERROR - x\nnoon - ERROR - x\n") newFileMode) := by decide +kernel
  have leads' : (useAll twoSpellings Host.bare).files.resolve
      (useAll twoSpellings Host.bare).directory (ascii "a.log") = .ok (ascii "/a.log") := by
    decide +kernel
  obtain rfl := Except.ok.inj (leads.symm.trans leads')
  rcases holds with device | ⟨mode, file⟩
  · cases stands.symm.trans device
  · obtain ⟨once, -⟩ := Node.file.inj (Option.some.inj (stands.symm.trans file))
    exact absurd once (by decide +kernel)

end Log

end Assay
