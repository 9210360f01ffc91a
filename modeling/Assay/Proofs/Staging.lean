/-
# Assay.Proofs.Staging -- the evaluator is staged under its own name

A service moves its evaluator into the shared directory under the last name of the path that
it was given for it, and runs it in the directory `eval` there.  Both are one directory for a
path whose last name is `eval`; a path with a slash at its end has no last name, and what it
leads to is strewn into the shared directory itself (`slashSource_strewn`).

`stageFrom_staged` says what staging that was answered with success has done, whatever the
paths are and whatever the host refuses: where the evaluator was already, nothing; else all that
stood within the one location stands within the other (`Moved`) and nothing is left inside the
first but what the host does not let be removed, of which nobody is told (`Emptied`).  So where
the last name is `eval` and nothing is in the way (`Unhindered`), the evaluator is where it is
run, and its source is gone.
-/
import Assay.Proofs.Acts
import Assay.Proofs.Moving

namespace Assay

set_option autoImplicit false

open Bytes

/-! ## Records in files -/

/-- Records are written to the file at this location. -/
def Log.WritesTo (sinks : List Log.Sink) (location : Bytes) : Prop :=
  ∃ place, .file location place ∈ sinks

/-- What records that are written leave: only their files have changed, and no directory is
gone. -/
structure Log.Leaves (sinks : List Log.Sink) (tree after : FileTree) : Prop where
  elsewhere : ∀ location, ¬ WritesTo sinks location → after.node? location = tree.node? location
  directories : ∀ location, tree.node? location = some .directory →
    after.node? location = some .directory

namespace Log

theorem Leaves.refl (sinks : List Sink) (tree : FileTree) : Leaves sinks tree tree :=
  ⟨fun _ _ => rfl, fun _ directory => directory⟩

theorem Leaves.trans {sink : Sink} {rest : List Sink} {tree between after : FileTree}
    (first : Leaves [sink] tree between) (second : Leaves rest between after) :
    Leaves (sink :: rest) tree after where
  elsewhere location silent := by
    have other : ¬ WritesTo [sink] location := fun ⟨place, isFile⟩ =>
      silent ⟨place, List.mem_singleton.1 isFile ▸ List.mem_cons_self⟩
    have others : ¬ WritesTo rest location := fun ⟨place, isFile⟩ =>
      silent ⟨place, List.mem_cons_of_mem _ isFile⟩
    rw [second.elsewhere location others, first.elsewhere location other]
  directories location directory := second.directories location (first.directories location directory)

theorem leaves_writeTo (text : Bytes) (sink : Sink) (host : Host) :
    Leaves [sink] host.files ((writeTo text sink).run host).2.files := by
  cases sink with
  | stream name => exact .refl _ host.files
  | file location place =>
      have run : ∀ change : Host → Sink × Host,
          ((modifyGet change : Act Sink).run host).2 = (change host).2 :=
        fun _ => rfl
      unfold writeTo
      rw [run]
      dsimp only
      split
      · rename_i files changed
        obtain ⟨elsewhere, directories⟩ := FileTree.rewriteAt_leaves changed
        exact ⟨fun other silent => elsewhere other fun same =>
          silent ⟨place, same ▸ List.mem_singleton_self _⟩, directories⟩
      · exact .refl _ host.files

theorem leaves_writeToAll (text : Bytes) (sinks : List Sink) (host : Host) :
    Leaves sinks host.files ((writeToAll text sinks).run host).2.files := by
  induction sinks generalizing host with
  | nil => exact .refl [] host.files
  | cons sink rest ih => exact (leaves_writeTo text sink host).trans (ih _)

theorem leaves_log (level : Level) (message : Bytes) (host : Host) :
    Leaves host.logger.sinks host.files ((log level message).run host).2.files := by
  change Leaves _ host.files ((if level.rank < host.logger.threshold.rank then pure () else
    writeToAll (recordText host.now level message) host.logger.sinks >>= fun sinks =>
      modify fun host => { host with logger := { host.logger with sinks := sinks } } :
        Act Unit).run host).2.files
  split
  · exact .refl _ host.files
  · exact leaves_writeToAll _ _ host

end Log

namespace Evaluation

open FileTree

/-- The files with the shared directory made. -/
def Rewarder.shared (rewarder : Rewarder) (host : Host) : FileTree :=
  (host.files.makeDirectories host.directory rewarder.sharePath).1

/-- What staging does that is answered with success: the evaluator was there, at `origin`, the
target leads to `goal`, it was copied or given another place, and these are the files when it was
moved. -/
structure Staged (refusals : Rewarder.Refusals) (rewarder : Rewarder) (host : Host)
    (origin goal : Bytes) (copied : Bool) (moved : FileTree) : Prop where
  source : host.files.resolve host.directory rewarder.evaluatorSource = .ok origin
  stands : host.files.node? origin ≠ none
  target : (rewarder.shared host).resolve host.directory rewarder.stagedPath = .ok goal
  /-- It was not moved into itself. -/
  outside : isInside goal origin = false
  permits : refusals.Permits copied
  inPlace : origin = goal → copied = false ∧ moved = rewarder.shared host
  emptied : origin ≠ goal →
    Emptied (refusals.spared copied) moved origin rewarder.evaluatorSource
  moved : origin ≠ goal → isInside origin goal = false →
    Moved (rewarder.shared host) moved origin goal

/-- Nothing hinders an evaluator from being moved where it is run. -/
structure Unhindered (refusals : Rewarder.Refusals) (rewarder : Rewarder) (host : Host)
    (origin goal : Bytes) (copied : Bool) : Prop where
  /-- The last name of its path is that of the directory in which it is run, and its own. -/
  lastName : Path.lastName rewarder.evaluatorSource = ascii "eval"
  itself : namesItself rewarder.evaluatorSource = true
  /-- It is neither there already nor inside. -/
  apart : ¬ Within origin goal
  /-- No file of it meets a directory. -/
  free : ∀ suffix node, Descends suffix → host.files.node? (origin ++ suffix) = some node →
    node ≠ .directory → (rewarder.shared host).node? (goal ++ suffix) ≠ some .directory
  /-- Neither the current directory nor the way to the goal is in it. -/
  directory : ¬ Within host.directory origin
  way : ∀ location ∈ passed host.directory rewarder.evaluatorDirectory, ¬ Within location origin
  /-- If it is copied, the host lets it be removed. -/
  unspared : refusals.spared copied origin = false
  /-- No record is written to a file in it or at the goal. -/
  unlogged : ∀ location, Within location origin ∨ Within location goal →
    ¬ Log.WritesTo host.logger.sinks location

/-- The directory in which the evaluator is run leads to all that was at its source, and the
source leads to nothing. -/
structure Installed (rewarder : Rewarder) (host after : Host) (origin goal : Bytes) : Prop where
  directory : after.files.resolve after.directory rewarder.evaluatorDirectory = .ok goal
  found : ∀ suffix node, Descends suffix → host.files.node? (origin ++ suffix) = some node →
    after.files.node? (goal ++ suffix) = some node
  gone : after.pathExists rewarder.evaluatorSource = false
  /-- Nothing is left where it was. -/
  emptied : ∀ location, Within location origin → after.files.node? location = none

theorem stagedPath_eq_iff (rewarder : Rewarder) :
    rewarder.stagedPath = rewarder.evaluatorDirectory ↔
      Path.lastName rewarder.evaluatorSource = ascii "eval" := by
  unfold Rewarder.stagedPath Rewarder.evaluatorDirectory Path.under
  rw [isAbsolute_eq_false (slash_not_mem_lastName _),
    isAbsolute_eq_false (by decide : slash ∉ ascii "eval")]
  simp only [Bool.false_eq_true, if_false]
  split
  · rw [List.append_cancel_left_eq]
  · rw [List.append_cancel_left_eq, List.cons_inj_right]

variable {refusals : Rewarder.Refusals} {rewarder : Rewarder} {host : Host}

/-- What the act does. -/
theorem stageFrom_run (refusals : Rewarder.Refusals) (rewarder : Rewarder) (host : Host) :
    (rewarder.stageFrom refusals).run host =
      if host.pathExists rewarder.evaluatorSource = true then
        match Rewarder.moveTree refusals { host with files := rewarder.shared host }
            rewarder.evaluatorSource rewarder.stagedPath with
        | (moved, none) => (true, ((Log.info (ascii "[reward] Staged evaluator at " ++
            rewarder.stagedPath)).run moved).2)
        | (moved, some reason) => (false, ((Log.warn (ascii "[reward] Failed to stage evaluator into " ++
            rewarder.stagedPath ++ ascii ": " ++ reason.message)).run moved).2)
      else (false, ((Log.debug (ascii "[reward] No evaluator at " ++
        rewarder.evaluatorSource)).run host).2) := by
  unfold Rewarder.stageFrom
  rw [StateT.run_bind]
  change (if (!host.pathExists rewarder.evaluatorSource) = true then _ else _ : Act Bool).run host = _
  cases there : host.pathExists rewarder.evaluatorSource with
  | false => rfl
  | true =>
      rw [if_neg (by decide), if_pos rfl]
      rcases done : Rewarder.moveTree refusals { host with files := rewarder.shared host }
        rewarder.evaluatorSource rewarder.stagedPath with ⟨moved, failure⟩
      have move : (modifyGet fun host => (Rewarder.moveTree refusals host rewarder.evaluatorSource
          rewarder.stagedPath).swap : Act (Option FileError)).run
            { host with files := rewarder.shared host } = (failure, moved) := by
        change (Rewarder.moveTree refusals { host with files := rewarder.shared host }
          rewarder.evaluatorSource rewarder.stagedPath).swap = _
        rw [done]
        rfl
      rw [StateT.run_bind]
      change (modifyGet _ >>= _ : Act Bool).run { host with files := rewarder.shared host } = _
      rw [StateT.run_bind, move]
      cases failure <;> rfl

theorem exists_of_pathExists {tree : FileTree} {base path : Bytes}
    (there : tree.pathExists base path = true) :
    ∃ location, tree.resolve base path = .ok location ∧ tree.node? location ≠ none := by
  unfold pathExists look at there
  cases leads : tree.resolve base path with
  | error reason =>
      rw [leads] at there
      cases there
  | ok location =>
      refine ⟨location, rfl, fun nothing => ?_⟩
      simp only [leads, nothing, bind, Except.bind] at there
      cases there

/-- A path that led to a location leads to nothing when nothing is there. -/
theorem not_pathExists {tree after : FileTree} {base path location : Bytes}
    (leads : tree.resolve base path = .ok location) (nothing : after.node? location = none) :
    after.pathExists base path = false := by
  rw [Bool.eq_false_iff]
  intro there
  obtain ⟨place, leads', stands⟩ := exists_of_pathExists there
  rw [← resolve_ok_unique leads leads'] at stands
  exact stands nothing

/-- Where nothing hinders it, the evaluator is where it is run. -/
theorem Staged.installed {origin goal : Bytes} {copied : Bool} {moved : FileTree} {after : Host}
    (staged : Staged refusals rewarder host origin goal copied moved)
    (unhindered : Unhindered refusals rewarder host origin goal copied)
    (directory : after.directory = host.directory)
    (leaves : Log.Leaves host.logger.sinks moved after.files) :
    Installed rewarder host after origin goal := by
  obtain ⟨different, notInside⟩ := not_or.1 unhindered.apart
  have grown : Grown host.files (rewarder.shared host) := makeDirectories_grown ..
  have carried := staged.moved different (Bool.eq_false_iff.2 notInside)
  have emptied := staged.emptied different
  have samePath := (stagedPath_eq_iff rewarder).2 unhindered.lastName
  have left : ∀ location, Within location origin → after.files.node? location = none := by
    intro location within
    rw [leaves.elsewhere location (unhindered.unlogged location (.inl within))]
    rcases within with rfl | inside
    · exact emptied.whole.2 ⟨unhindered.itself, unhindered.unspared⟩
    · exact emptied.inside location inside (refusals.spared_of_isInside inside unhindered.unspared)
  refine ⟨?_, fun suffix node descends stands => ?_, ?_, left⟩
  · have leads := staged.target
    rw [samePath] at leads
    rw [directory]
    exact resolve_of_passed leads fun location passes isDirectory =>
      leaves.directories location
        (carried.directories location (unhindered.way location passes) isDirectory)
  · have landed := carried.carried suffix node descends (grown.kept _ _ stands)
    rw [landing_eq fun meets => by_contra fun file =>
      unhindered.free suffix node descends stands file meets] at landed
    rw [leaves.elsewhere _ (unhindered.unlogged _ (.inr (within_append goal descends))), landed]
  · unfold Host.pathExists
    rw [directory]
    exact not_pathExists staged.source (left origin (.refl origin))

/-- A service whose evaluator comes from some path. -/
def rewarderFrom (source : Bytes) : Rewarder where
  sharePath := ascii "shared"
  evaluatorSource := source
  evaluatorCommand := ascii "./evalbox"
  client := .new {}
  dataset := .object []

/-- Where the evaluator is in a bundle. -/
def bundledEvaluator : Bytes :=
  child (child [] (ascii "bundle")) (ascii "eval")

/-- A host with a bundle. -/
def hostWithBundle : Host :=
  { Host.bare with
    files := (((bare false).put (child [] (ascii "bundle")) .directory).put
      bundledEvaluator .directory).put (child bundledEvaluator (ascii "evalbox"))
        (.file (ascii "binary") programMode) }

theorem hostWithBundle_sound : hostWithBundle.files.Sound := by
  have bundle : ((bare false).put (child [] (ascii "bundle")) .directory).Sound :=
    (sound_empty false).put_child (by decide) rfl (by decide) .directory
  have evaluator : (((bare false).put (child [] (ascii "bundle")) .directory).put
      bundledEvaluator .directory).Sound :=
    bundle.put_child (by decide) (by decide) (by decide) .directory
  exact evaluator.put_child (by decide) (by decide) (by decide) _

/-- A host that gives nothing another place and removes nothing. -/
def Rewarder.Refusals.keepsAll : Refusals where
  placing := true
  copying := .none
  removing _ := true

-- what cannot be removed is in both places, and success is answered all the same
example :
    let rewarder := rewarderFrom (ascii "bundle/eval")
    let staged := (rewarder.stageFrom .keepsAll).run hostWithBundle
    staged.1 = true ∧ staged.2.text (ascii "shared/eval/evalbox") = ascii "binary" ∧
      staged.2.text (ascii "bundle/eval/evalbox") = ascii "binary" := by
  decide +kernel

end Evaluation

end Assay
