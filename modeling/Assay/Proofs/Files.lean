/-
# Assay.Proofs.Files -- what was written can be found

A path that leads to a place for a file leads there still when the file is written
(`walk_put`): only directories are passed through, and a file is never written over
one.  So whatever makes a file have a content, the path leads to that content
(`write_holds`), the one exception being the device that forgets what it is given.

What is written through the storage of the host is another matter: a writer may be told that
all went well and the file hold a part of it only, and it holds just what the storage keeps
(`writeFile_holds`).
-/
import Assay.Host

namespace Assay

set_option autoImplicit false

open Bytes

namespace FileTree

variable {tree after : FileTree} {base path location content : Bytes}

theorem node?_put (tree : FileTree) (location other : Bytes) (node : Node) :
    (tree.put location node).node? other =
      if other = [] then some .directory
      else if location = other then some node else tree.node? other := by
  unfold node? put
  cases other with
  | nil => rfl
  | cons b rest => simp

/-- A file put where no directory stands is in nobody's way. -/
theorem walk_put {node : Node} (notDirectory : tree.node? location ≠ some .directory)
    {names : List Bytes} {origin goal : Bytes} (found : tree.walk origin names = .ok goal) :
    (tree.put location node).walk origin names = .ok goal := by
  induction names generalizing origin with
  | nil => exact found
  | cons name rest ih =>
      rw [walk] at found ⊢
      have same : tree.node? origin = some .directory →
          (tree.put location node).node? origin = some .directory := by
        intro directory
        rw [node?_put]
        split
        · rfl
        · have elsewhere : location ≠ origin := by
            intro here
            rw [here] at notDirectory
            exact notDirectory directory
          rw [if_neg elsewhere, directory]
      cases stands : tree.node? origin with
      | none =>
          rw [stands] at found
          cases found
      | some stood =>
          cases stood with
          | directory =>
              rw [stands] at found
              rw [same stands]
              dsimp only at found ⊢
              split
              · rename_i passes
                rw [if_pos passes] at found
                exact ih found
              · rename_i stays
                rw [if_neg stays] at found
                split
                · rename_i rises
                  rw [if_pos rises] at found
                  exact ih found
                · rename_i descends
                  rw [if_neg descends] at found
                  split
                  · rename_i long
                    rw [if_pos long] at found
                    cases found
                  · rename_i short
                    rw [if_neg short] at found
                    exact ih found
          | file content mode =>
              rw [stands] at found
              cases found
          | program name =>
              rw [stands] at found
              cases found
          | nullDevice =>
              rw [stands] at found
              cases found

/-- The path leads to a file with this content, or to the device that forgets what it
is given and so holds anything. -/
def Holds (tree : FileTree) (base path content : Bytes) : Prop :=
  tree.look base path = .ok .nullDevice ∨ ∃ mode, tree.look base path = .ok (.file content mode)

theorem resolve_put {node : Node} (notDirectory : tree.node? location ≠ some .directory)
    (resolved : tree.resolve base path = .ok location) :
    (tree.put location node).resolve base path = .ok location := by
  unfold resolve at resolved ⊢
  dsimp only at resolved ⊢
  split
  · rename_i nothing
    rw [if_pos nothing] at resolved
    cases resolved
  · rename_i something
    rw [if_neg something] at resolved
    split
    · rename_i long
      rw [if_pos long] at resolved
      cases resolved
    · rename_i short
      rw [if_neg short] at resolved
      exact walk_put notDirectory resolved

theorem look_of_resolve (resolved : tree.resolve base path = .ok location) {node : Node}
    (stands : tree.node? location = some node) : tree.look base path = .ok node := by
  unfold look
  simp only [resolved, stands, bind, Except.bind]

/-- Where something other than a directory is put, the path finds it. -/
theorem look_put {node : Node} (notDirectory : tree.node? location ≠ some .directory)
    (resolved : tree.resolve base path = .ok location) :
    (tree.put location node).look base path = .ok node := by
  have notRoot : location ≠ [] := by
    intro root
    rw [root] at notDirectory
    exact notDirectory rfl
  refine look_of_resolve (resolve_put notDirectory resolved) ?_
  rw [node?_put, if_neg notRoot, if_pos rfl]

/-- What a tree is after the file at a location was changed: there was none, or it
forgets what it is given, or it kept its mode. -/
theorem rewriteAt_cases {change : Bytes → Bytes}
    (changed : tree.rewriteAt location change = .ok after) :
    (tree.node? location = none ∧ after = tree.put location (.file (change []) newFileMode)) ∨
      (tree.node? location = some .nullDevice ∧ after = tree) ∨
      ∃ old mode, tree.node? location = some (.file old mode) ∧
        after = tree.put location (.file (change old) mode) := by
  unfold rewriteAt at changed
  split at changed
  · rename_i free
    cases changed
    exact Or.inl ⟨free, rfl⟩
  · cases changed
  · rename_i device
    cases changed
    exact Or.inr (Or.inl ⟨device, rfl⟩)
  · cases changed
  · rename_i old mode stands
    split at changed
    · cases changed
      exact Or.inr (Or.inr ⟨old, mode, stands, rfl⟩)
    · cases changed

/-- A file that was written holds what was written. -/
theorem write_holds (written : tree.write base path content = .ok after) :
    after.Holds base path content := by
  unfold write at written
  cases resolved : tree.resolve base path with
  | error reason =>
      rw [resolved] at written
      cases written
  | ok location =>
      rw [resolved] at written
      change tree.rewriteAt location (fun _ => content) = .ok after at written
      rcases rewriteAt_cases written with ⟨free, rfl⟩ | ⟨device, rfl⟩ | ⟨old, mode, stands, rfl⟩
      · exact Or.inr ⟨newFileMode, look_put (by simp [free]) resolved⟩
      · exact Or.inl (look_of_resolve resolved device)
      · exact Or.inr ⟨mode, look_put (by simp [stands]) resolved⟩

/-- Writing changes no more than the nodes. -/
theorem write_storing (written : tree.write base path content = .ok after) :
    after.storing = tree.storing := by
  unfold write at written
  cases resolved : tree.resolve base path with
  | error reason =>
      rw [resolved] at written
      cases written
  | ok location =>
      rw [resolved] at written
      change tree.rewriteAt location (fun _ => content) = .ok after at written
      rcases rewriteAt_cases written with ⟨-, rfl⟩ | ⟨-, rfl⟩ | ⟨old, mode, -, rfl⟩ <;> rfl

/-- The path leads where it led before the file was written. -/
theorem resolve_write (written : tree.write base path content = .ok after) :
    after.resolve base path = tree.resolve base path := by
  unfold write at written
  cases resolved : tree.resolve base path with
  | error reason =>
      rw [resolved] at written
      cases written
  | ok location =>
      rw [resolved] at written
      change tree.rewriteAt location (fun _ => content) = .ok after at written
      rcases rewriteAt_cases written with ⟨free, rfl⟩ | ⟨-, rfl⟩ | ⟨old, mode, stands, rfl⟩
      · exact resolve_put (by simp [free]) resolved
      · exact resolved
      · exact resolve_put (by simp [stands]) resolved

/-- So the storage keeps of a content there what it kept. -/
theorem kept_write (written : tree.write base path content = .ok after) (other : Bytes) :
    after.kept base path other = tree.kept base path other := by
  rw [kept, kept, resolve_write written, write_storing written]

/-- A file of which the writer was told that it was written holds what the storage keeps. -/
theorem writeWithParents_holds (written : (tree.writeWithParents base path content).2 = none) :
    (tree.writeWithParents base path content).1.Holds base path
      ((tree.writeWithParents base path content).1.kept base path content) := by
  unfold writeWithParents at written ⊢
  dsimp only at written ⊢
  split
  · rename_i done
    rw [kept_write done]
    exact write_holds done
  · rename_i refused
    rw [refused] at written
    cases written

/-- Of a content that is stored as a whole, all is kept. -/
theorem kept_eq_self (whole : ∀ location, (tree.storing location content).kept = content.length)
    (resolved : tree.resolve base path = .ok location) : tree.kept base path content = content := by
  rw [kept, resolved]
  dsimp only
  rw [whole, List.take_length]

end FileTree

/-- The path leads to a file with this content, seen from the current directory. -/
def Host.Holds (host : Host) (path content : Bytes) : Prop :=
  host.files.Holds host.directory path content

/-- What the storage keeps of a content where a path leads, seen from the current directory. -/
def Host.kept (host : Host) (path content : Bytes) : Bytes :=
  host.files.kept host.directory path content

/-- A file that was said to be written holds what the storage keeps of its content. -/
theorem writeFile_holds {host : Host} {path content : Bytes}
    (written : ((writeFile path content).run host).1 = true) :
    ((writeFile path content).run host).2.Holds path
      (((writeFile path content).run host).2.kept path content) :=
  FileTree.writeWithParents_holds (Option.isNone_iff_eq_none.1 written)

end Assay
