/-
# Assay.Proofs.Likeness -- trees that differ in one file

Most of what is done with files looks at what stands where and not at what files
hold.  So two trees that differ in the content of one file (`AlikeBut`) cannot be told
apart by following paths, and a change is made in both or refused in both for the same
reason (`SameChange`), after which they are alike again.  When that one file is written,
nothing of the difference is left (`AlikeBut.eq_of_writeWithParents`).
-/
import Assay.Proofs.Files

namespace Assay

set_option autoImplicit false

open Bytes

namespace FileTree

/-! ## Trees that differ in one content -/

/-- The same thing stands here and there, or two files of the same mode. -/
def SameKind (here there : Option Node) : Prop :=
  here = there ∨ ∃ old new mode, here = some (.file old mode) ∧ there = some (.file new mode)

/-- The trees differ in nothing but the content of the file at a location. -/
structure AlikeBut (location : Bytes) (left right : FileTree) : Prop where
  guarded : left.guarded = right.guarded
  storing : left.storing = right.storing
  elsewhere : ∀ other, location ≠ other → left.nodes.get? other = right.nodes.get? other
  here : SameKind (left.nodes.get? location) (right.nodes.get? location)

@[refl]
theorem AlikeBut.refl {location : Bytes} (tree : FileTree) : AlikeBut location tree tree :=
  ⟨rfl, rfl, fun _ _ => rfl, Or.inl rfl⟩

/-- A change was made in both trees, or refused for the same reason. -/
inductive SameChange (location : Bytes) :
    Except FileError FileTree → Except FileError FileTree → Prop
  | made {left right : FileTree} (alike : AlikeBut location left right) :
      SameChange location (.ok left) (.ok right)
  | refused (reason : FileError) : SameChange location (.error reason) (.error reason)

section

variable {location : Bytes} {left right : FileTree}

/-- Anywhere the trees hold the same, or it is the file that makes the difference. -/
theorem AlikeBut.node? (alike : AlikeBut location left right) (place : Bytes) :
    left.node? place = right.node? place ∨
      (location = place ∧ ∃ old new mode, left.node? place = some (.file old mode) ∧
        right.node? place = some (.file new mode)) := by
  unfold FileTree.node?
  split
  · exact Or.inl rfl
  · by_cases same : location = place
    · rcases alike.here with here | files
      · exact Or.inl (same ▸ here)
      · exact Or.inr ⟨same, same ▸ files⟩
    · exact Or.inl (alike.elsewhere place same)

/-- Where no content is looked at, the trees cannot be told apart. -/
theorem AlikeBut.walk_eq (alike : AlikeBut location left right) (names : List Bytes)
    (origin : Bytes) : left.walk origin names = right.walk origin names := by
  induction names generalizing origin with
  | nil => rfl
  | cons name rest ih =>
      rw [walk, walk]
      rcases alike.node? origin with same | ⟨-, old, new, mode, here, there⟩
      · rw [same]
        simp only [ih]
      · rw [here, there]

theorem AlikeBut.resolve_eq (alike : AlikeBut location left right) (base path : Bytes) :
    left.resolve base path = right.resolve base path := by
  simp only [resolve, alike.walk_eq]

/-- What a path leads to is the same, or two files. -/
theorem AlikeBut.look (alike : AlikeBut location left right) (base path : Bytes) :
    left.look base path = right.look base path ∨
      ∃ old new mode, left.look base path = .ok (.file old mode) ∧
        right.look base path = .ok (.file new mode) := by
  unfold FileTree.look
  rw [alike.resolve_eq]
  cases right.resolve base path with
  | error reason => exact Or.inl rfl
  | ok place =>
      rcases alike.node? place with same | ⟨-, old, new, mode, here, there⟩
      · simp only [bind, Except.bind, same, true_or]
      · simp only [bind, Except.bind, here, there]
        exact Or.inr ⟨old, new, mode, rfl, rfl⟩

theorem AlikeBut.isRegular_eq (alike : AlikeBut location left right) (base path : Bytes) :
    left.isRegular base path = right.isRegular base path := by
  unfold isRegular
  rcases alike.look base path with same | ⟨old, new, mode, here, there⟩
  · rw [same]
  · rw [here, there]

/-! ## Changes -/

theorem AlikeBut.put (alike : AlikeBut location left right) {place : Bytes} {node node' : Node}
    (same : node = node' ∨ (location = place ∧ SameKind (some node) (some node'))) :
    AlikeBut location (left.put place node) (right.put place node') where
  guarded := alike.guarded
  storing := alike.storing
  elsewhere := by
    intro other different
    simp only [FileTree.put, KeyMap.get?_insert]
    split
    · rename_i here
      rcases same with rfl | ⟨there, -⟩
      · rfl
      · exact absurd (there.trans here) different
    · exact alike.elsewhere other different
  here := by
    simp only [FileTree.put, KeyMap.get?_insert]
    split
    · rcases same with rfl | ⟨-, kind⟩
      · exact Or.inl rfl
      · exact kind
    · exact alike.here

/-- A file made anew from what it was: the trees are alike again. -/
theorem AlikeBut.rewriteAt (alike : AlikeBut location left right) (place : Bytes)
    (change : Bytes → Bytes) :
    SameChange location (left.rewriteAt place change) (right.rewriteAt place change) := by
  have allows : ∀ mode bit, left.allows mode bit = right.allows mode bit := by
    intro mode bit
    rw [FileTree.allows, FileTree.allows, alike.guarded]
  unfold FileTree.rewriteAt
  rcases alike.node? place with same | ⟨here, old, new, mode, atLeft, atRight⟩
  · rw [same]
    cases right.node? place with
    | none => exact .made (alike.put (Or.inl rfl))
    | some node =>
        cases node with
        | directory => exact .refused _
        | program name => exact .refused _
        | nullDevice => exact .made alike
        | file content mode =>
            dsimp only
            rw [allows]
            split
            · exact .made (alike.put (Or.inl rfl))
            · exact .refused _
  · rw [atLeft, atRight]
    dsimp only
    rw [allows]
    split
    · exact .made (alike.put (Or.inr ⟨here, Or.inr ⟨_, _, mode, rfl, rfl⟩⟩))
    · exact .refused _

theorem AlikeBut.write (alike : AlikeBut location left right) (base path content : Bytes) :
    SameChange location (left.write base path content) (right.write base path content) := by
  unfold FileTree.write
  rw [alike.resolve_eq]
  cases right.resolve base path with
  | error reason => exact .refused reason
  | ok place => exact alike.rewriteAt place fun _ => content

theorem AlikeBut.makeDirectory (alike : AlikeBut location left right) (base path : Bytes) :
    SameChange location (left.makeDirectory base path) (right.makeDirectory base path) := by
  unfold FileTree.makeDirectory
  rw [alike.resolve_eq]
  cases right.resolve base path with
  | error reason => exact .refused reason
  | ok place =>
      simp only [bind, Except.bind]
      rcases alike.node? place with same | ⟨-, old, new, mode, atLeft, atRight⟩
      · rw [same]
        cases right.node? place with
        | none => exact .made (alike.put (Or.inl rfl))
        | some node =>
            cases node with
            | directory => exact .made alike
            | _ => exact .refused _
      · rw [atLeft, atRight]
        exact .refused _

/-- The same changes were made in both trees, up to the same refusal. -/
def SameChanges (location : Bytes) (left right : FileTree × Option FileError) : Prop :=
  AlikeBut location left.1 right.1 ∧ left.2 = right.2

theorem AlikeBut.missingAbove_eq (alike : AlikeBut location left right) (base : Bytes)
    (steps : Nat) (path : Bytes) (found : List Bytes) :
    left.missingAbove base steps path found = right.missingAbove base steps path found := by
  induction steps generalizing path found with
  | zero => rfl
  | succ steps ih =>
      rw [missingAbove, missingAbove]
      rcases alike.look base (Path.parent path) with same | ⟨old, new, mode, here, there⟩
      · simp only [same, ih]
      · simp only [here, there]

theorem AlikeBut.makeEach (alike : AlikeBut location left right) (base : Bytes)
    (paths : List Bytes) :
    SameChanges location (FileTree.makeEach base paths left)
      (FileTree.makeEach base paths right) := by
  induction paths generalizing left right with
  | nil => exact ⟨alike, rfl⟩
  | cons path rest ih =>
      rw [FileTree.makeEach, FileTree.makeEach]
      have change := alike.makeDirectory base path
      generalize left.makeDirectory base path = atLeft, right.makeDirectory base path = atRight
        at change
      cases change with
      | made after => exact ih after
      | refused reason => exact ⟨alike, rfl⟩

theorem AlikeBut.makeMissing (alike : AlikeBut location left right) (base bare : Bytes) :
    SameChanges location
      (match left.missingAbove base (bare.length + 1) bare [] with
        | .error reason => (left, some reason)
        | .ok missing => FileTree.makeEach base missing left)
      (match right.missingAbove base (bare.length + 1) bare [] with
        | .error reason => (right, some reason)
        | .ok missing => FileTree.makeEach base missing right) := by
  rw [alike.missingAbove_eq]
  cases right.missingAbove base (bare.length + 1) bare [] with
  | error reason => exact ⟨alike, rfl⟩
  | ok missing => exact alike.makeEach base missing

theorem AlikeBut.makeDirectories (alike : AlikeBut location left right) (base path : Bytes) :
    SameChanges location (left.makeDirectories base path) (right.makeDirectories base path) := by
  unfold FileTree.makeDirectories
  split
  · exact ⟨alike, rfl⟩
  · rcases alike.look base path with same | ⟨old, new, mode, here, there⟩
    · rw [same]
      cases right.look base path with
      | ok node => cases node <;> exact ⟨alike, rfl⟩
      | error reason =>
          cases reason with
          | missing => exact alike.makeMissing base _
          | notDirectory => exact alike.makeMissing base _
          | _ => exact ⟨alike, rfl⟩
    · rw [here, there]
      exact ⟨alike, rfl⟩

/-- The tree in which a file is written: with the directories above it. -/
def withAbove (tree : FileTree) (base path : Bytes) : FileTree :=
  if (Path.parent path).isEmpty then tree else (tree.makeDirectories base (Path.parent path)).1

theorem AlikeBut.withAbove (alike : AlikeBut location left right) (base path : Bytes) :
    AlikeBut location (left.withAbove base path) (right.withAbove base path) := by
  unfold FileTree.withAbove
  split
  · exact alike
  · exact (alike.makeDirectories base (Path.parent path)).1

theorem writeWithParents_eq (tree : FileTree) (base path content : Bytes) :
    tree.writeWithParents base path content =
      match (tree.withAbove base path).write base path
          ((tree.withAbove base path).kept base path content) with
      | .ok after => (after, (tree.withAbove base path).told base path content)
      | .error reason => (tree.withAbove base path, some reason) :=
  rfl

/-- The storage does with a content what it does there. -/
theorem AlikeBut.kept_eq (alike : AlikeBut location left right) (base path content : Bytes) :
    left.kept base path content = right.kept base path content := by
  rw [kept, kept, alike.resolve_eq, alike.storing]

theorem AlikeBut.told_eq (alike : AlikeBut location left right) (base path content : Bytes) :
    left.told base path content = right.told base path content := by
  rw [told, told, alike.resolve_eq, alike.storing]

theorem AlikeBut.writeWithParents (alike : AlikeBut location left right)
    (base path content : Bytes) :
    SameChanges location (left.writeWithParents base path content)
      (right.writeWithParents base path content) := by
  have within := alike.withAbove base path
  have change := within.write base path ((right.withAbove base path).kept base path content)
  rw [writeWithParents_eq, writeWithParents_eq, within.kept_eq, within.told_eq]
  generalize (left.withAbove base path).write base path _ = atLeft,
    (right.withAbove base path).write base path _ = atRight at change
  cases change with
  | made after => exact ⟨after, rfl⟩
  | refused reason => exact ⟨within, rfl⟩

/-! ## The end of the difference -/

/-- Trees that hold the same everywhere are the same. -/
theorem AlikeBut.eq (alike : AlikeBut location left right)
    (same : left.nodes.get? location = right.nodes.get? location) : left = right := by
  have nodes : left.nodes = right.nodes := by
    refine KeyMap.ext_get? fun other => ?_
    by_cases here : location = other
    · rw [← here, same]
    · exact alike.elsewhere other here
  obtain ⟨nodes', guarded', storing'⟩ := left
  obtain ⟨nodes'', guarded'', storing''⟩ := right
  obtain rfl : nodes' = nodes'' := nodes
  obtain rfl : guarded' = guarded'' := alike.guarded
  obtain rfl : storing' = storing'' := alike.storing
  rfl

/-- Where a name leads from a directory. -/
def follow (origin name : Bytes) : Bytes :=
  if name.isEmpty || name == Path.here then origin
  else if name == Path.above then holder origin
  else child origin name

theorem walk_ok_eq_foldl {tree : FileTree} {names : List Bytes} {origin goal : Bytes}
    (found : tree.walk origin names = .ok goal) : goal = names.foldl follow origin := by
  induction names generalizing origin with
  | nil =>
      cases found
      rfl
  | cons name rest ih =>
      rw [walk] at found
      rw [List.foldl_cons, follow]
      split at found
      · cases found
      · split at found
        · rename_i stays
          rw [if_pos stays]
          exact ih found
        · rename_i moves
          rw [if_neg moves]
          split at found
          · rename_i rises
            rw [if_pos rises]
            exact ih found
          · rename_i descends
            rw [if_neg descends]
            split at found
            · cases found
            · exact ih found
      · cases found

/-- Where a path leads does not depend on the tree, if it leads somewhere. -/
theorem resolve_ok_unique {tree other : FileTree} {base path goal goal' : Bytes}
    (found : tree.resolve base path = .ok goal) (found' : other.resolve base path = .ok goal') :
    goal = goal' := by
  unfold resolve at found found'
  dsimp only at found found'
  split at found
  · cases found
  · rename_i something
    rw [if_neg something] at found'
    split at found
    · cases found
    · rename_i short
      rw [if_neg short] at found'
      rw [walk_ok_eq_foldl found, walk_ok_eq_foldl found']

/-- A file that was written anew, and is one still, has what was written. -/
theorem content_of_rewriteAt {tree after : FileTree} {content kept : Bytes} {mode : Nat}
    (written : tree.rewriteAt location (fun _ => content) = .ok after)
    (stands : after.nodes.get? location = some (.file kept mode)) : content = kept := by
  have put : ∀ mode', (tree.put location (.file content mode')).nodes.get? location =
      some (.file kept mode) → content = kept := by
    intro mode' stands
    simp only [FileTree.put, KeyMap.get?_insert, if_pos, Option.some.injEq, Node.file.injEq]
      at stands
    exact stands.1
  rcases rewriteAt_cases written with ⟨-, rfl⟩ | ⟨device, rfl⟩ | ⟨old, mode', -, rfl⟩
  · exact put _ stands
  · unfold FileTree.node? at device
    split at device
    · cases device
    · rw [stands] at device
      cases device
  · exact put _ stands

/-- What is written where the trees differ makes them one. -/
theorem AlikeBut.eq_of_rewriteAt (alike : AlikeBut location left right) {content : Bytes}
    {after after' : FileTree}
    (written : left.rewriteAt location (fun _ => content) = .ok after)
    (written' : right.rewriteAt location (fun _ => content) = .ok after') : after = after' := by
  have change := alike.rewriteAt location fun _ => content
  rw [written, written'] at change
  cases change with
  | made alike' =>
      rcases alike'.here with same | ⟨kept, kept', mode, here, there⟩
      · exact alike'.eq same
      · have same : kept = kept' :=
          (content_of_rewriteAt written here).symm.trans (content_of_rewriteAt written' there)
        exact alike'.eq (by rw [here, there, same])

/-- Trees in which a path leads to the one file that makes the difference are the same
when that file is written in both. -/
theorem AlikeBut.eq_of_writeWithParents (alike : AlikeBut location left right) {tree : FileTree}
    {base path content : Bytes} (leads : tree.resolve base path = .ok location)
    (written : (left.writeWithParents base path content).2 = none) :
    (left.writeWithParents base path content).1 = (right.writeWithParents base path content).1 := by
  have within := alike.withAbove base path
  have same := (alike.writeWithParents base path content).2
  rw [writeWithParents_eq, writeWithParents_eq, within.kept_eq] at same ⊢
  rw [writeWithParents_eq, within.kept_eq] at written
  generalize (right.withAbove base path).kept base path content = content at same written ⊢
  unfold FileTree.write at same written ⊢
  rw [within.resolve_eq] at same written ⊢
  cases resolved : (right.withAbove base path).resolve base path with
  | error reason =>
      rw [resolved] at written
      cases written
  | ok place =>
      obtain rfl : place = location := resolve_ok_unique resolved leads
      rw [resolved] at written same
      simp only [bind, Except.bind] at same written ⊢
      cases atLeft : (left.withAbove base path).rewriteAt place fun _ => content with
      | error reason =>
          rw [atLeft] at written
          cases written
      | ok after =>
          cases atRight : (right.withAbove base path).rewriteAt place fun _ => content with
          | error reason =>
              rw [atLeft] at written
              rw [atLeft, atRight] at same
              cases same.symm.trans written
          | ok after' => exact within.eq_of_rewriteAt atLeft atRight

end

end FileTree

end Assay
