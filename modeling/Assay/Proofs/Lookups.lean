/-
# Assay.Proofs.Lookups -- what the name of a program stands for

A name with a slash in it is the path of the program (`findProgram_of_slash`).  A bare name is
looked for in the directories of the search path, and what is found stands in one of them under
that name (`Plain.resolve_under`): names such as `..`, which lead elsewhere, lead to
directories, and a directory is no program.  The search path of children is pinned, whatever
their environment is made from (`build_searchPath`).
-/
import Assay.Environment
import Assay.Proofs.Nesting

namespace Assay

set_option autoImplicit false

open Bytes

/-! ## Entries of directories -/

namespace FileTree

variable {tree : FileTree} {base path name directory : Bytes}

/-- A path that spells out the location of a directory. -/
structure Plain (directory : Bytes) : Prop where
  absolute : Path.isAbsolute directory = true
  /-- No slash is at its end. -/
  ends : directory.getLast? ≠ some slash
  whole : 0 ∉ directory
  itself : (Path.names directory).foldl follow [] = directory
  passes : holder directory ∈ through [] (Path.names directory)

/-- Something that can be executed is no directory. -/
theorem node?_of_isExecutable (runnable : tree.isExecutable base path = true) :
    ∃ location, tree.resolve base path = .ok location ∧
      tree.node? location ≠ some .directory := by
  unfold isExecutable look at runnable
  cases leads : tree.resolve base path with
  | error reason =>
      rw [leads] at runnable
      cases runnable
  | ok location =>
      refine ⟨location, rfl, fun directory => ?_⟩
      simp only [leads, directory, bind, Except.bind] at runnable
      cases runnable

theorem Plain.under_eq (plain : Plain directory) (bare : slash ∉ name) :
    Path.under directory name = directory ++ slash :: name := by
  have something : directory ≠ [] := by
    rintro rfl
    cases plain.absolute
  unfold Path.under
  rw [isAbsolute_eq_false bare, if_neg (by decide), if_neg]
  simp [something, plain.ends]

/-- What can be executed below a directory by a bare name is an entry of that directory. -/
theorem Plain.resolve_under (plain : Plain directory) (bare : slash ∉ name)
    (runnable : tree.isExecutable base (Path.under directory name) = true) :
    tree.resolve base (Path.under directory name) = .ok (child directory (spelled name)) ∧
      ∀ origin, follow origin (spelled name) = child origin (spelled name) := by
  obtain ⟨location, leads, noDirectory⟩ := node?_of_isExecutable runnable
  have written : spelled (Path.under directory name) = directory ++ slash :: spelled name := by
    have passes : ∀ b ∈ directory, (b != 0) = true := fun b member =>
      bne_iff_ne.2 fun zero => plain.whole (zero ▸ member)
    rw [plain.under_eq bare, spelled, List.takeWhile_append_of_pos passes,
      List.takeWhile_cons_of_pos (by decide)]
    rfl
  have rooted : Path.isAbsolute (directory ++ slash :: spelled name) = true := by
    have absolute := plain.absolute
    cases directory with
    | nil => cases absolute
    | cons b rest => exact absolute
  have walks := (resolve_eq_ok_iff.1 leads).2.2
  rw [written, rooted, if_pos rfl, Path.names, splitWhere_append_cons _ (by decide),
    ← Path.names, ← Path.names, names_of_bare bare] at walks
  have goal : location = follow directory (spelled name) := by
    have folded := walk_ok_eq_foldl walks
    rwa [List.foldl_append, plain.itself] at folded
  have directories : ∀ place ∈ through [] (Path.names directory) ++ [directory],
      tree.node? place = some .directory := by
    have led := directory_of_through walks
    rwa [through_append, plain.itself] at led
  -- the names that lead nowhere or up lead to directories
  have isName : ¬ ((spelled name).isEmpty || spelled name == Path.here) = true ∧
      ¬ (spelled name == Path.above) = true := by
    constructor
    · intro stays
      rw [follow, if_pos stays] at goal
      rw [goal] at noDirectory
      exact noDirectory (directories directory (by simp))
    · intro rises
      rw [follow, if_neg, if_pos rises] at goal
      · rw [goal] at noDirectory
        exact noDirectory (directories _ (List.mem_append_left _ plain.passes))
      · rw [beq_iff_eq.1 rises]
        decide
  have descends : ∀ origin, follow origin (spelled name) = child origin (spelled name) := by
    intro origin
    rw [follow, if_neg isName.1, if_neg isName.2]
  exact ⟨by rw [leads, goal, descends], descends⟩

end FileTree

/-! ## Programs by name -/

/-- The directories in which a program is looked for that is given by its name. -/
def Environment.searchDirectories : List Bytes :=
  fieldsWhere (· == colon) securePath

theorem Environment.plain_of_mem :
    ∀ directory ∈ searchDirectories, FileTree.Plain directory := by
  have listed : searchDirectories = [ascii "/bin", ascii "/usr/bin", ascii "/usr/local/bin"] := by
    decide
  rw [listed]
  simp only [List.forall_mem_cons]
  refine ⟨?_, ?_, ?_, fun _ member => nomatch member⟩ <;>
    exact ⟨by decide, by decide, by decide, by decide, by decide⟩

theorem Environment.build_searchPath (entries : List Bytes) (overlays : List (Option Environment)) :
    (build entries overlays true).searchPath = securePath := by
  rw [build, if_pos rfl, pin, searchPath, KeyMap.get?_insert, if_pos rfl]
  rfl

theorem findProgram_of_slash {files : FileTree} {base searchPath name : Bytes}
    (slashed : slash ∈ name) : findProgram files base searchPath name = some name := by
  rw [findProgram, if_neg, if_pos (List.elem_eq_true_of_mem slashed)]
  rintro empty
  rw [List.isEmpty_iff.1 empty] at slashed
  cases slashed

/-- A program that is found by a bare name can be executed below a directory of the search
path. -/
theorem exists_of_findProgram {files : FileTree} {base searchPath name program : Bytes}
    (bare : slash ∉ name) (found : findProgram files base searchPath name = some program) :
    ∃ directory ∈ fieldsWhere (· == colon) searchPath, program = Path.under directory name ∧
      files.isExecutable base program = true := by
  rw [findProgram] at found
  split at found
  · cases found
  · rw [if_neg (by simpa using bare)] at found
    obtain ⟨directory, member, rfl⟩ := List.mem_map.1 (List.mem_of_find?_eq_some found)
    exact ⟨directory, member, rfl, List.find?_some found⟩

end Assay
