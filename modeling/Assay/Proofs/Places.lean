/-
# Assay.Proofs.Places -- one path, seen from two directories

A path that is not absolute leads some directories up and from there along names down
(`Way`).  Two directories from which it leads to one location are therefore the same, or
come to be the same on the way up (`resolve_eq_iff`): without `..` at its beginning the
path leads to one location from one directory only.
-/
import Assay.Proofs.Fields
import Assay.Proofs.Likeness
import Mathlib.Logic.Function.Iterate

namespace Assay.FileTree

set_option autoImplicit false

open Bytes

/-- Where names lead: some directories up, and from there along names down, the last
one first. -/
structure Way where
  up : Nat
  down : List Bytes
  deriving DecidableEq, Repr

namespace Way

/-- The way and one name more. -/
def andThen (way : Way) (name : Bytes) : Way :=
  if name.isEmpty || name == Path.here then way
  else if name == Path.above then
    match way.down with
    | [] => { way with up := way.up + 1 }
    | _ :: rest => { way with down := rest }
  else { way with down := name :: way.down }

/-- Where the way leads from a directory. -/
def goal (way : Way) (origin : Bytes) : Bytes :=
  way.down.foldr (fun name location => child location name) (holder^[way.up] origin)

end Way

/-- How many directories up a path leads before it leads down. -/
def climbs (path : Bytes) : Nat :=
  ((Path.names (spelled path)).foldl Way.andThen ⟨0, []⟩).up

/-- The name of an entry is no part of its directory. -/
theorem holder_child {location name : Bytes} (simple : slash ∉ name) :
    holder (child location name) = location := by
  have passed : ∀ b ∈ name.reverse, (b != slash) = true := by
    intro b member
    rw [List.mem_reverse] at member
    simp only [bne_iff_ne, ne_eq]
    rintro rfl
    exact simple member
  have stops : (slash :: location.reverse).dropWhile (· != slash) = slash :: location.reverse :=
    List.dropWhile_cons_of_neg (by decide)
  rw [holder, child, List.reverse_append, List.reverse_cons, List.append_assoc,
    List.dropWhile_append_of_pos passed, List.singleton_append, stops]
  simp

/-- A way and one name more lead where the name leads from the end of the way. -/
theorem Way.goal_andThen {way : Way} (simple : ∀ name ∈ way.down, slash ∉ name)
    (origin name : Bytes) :
    (way.andThen name).goal origin = follow (way.goal origin) name := by
  unfold andThen follow
  split
  · rfl
  · split
    · cases taken : way.down with
      | nil =>
          simp only [goal, taken, List.foldr_nil]
          rw [Function.iterate_succ_apply']
      | cons last rest =>
          have single : slash ∉ last := simple last (taken ▸ List.mem_cons_self)
          simp only [goal, taken, List.foldr_cons]
          rw [holder_child single]
    · rfl

theorem Way.simple_andThen {way : Way} (simple : ∀ name ∈ way.down, slash ∉ name) {name : Bytes}
    (single : slash ∉ name) : ∀ other ∈ (way.andThen name).down, slash ∉ other := by
  unfold andThen
  split
  · exact simple
  · split
    · cases taken : way.down with
      | nil => simp
      | cons last rest =>
          intro other member
          exact simple other (taken ▸ List.mem_cons_of_mem last member)
    · intro other member
      rcases List.mem_cons.1 member with rfl | earlier
      · exact single
      · exact simple other earlier

theorem Way.goal_foldl {names : List Bytes} (single : ∀ name ∈ names, slash ∉ name) {way : Way}
    (simple : ∀ name ∈ way.down, slash ∉ name) (origin : Bytes) :
    (names.foldl andThen way).goal origin = names.foldl follow (way.goal origin) := by
  induction names generalizing way with
  | nil => rfl
  | cons name rest ih =>
      rw [List.foldl_cons, List.foldl_cons,
        ih (fun other member => single other (List.mem_cons_of_mem name member))
          (simple_andThen simple (single name List.mem_cons_self)), goal_andThen simple]

theorem Way.goal_inj {way : Way} {origin origin' : Bytes} :
    way.goal origin = way.goal origin' ↔ holder^[way.up] origin = holder^[way.up] origin' := by
  unfold goal
  induction way.down with
  | nil => rfl
  | cons name rest ih =>
      rw [List.foldr_cons, List.foldr_cons, child, child, List.append_cancel_right_eq]
      exact ih

theorem not_mem_names (path : Bytes) : ∀ name ∈ Path.names path, slash ∉ name := by
  intro name member isIn
  have apart := separates_eq_false_of_mem_splitWhere member slash isIn
  cases apart

theorem isAbsolute_eq_false {path : Bytes} (bare : slash ∉ path) : Path.isAbsolute path = false := by
  cases path with
  | nil => rfl
  | cons b rest =>
      have notSlash : b ≠ slash := fun same => bare (same ▸ List.mem_cons_self)
      simpa [Path.isAbsolute] using notSlash

theorem isAbsolute_spelled (path : Bytes) :
    Path.isAbsolute (spelled path) = Path.isAbsolute path := by
  cases path with
  | nil => rfl
  | cons b rest =>
      by_cases zero : b = 0
      · subst zero
        rfl
      · have goesOn : (b != 0) = true := by simpa using zero
        simp [Path.isAbsolute, spelled, goesOn]

theorem resolve_eq_goal {tree : FileTree} {base path location : Bytes}
    (leads : tree.resolve base path = .ok location) :
    location = ((Path.names (spelled path)).foldl Way.andThen ⟨0, []⟩).goal
      (if Path.isAbsolute path then [] else base) := by
  unfold resolve at leads
  dsimp only at leads
  split at leads
  · cases leads
  · split at leads
    · cases leads
    · rw [walk_ok_eq_foldl leads, Way.goal_foldl (not_mem_names _) (by simp), isAbsolute_spelled]
      rfl

/-- **A path leads to one location from two directories exactly where it is absolute or
they are the same as far up as the path climbs.** -/
theorem resolve_eq_iff {tree other : FileTree} {base place path location found : Bytes}
    (written : tree.resolve base path = .ok location)
    (read : other.resolve place path = .ok found) :
    found = location ↔
      Path.isAbsolute path = true ∨ holder^[climbs path] place = holder^[climbs path] base := by
  rw [resolve_eq_goal written, resolve_eq_goal read, Way.goal_inj, ← climbs]
  cases absolute : Path.isAbsolute path with
  | true => simp
  | false => simp

end Assay.FileTree
