/-
# Assay.Proofs.Nesting -- what lies inside what

A location lies within another one if that is written before it and ends where a name
ends (`within_iff`); two locations that hold a third are therefore one within the other
(`Within.total`).  In a `Sound` tree whatever holds something is a directory.

Following names asks for directories only: where those stay that the names lead through,
the names lead where they led (`walk_of_through`).  Making directories takes nothing away
and puts nothing but directories where nothing was (`makeDirectories_grown`).
-/
import Assay.Proofs.Places

namespace Assay.FileTree

set_option autoImplicit false

open Bytes

/-! ## Within -/

/-- The location is the other one or lies inside it. -/
def Within (location outer : Bytes) : Prop :=
  location = outer ∨ isInside location outer = true

/-- What is written behind a location for one within it. -/
def Descends (suffix : Bytes) : Prop :=
  suffix = [] ∨ suffix.head? = some slash

instance (location outer : Bytes) : Decidable (Within location outer) :=
  inferInstanceAs (Decidable (location = outer ∨ isInside location outer = true))

variable {location outer other suffix name : Bytes}

theorem isInside_iff : isInside location outer = true ↔ ∃ rest, location = outer ++ slash :: rest := by
  rw [isInside, startsWith, List.isPrefixOf_iff_prefix]
  constructor
  · rintro ⟨rest, rfl⟩
    exact ⟨rest, by simp⟩
  · rintro ⟨rest, rfl⟩
    exact ⟨rest, by simp⟩

theorem within_iff : Within location outer ↔ ∃ suffix, Descends suffix ∧ location = outer ++ suffix := by
  rw [Within, isInside_iff]
  constructor
  · rintro (rfl | ⟨rest, rfl⟩)
    · exact ⟨[], .inl rfl, (List.append_nil _).symm⟩
    · exact ⟨slash :: rest, .inr rfl, rfl⟩
  · rintro ⟨suffix, rfl | head, rfl⟩
    · exact .inl (List.append_nil _)
    · cases suffix with
      | nil => cases head
      | cons b rest =>
          cases head
          exact .inr ⟨rest, rfl⟩

theorem within_append (outer : Bytes) (descends : Descends suffix) : Within (outer ++ suffix) outer :=
  within_iff.2 ⟨suffix, descends, rfl⟩

theorem Within.refl (location : Bytes) : Within location location :=
  .inl rfl

theorem Descends.append {rest : Bytes} (descends : Descends suffix) (further : Descends rest) :
    Descends (suffix ++ rest) := by
  cases suffix with
  | nil => exact further
  | cons b suffix =>
      rcases descends with empty | head
      · cases empty
      · exact .inr head

theorem Within.trans (inner : Within location other) (within : Within other outer) :
    Within location outer := by
  obtain ⟨rest, further, rfl⟩ := within_iff.1 inner
  obtain ⟨suffix, descends, rfl⟩ := within_iff.1 within
  exact within_iff.2 ⟨suffix ++ rest, descends.append further, List.append_assoc ..⟩

/-- Of two locations that a third lies within, one lies within the other. -/
theorem Within.total (one : Within location outer) (two : Within location other) :
    Within outer other ∨ Within other outer := by
  obtain ⟨suffix, descends, rfl⟩ := within_iff.1 one
  obtain ⟨rest, further, same⟩ := within_iff.1 two
  have begins : ∀ {first more : Bytes}, Descends (first ++ more) → Descends first := by
    intro first more descends
    cases first with
    | nil => exact .inl rfl
    | cons b first => exact .inr (descends.resolve_left (List.cons_ne_nil _ _))
  rcases List.append_eq_append_iff.1 same with ⟨between, rfl, rfl⟩ | ⟨between, rfl, rfl⟩
  · exact .inr (within_append outer (begins descends))
  · exact .inl (within_append other (begins further))

theorem not_isInside_self (location : Bytes) : isInside location location = false := by
  rw [Bool.eq_false_iff]
  intro inside
  obtain ⟨rest, same⟩ := isInside_iff.1 inside
  have lengths := congrArg List.length same
  rw [List.length_append, List.length_cons] at lengths
  omega

theorem within_child (location name : Bytes) : Within (child location name) location :=
  within_append location (.inr rfl)

/-- What lies inside an entry lies within the directory that holds it. -/
theorem Within.of_child (simple : slash ∉ name) (inside : isInside (child location name) outer = true) :
    Within location outer := by
  obtain ⟨rest, same⟩ := isInside_iff.1 inside
  rcases List.append_eq_append_iff.1 same with ⟨between, rfl, behind⟩ | ⟨between, rfl, behind⟩
  · cases between with
    | nil => exact .inl (List.append_nil _).symm
    | cons b between =>
        have isName : name = between ++ slash :: rest := (List.cons.inj behind).2
        exact absurd (isName ▸ List.mem_append_right between List.mem_cons_self) simple
  · cases between with
    | nil => exact .inl (List.append_nil _)
    | cons b between =>
        have isSlash : slash = b := (List.cons.inj behind).1
        subst isSlash
        exact within_append outer (.inr rfl)

/-! ## Sound trees -/

/-- Whatever holds something is a directory. -/
def Sound (tree : FileTree) : Prop :=
  ∀ location outer, isInside location outer = true → tree.node? location ≠ none →
    tree.node? outer = some .directory

variable {tree after : FileTree} {base path start goal : Bytes} {names : List Bytes}

theorem Sound.node?_eq_directory (sound : tree.Sound) {node : Node}
    (stands : tree.node? location = some node) (inside : isInside location outer = true) :
    tree.node? outer = some .directory :=
  sound location outer inside (stands ▸ Option.some_ne_none node)

/-- Nothing is inside what is not a directory. -/
theorem Sound.node?_eq_none (sound : tree.Sound) (notDirectory : tree.node? outer ≠ some .directory)
    (inside : isInside location outer = true) : tree.node? location = none :=
  by_contra fun stands => notDirectory (sound location outer inside stands)

theorem sound_empty (guarded : Bool) : (bare guarded).Sound := by
  intro location outer inside stands
  obtain ⟨rest, rfl⟩ := isInside_iff.1 inside
  have nothing : (bare guarded).node? (outer ++ slash :: rest) = none := by
    rw [node?, if_neg (by simp)]
    rfl
  exact absurd nothing stands

/-- The root holds what has no slash in its location. -/
theorem holder_eq_nil_or_isInside (location : Bytes) :
    holder location = [] ∨ isInside location (holder location) = true := by
  cases outer : location.reverse.dropWhile (· != slash) with
  | nil =>
      refine .inl ?_
      rw [holder, outer]
      rfl
  | cons b rest =>
      have isSlash : b = slash := by
        have head := List.head?_dropWhile_not (· != slash) location.reverse
        rw [outer] at head
        simpa using head
      refine .inr (isInside_iff.2 ⟨(location.reverse.takeWhile (· != slash)).reverse, ?_⟩)
      have whole := List.takeWhile_append_dropWhile (p := (· != slash)) (l := location.reverse)
      rw [outer, isSlash] at whole
      rw [holder, outer, ← List.reverse_inj]
      simpa using whole.symm

theorem Sound.holder (sound : tree.Sound) (directory : tree.node? location = some .directory) :
    tree.node? (holder location) = some .directory := by
  rcases holder_eq_nil_or_isInside location with root | inside
  · rw [root]
    rfl
  · exact sound.node?_eq_directory directory inside

/-! ## Following names -/

theorem walk_cons_eq_ok_iff {rest : List Bytes} :
    tree.walk start (name :: rest) = .ok goal ↔
      tree.node? start = some .directory ∧ name.length ≤ longestName ∧
        tree.walk (follow start name) rest = .ok goal := by
  rw [walk, follow]
  cases stands : tree.node? start with
  | none => simp
  | some node =>
      cases node with
      | directory =>
          dsimp only
          split
          · rename_i stays
            have short : name.length ≤ longestName := by
              rcases Bool.or_eq_true_iff.1 stays with empty | here
              · rw [List.isEmpty_iff.1 empty]
                exact Nat.zero_le _
              · rw [beq_iff_eq.1 here]
                decide
            simp [short]
          · split
            · rename_i rises
              have short : name.length ≤ longestName := by
                rw [beq_iff_eq.1 rises]
                decide
              simp [short]
            · split <;> simp <;> omega
      | _ => simp

/-- What names lead to is a directory or an entry of one. -/
theorem Sound.walk (sound : tree.Sound) (single : ∀ name ∈ names, slash ∉ name)
    (begins : names ≠ [] ∨ tree.node? start = some .directory)
    (leads : tree.walk start names = .ok goal) :
    tree.node? goal = some .directory ∨
      ∃ outer name, slash ∉ name ∧ goal = child outer name ∧
        tree.node? outer = some .directory := by
  induction names generalizing start with
  | nil =>
      cases leads
      exact .inl (begins.resolve_left fun some' => some' rfl)
  | cons name rest ih =>
      obtain ⟨directory, -, onward⟩ := walk_cons_eq_ok_iff.1 leads
      have simple := single name List.mem_cons_self
      have others : ∀ name ∈ rest, slash ∉ name := fun name member =>
        single name (List.mem_cons_of_mem _ member)
      by_cases last : rest = []
      · subst last
        cases onward
        unfold follow
        split
        · exact .inl directory
        · split
          · exact .inl (sound.holder directory)
          · exact .inr ⟨start, name, simple, rfl, directory⟩
      · exact ih others (.inl last) onward

/-- The locations that names lead through. -/
def through : Bytes → List Bytes → List Bytes
  | _, [] => []
  | location, name :: rest => location :: through (follow location name) rest

theorem through_append (start : Bytes) (names : List Bytes) (name : Bytes) :
    through start (names ++ [name]) = through start names ++ [names.foldl follow start] := by
  induction names generalizing start with
  | nil => rfl
  | cons first rest ih =>
      rw [List.cons_append, through, through, ih]
      rfl

/-- Whatever names lead through is a directory. -/
theorem directory_of_through (leads : tree.walk start names = .ok goal) :
    ∀ location ∈ through start names, tree.node? location = some .directory := by
  induction names generalizing start with
  | nil => exact fun _ member => nomatch member
  | cons name rest ih =>
      obtain ⟨directory, -, onward⟩ := walk_cons_eq_ok_iff.1 leads
      intro location member
      rcases List.mem_cons.1 member with rfl | later
      · exact directory
      · exact ih onward location later

theorem walk_of_through (leads : tree.walk start names = .ok goal)
    (stay : ∀ location ∈ through start names, tree.node? location = some .directory →
      after.node? location = some .directory) : after.walk start names = .ok goal := by
  induction names generalizing start with
  | nil => exact leads
  | cons name rest ih =>
      obtain ⟨directory, short, onward⟩ := walk_cons_eq_ok_iff.1 leads
      exact walk_cons_eq_ok_iff.2 ⟨stay start List.mem_cons_self directory, short,
        ih onward fun location member => stay location (List.mem_cons_of_mem _ member)⟩

/-- Names that do not lead up lead through what holds their goal. -/
theorem within_of_through (straight : Path.above ∉ names) :
    ∀ location ∈ through start names, Within (names.foldl follow start) location := by
  have inward : ∀ (names : List Bytes) (start : Bytes), Path.above ∉ names →
      Within (names.foldl follow start) start := by
    intro names
    induction names with
    | nil => exact fun start _ => .refl start
    | cons name rest ih =>
        intro start straight
        obtain ⟨notAbove, straight⟩ := not_or.1 (List.mem_cons.not.1 straight)
        refine (ih (follow start name) straight).trans ?_
        unfold follow
        split
        · exact .refl start
        · rw [if_neg (by simpa using Ne.symm notAbove)]
          exact within_child start name
  induction names generalizing start with
  | nil => exact fun _ member => nomatch member
  | cons name rest ih =>
      intro location member
      rcases List.mem_cons.1 member with rfl | later
      · exact inward _ _ straight
      · exact ih (fun above => straight (List.mem_cons_of_mem _ above)) location later

/-- The locations that a path leads through, seen from the directory at `base`. -/
def passed (base path : Bytes) : List Bytes :=
  through (if Path.isAbsolute (spelled path) then [] else base) (Path.names (spelled path))

theorem resolve_eq_ok_iff :
    tree.resolve base path = .ok goal ↔
      spelled path ≠ [] ∧ (spelled path).length < pathLimit ∧
        tree.walk (if Path.isAbsolute (spelled path) then [] else base)
          (Path.names (spelled path)) = .ok goal := by
  unfold resolve
  dsimp only
  cases spelled path with
  | nil => simp
  | cons b rest =>
      by_cases short : (b :: rest).length < pathLimit
      · rw [if_neg (by simp), if_neg (by omega)]
        exact ⟨fun walks => ⟨List.cons_ne_nil b rest, short, walks⟩, fun leads => leads.2.2⟩
      · rw [if_neg (by simp), if_pos (by omega)]
        exact ⟨nofun, fun leads => absurd leads.2.1 short⟩

theorem names_of_bare (bare : slash ∉ path) : Path.names (spelled path) = [spelled path] := by
  refine splitWhere_solid fun b member => ?_
  simp only [beq_eq_false_iff_ne]
  rintro rfl
  exact bare ((List.takeWhile_sublist _).mem member)

/-- A path without a slash is a single name. -/
theorem resolve_bare (bare : slash ∉ path) (leads : tree.resolve base path = .ok location) :
    location = follow base (spelled path) := by
  have walks := (resolve_eq_ok_iff.1 leads).2.2
  rw [isAbsolute_spelled, isAbsolute_eq_false bare, names_of_bare bare] at walks
  exact walk_ok_eq_foldl walks

/-- A path leads where it led as long as there are directories on its way. -/
theorem resolve_of_passed (leads : tree.resolve base path = .ok goal)
    (stay : ∀ location ∈ passed base path, tree.node? location = some .directory →
      after.node? location = some .directory) : after.resolve base path = .ok goal := by
  obtain ⟨some', short, walks⟩ := resolve_eq_ok_iff.1 leads
  exact resolve_eq_ok_iff.2 ⟨some', short, walk_of_through walks stay⟩

/-- A path that does not lead up leads through nothing that its goal is not within. -/
theorem not_within_of_passed (leads : tree.resolve base path = .ok goal)
    (straight : Path.above ∉ Path.names (spelled path)) (outside : ¬ Within goal outer) :
    ∀ location ∈ passed base path, ¬ Within location outer := by
  intro location passes within
  have ahead := within_of_through straight location passes
  rw [← walk_ok_eq_foldl (resolve_eq_ok_iff.1 leads).2.2] at ahead
  exact outside (ahead.trans within)

/-- What a path leads to is a directory or an entry of one. -/
theorem Sound.resolve (sound : tree.Sound) (leads : tree.resolve base path = .ok goal) :
    tree.node? goal = some .directory ∨
      ∃ outer name, slash ∉ name ∧ goal = child outer name ∧
        tree.node? outer = some .directory :=
  sound.walk (not_mem_names _) (.inl (splitWhere_ne_nil _ _)) (resolve_eq_ok_iff.1 leads).2.2

/-! ## Making directories -/

/-- Directories were made where nothing was. -/
structure Grown (tree after : FileTree) : Prop where
  kept : ∀ location node, tree.node? location = some node → after.node? location = some node
  new : ∀ location, tree.node? location = none →
    after.node? location = none ∨ after.node? location = some .directory
  sound : tree.Sound → after.Sound

theorem Grown.refl (tree : FileTree) : Grown tree tree :=
  ⟨fun _ _ stands => stands, fun _ nothing => .inl nothing, id⟩

theorem Grown.trans {between : FileTree} (first : Grown tree between) (second : Grown between after) :
    Grown tree after where
  kept location node stands := second.kept location node (first.kept location node stands)
  new location nothing :=
    (first.new location nothing).elim (second.new location) fun made =>
      .inr (second.kept location _ made)
  sound sound := second.sound (first.sound sound)

/-- A node was put, nothing else has changed, and no directory is gone. -/
structure Puts (tree after : FileTree) (location : Bytes) (node : Node) : Prop where
  here : after.node? location = some node
  elsewhere : ∀ other, other ≠ location → after.node? other = tree.node? other
  directories : ∀ other, tree.node? other = some .directory → after.node? other = some .directory

theorem puts_put (free : tree.node? location ≠ some .directory) (node : Node) :
    Puts tree (tree.put location node) location node := by
  have notRoot : location ≠ [] := fun root => free (by rw [root]; rfl)
  have elsewhere : ∀ other, other ≠ location →
      (tree.put location node).node? other = tree.node? other := by
    intro other different
    rw [node?_put]
    split
    · rename_i root
      rw [root]
      rfl
    · rw [if_neg (Ne.symm different)]
  refine ⟨?_, elsewhere, fun other directory => ?_⟩
  · rw [node?_put, if_neg notRoot, if_pos rfl]
  · rw [elsewhere other fun same => free (same ▸ directory), directory]

/-- No directory is gone and nothing has changed but the file. -/
theorem rewriteAt_leaves {change : Bytes → Bytes}
    (changed : tree.rewriteAt location change = .ok after) :
    (∀ other, other ≠ location → after.node? other = tree.node? other) ∧
      ∀ other, tree.node? other = some .directory → after.node? other = some .directory := by
  rcases rewriteAt_cases changed with ⟨free, rfl⟩ | ⟨-, rfl⟩ | ⟨old, mode, stands, rfl⟩
  · have notDirectory : tree.node? location ≠ some .directory := by simp [free]
    have puts := puts_put notDirectory (.file (change []) newFileMode)
    exact ⟨puts.elsewhere, puts.directories⟩
  · exact ⟨fun _ _ => rfl, fun _ directory => directory⟩
  · have notDirectory : tree.node? location ≠ some .directory := by simp [stands]
    have puts := puts_put notDirectory (.file (change old) mode)
    exact ⟨puts.elsewhere, puts.directories⟩

/-- An entry of a directory may be put. -/
theorem Sound.put_child (sound : tree.Sound) (simple : slash ∉ name)
    (holds : tree.node? outer = some .directory)
    (free : tree.node? (child outer name) ≠ some .directory) (node : Node) :
    (tree.put (child outer name) node).Sound := by
  have puts := puts_put free node
  intro location other inside stands
  refine puts.directories other ?_
  by_cases same : location = child outer name
  · rw [same] at inside
    rcases Within.of_child simple inside with rfl | further
    · exact holds
    · exact sound.node?_eq_directory holds further
  · rw [puts.elsewhere location same] at stands
    exact sound location other inside stands

/-- A directory is made in a directory. -/
theorem put_directory_grown (nothing : tree.node? location = none)
    (leads : tree.resolve base path = .ok location) :
    Grown tree (tree.put location .directory) := by
  have free : tree.node? location ≠ some .directory := by simp [nothing]
  have puts := puts_put free .directory
  refine ⟨fun other node stands => ?_, fun other free => ?_, fun sound => ?_⟩
  · have different : other ≠ location := by
      rintro rfl
      cases nothing.symm.trans stands
    rw [puts.elsewhere other different, stands]
  · by_cases same : other = location
    · exact .inr (same ▸ puts.here)
    · exact .inl ((puts.elsewhere other same).trans free)
  · rcases sound.resolve leads with directory | ⟨holding, name, simple, rfl, holds⟩
    · cases nothing.symm.trans directory
    · exact sound.put_child simple holds free .directory

theorem makeDirectory_grown (made : tree.makeDirectory base path = .ok after) :
    Grown tree after := by
  unfold makeDirectory at made
  cases leads : tree.resolve base path with
  | error reason =>
      rw [leads] at made
      cases made
  | ok place =>
      rw [leads] at made
      dsimp only [bind, Except.bind] at made
      cases stands : tree.node? place with
      | some node =>
          rw [stands] at made
          cases node with
          | directory =>
              cases made
              exact .refl tree
          | _ => cases made
      | none =>
          rw [stands] at made
          cases made
          exact put_directory_grown stands leads

theorem makeEach_grown (paths : List Bytes) (tree : FileTree) :
    Grown tree (makeEach base paths tree).1 := by
  induction paths generalizing tree with
  | nil => exact .refl tree
  | cons path rest ih =>
      rw [makeEach]
      cases made : tree.makeDirectory base path with
      | error reason => exact .refl tree
      | ok between => exact (makeDirectory_grown made).trans (ih between)

theorem makeDirectories_grown (tree : FileTree) (base path : Bytes) :
    Grown tree (tree.makeDirectories base path).1 := by
  unfold makeDirectories
  split
  · exact .refl tree
  · split
    · exact .refl tree
    · exact .refl tree
    · dsimp only
      split
      · exact .refl tree
      · exact makeEach_grown _ tree
    · dsimp only
      split
      · exact .refl tree
      · exact makeEach_grown _ tree
    · exact .refl tree

end Assay.FileTree
