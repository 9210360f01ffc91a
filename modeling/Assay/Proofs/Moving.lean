/-
# Assay.Proofs.Moving -- what was moved is found where it was moved to

A tree is moved in one of two ways: what a path leads to is given another place, or it is
copied entry by entry and then removed.  Either way all that stood within the one location
stands within the other one and no third is disturbed (`Moved`), and nothing is left inside
the first but what the host does not let be removed (`Emptied`): `rename_moved` and
`copyAway_moved`.

Two entries of a sound tree never meet where they are put (`landing_ne`), even if a file goes
into a directory that stood in its way, so each copy stays as it was made (`copyEach_ok`).
-/
import Assay.Evaluation.Reward
import Assay.Proofs.Nesting
import Mathlib.Data.List.Induction

namespace Assay

set_option autoImplicit false

open Bytes

namespace FileTree

variable {tree after : FileTree} {base source target origin goal location : Bytes} {node : Node}

/-- All that stood within one location stands within the other: a file that met a directory
there is in it under its own name, anything else is as far below as it was.  What lies within
neither is as it was, and directories stay that are not taken away. -/
structure Moved (tree after : FileTree) (origin goal : Bytes) : Prop where
  carried : ∀ suffix node, Descends suffix → tree.node? (origin ++ suffix) = some node →
    after.node? (tree.landing (goal ++ suffix) node (Path.lastName (origin ++ suffix))) = some node
  elsewhere : ∀ location, ¬ Within location origin → ¬ Within location goal →
    after.node? location = tree.node? location
  directories : ∀ location, ¬ Within location origin → tree.node? location = some .directory →
    after.node? location = some .directory

/-- Nothing is left inside the location that the path led to but what was spared, and the
location itself is free just where the path named it and it was not spared. -/
structure Emptied (spared : Bytes → Bool) (after : FileTree) (origin source : Bytes) : Prop where
  inside : ∀ location, isInside location origin = true → spared location = false →
    after.node? location = none
  whole : after.node? origin = none ↔ namesItself source = true ∧ spared origin = false

/-! ## Taking away -/

theorem ne_nil_of_isInside {outer : Bytes} (inside : isInside location outer = true) :
    location ≠ [] := by
  obtain ⟨rest, rfl⟩ := isInside_iff.1 inside
  simp

theorem node?_of_ne_nil (tree : FileTree) (notRoot : location ≠ []) :
    tree.node? location = tree.nodes.get? location := by
  rw [node?, if_neg (by simpa using notRoot)]

theorem node?_dropAt_of_within (notRoot : location ≠ []) {outer : Bytes}
    (within : Within location outer) : (tree.dropAt outer).node? location = none := by
  rw [node?_of_ne_nil _ notRoot, dropAt,
    KeyMap.get?_filter tree.nodes fun other => other != outer && !isInside other outer, if_neg]
  rcases within with rfl | inside
  · simp
  · simp [inside]

theorem node?_dropAt_of_not_within {outer : Bytes} (outside : ¬ Within location outer) :
    (tree.dropAt outer).node? location = tree.node? location := by
  obtain ⟨notHere, notInside⟩ := not_or.1 outside
  by_cases root : location = []
  · rw [root]
    rfl
  · rw [node?_of_ne_nil _ root, node?_of_ne_nil _ root, dropAt,
      KeyMap.get?_filter tree.nodes fun other => other != outer && !isInside other outer, if_pos]
    simp [notHere, notInside]

/-! ## What is inside -/

theorem mem_inside_iff {outer : Bytes} :
    (location, node) ∈ tree.inside outer ↔
      isInside location outer = true ∧ tree.node? location = some node := by
  rw [inside, List.mem_filter, KeyMap.mem_toList_iff, and_comm]
  refine and_congr_right fun inside => ?_
  rw [node?_of_ne_nil _ (ne_nil_of_isInside inside)]

theorem inside_distinct (tree : FileTree) (outer : Bytes) :
    (tree.inside outer).Pairwise fun one other => one.1 ≠ other.1 := by
  have ascending : (tree.inside outer).Pairwise fun one other => one.1 < other.1 :=
    tree.nodes.ascending.filter _
  refine ascending.imp ?_
  intro one other less same
  rw [same] at less
  exact List.lt_irrefl other.1 less

/-- Locations within two that are not one within the other. -/
theorem not_within_of_within (outside : ¬ Within goal origin) (apart : ¬ Within origin goal)
    (within : Within location goal) : ¬ Within location origin :=
  fun inOrigin => (within.total inOrigin).elim outside apart

theorem landing_cases (tree : FileTree) (goal : Bytes) (node : Node) (name : Bytes) :
    (tree.landing goal node name = goal ∧
        (node = .directory ∨ tree.node? goal ≠ some .directory)) ∨
      (tree.landing goal node name = child goal name ∧ node ≠ .directory ∧
        tree.node? goal = some .directory) := by
  unfold landing
  split
  · exact .inl ⟨rfl, .inl rfl⟩
  · rename_i notDirectory stands
    exact .inr ⟨rfl, notDirectory, stands⟩
  · rename_i notDirectory
    exact .inl ⟨rfl, .inr notDirectory⟩

theorem landing_eq {name : Bytes}
    (free : tree.node? goal = some .directory → node = .directory) :
    tree.landing goal node name = goal := by
  rcases landing_cases tree goal node name with ⟨here, -⟩ | ⟨-, notDirectory, stands⟩
  · exact here
  · exact absurd (free stands) notDirectory

/-! ## Giving another place -/

theorem node?_foldl_put {entries : List (Bytes × Node)}
    (distinct : entries.Pairwise fun one other => one.1 ≠ other.1) (tree : FileTree) :
    (∀ entry ∈ entries, entry.1 ≠ [] →
      (entries.foldl (fun tree entry => tree.put entry.1 entry.2) tree).node? entry.1 =
        some entry.2) ∧
    ∀ location, (∀ entry ∈ entries, entry.1 ≠ location) →
      (entries.foldl (fun tree entry => tree.put entry.1 entry.2) tree).node? location =
        tree.node? location := by
  induction entries generalizing tree with
  | nil => exact ⟨fun _ member => (List.not_mem_nil member).elim, fun _ _ => rfl⟩
  | cons head rest ih =>
      obtain ⟨apart, distinct⟩ := List.pairwise_cons.1 distinct
      obtain ⟨there, kept⟩ := ih distinct (tree.put head.1 head.2)
      rw [List.foldl_cons]
      constructor
      · intro entry member notRoot
        rcases List.mem_cons.1 member with rfl | later
        · rw [kept _ fun other member => (apart other member).symm, node?_put, if_neg notRoot,
            if_pos rfl]
        · exact there entry later notRoot
      · intro location away
        rw [kept location fun entry member => away entry (List.mem_cons_of_mem _ member), node?_put]
        split
        · rename_i root
          rw [root]
          rfl
        · rw [if_neg (away head List.mem_cons_self)]

/-- An entry inside one location, as it is inside another. -/
def shift (origin goal : Bytes) (entry : Bytes × Node) : Bytes × Node :=
  (goal ++ entry.1.drop origin.length, entry.2)

/-- What stands inside a location, as it is put inside another one. -/
def shifted (tree : FileTree) (origin goal : Bytes) : List (Bytes × Node) :=
  (tree.inside origin).map (shift origin goal)

theorem mem_shifted {rest : Bytes} (stands : tree.node? (origin ++ slash :: rest) = some node) :
    (goal ++ slash :: rest, node) ∈ tree.shifted origin goal := by
  have member := mem_inside_iff.2 ⟨isInside_iff.2 ⟨rest, rfl⟩, stands⟩
  refine List.mem_map.2 ⟨_, member, ?_⟩
  rw [shift, List.drop_left]

theorem isInside_of_mem_shifted {entry : Bytes × Node} (member : entry ∈ tree.shifted origin goal) :
    isInside entry.1 goal = true := by
  obtain ⟨unmoved, isInside', rfl⟩ := List.mem_map.1 member
  obtain ⟨rest, unmoved_eq⟩ := isInside_iff.1 (mem_inside_iff.1 isInside').1
  refine isInside_iff.2 ⟨rest, ?_⟩
  rw [shift, unmoved_eq, List.drop_left]

theorem shifted_distinct (tree : FileTree) (origin goal : Bytes) :
    (tree.shifted origin goal).Pairwise fun one other => one.1 ≠ other.1 := by
  refine List.pairwise_map.2 ((inside_distinct tree origin).imp_of_mem ?_)
  intro one other isOne isOther different same
  obtain ⟨rest, one_eq⟩ := isInside_iff.1 (mem_inside_iff.1 isOne).1
  obtain ⟨more, other_eq⟩ := isInside_iff.1 (mem_inside_iff.1 isOther).1
  rw [shift, shift, one_eq, other_eq, List.drop_left, List.drop_left] at same
  rw [one_eq, other_eq, List.append_cancel_left same] at different
  exact different rfl

/-- What stands where after a move. -/
theorem moveAt_node? (tree : FileTree) (origin goal : Bytes) (node : Node) :
    (goal ≠ [] → (tree.moveAt origin goal node).node? goal = some node) ∧
    (∀ rest other, tree.node? (origin ++ slash :: rest) = some other →
      (tree.moveAt origin goal node).node? (goal ++ slash :: rest) = some other) ∧
    ∀ location, ¬ Within location goal →
      (tree.moveAt origin goal node).node? location = (tree.dropAt origin).node? location := by
  obtain ⟨there, kept⟩ :=
    node?_foldl_put (shifted_distinct tree origin goal) ((tree.dropAt origin).put goal node)
  change ∀ location, _ → (tree.moveAt origin goal node).node? location = _ at kept
  change ∀ entry ∈ tree.shifted origin goal, entry.1 ≠ [] →
    (tree.moveAt origin goal node).node? entry.1 = some entry.2 at there
  refine ⟨fun notRoot => ?_, fun rest other stands => ?_, fun location outside => ?_⟩
  · have away : ∀ entry ∈ tree.shifted origin goal, entry.1 ≠ goal := by
      intro entry member same
      have inside := isInside_of_mem_shifted member
      rw [same, not_isInside_self] at inside
      cases inside
    rw [kept goal away, node?_put, if_neg notRoot, if_pos rfl]
  · exact there _ (mem_shifted stands) (by simp)
  · have away : ∀ entry ∈ tree.shifted origin goal, entry.1 ≠ location :=
      fun entry member same => outside (.inr (same ▸ isInside_of_mem_shifted member))
    rw [kept location away, node?_put]
    split
    · rename_i root
      rw [root]
      rfl
    · rw [if_neg fun same => outside (.inl same.symm)]

/-- Nothing is in the way of what is given a place: a directory stands there only for a
directory, and nothing is inside. -/
structure Vacant (tree : FileTree) (goal : Bytes) (node : Node) : Prop where
  directory : tree.node? goal = some .directory → node = .directory
  empty : ∀ location, isInside location goal = true → tree.node? location = none

/-- What is given a vacant place is moved there. -/
theorem moveAt_moved (stands : tree.node? origin = some node) (vacant : tree.Vacant goal node)
    (outside : ¬ Within goal origin) (apart : ¬ Within origin goal) :
    Moved tree (tree.moveAt origin goal node) origin goal := by
  obtain ⟨atGoal, inGoal, elsewhere⟩ := moveAt_node? tree origin goal node
  have atGoal : (tree.moveAt origin goal node).node? goal = some node := by
    by_cases root : goal = []
    · rw [root, vacant.directory (by rw [root]; rfl)]
      rfl
    · exact atGoal root
  refine ⟨?_, ?_, ?_⟩
  · intro suffix other descends stands'
    cases suffix with
    | nil =>
        rw [List.append_nil] at stands' ⊢
        cases stands.symm.trans stands'
        rw [List.append_nil, landing_eq vacant.directory]
        exact atGoal
    | cons b rest =>
        cases descends.resolve_left (List.cons_ne_nil _ _)
        have free : tree.node? (goal ++ slash :: rest) = none :=
          vacant.empty _ (isInside_iff.2 ⟨rest, rfl⟩)
        rw [landing_eq fun directory => nomatch free.symm.trans directory]
        exact inGoal rest other stands'
  · intro location outside away
    rw [elsewhere location away, node?_dropAt_of_not_within outside]
  · intro location outside directory
    by_cases within : Within location goal
    · rcases within with rfl | inside
      · rw [atGoal, vacant.directory directory]
      · cases (vacant.empty location inside).symm.trans directory
    · rw [elsewhere location within, node?_dropAt_of_not_within outside, directory]

theorem moveAt_node?_of_within (notRoot : location ≠ []) (outside : ¬ Within goal origin)
    (apart : ¬ Within origin goal) (within : Within location origin) :
    (tree.moveAt origin goal node).node? location = none := by
  rw [(moveAt_node? tree origin goal node).2.2 location fun inGoal =>
    not_within_of_within outside apart inGoal within, node?_dropAt_of_within notRoot within]

/-- The name that is a path's own is the last one that leads anywhere. -/
theorem foldl_follow_of_getLast? {names : List Bytes} {name start : Bytes}
    (last : (names.filter fun name => !name.isEmpty).getLast? = some name)
    (notHere : name ≠ Path.here) (notAbove : name ≠ Path.above) :
    ∃ outer, names.foldl follow start = child outer name := by
  induction names using List.reverseRecOn with
  | nil => cases last
  | append_singleton front final ih =>
      rw [List.foldl_append, List.foldl_cons, List.foldl_nil]
      by_cases empty : final = []
      · rw [List.filter_append, empty] at last
        obtain ⟨outer, leads⟩ := ih (by simpa using last)
        exact ⟨outer, by rw [empty, leads]; rfl⟩
      · have isLast : final = name := by
          rw [List.filter_append, List.filter_cons_of_pos (by simp [empty])] at last
          simpa using last
        rw [← isLast] at notHere notAbove ⊢
        exact ⟨front.foldl follow start, by simp [follow, empty, notHere, notAbove]⟩

/-- What is named by a path is never the root. -/
theorem ne_nil_of_namesItself (named : namesItself source = true)
    (leads : tree.resolve base source = .ok origin) : origin ≠ [] := by
  unfold namesItself at named
  cases last : ((Path.names (spelled source)).filter fun name => !name.isEmpty).getLast? with
  | none => simp [last] at named
  | some name =>
      simp only [last, Bool.and_eq_true, bne_iff_ne, ne_eq, Option.some.injEq] at named
      obtain ⟨outer, ends⟩ := foldl_follow_of_getLast? last named.1.2 named.2
      rw [walk_ok_eq_foldl (resolve_eq_ok_iff.1 leads).2.2, ends]
      simp [child]

/-- What `rename` does when it is not refused. -/
theorem rename_cases (sound : tree.Sound) (renamed : tree.rename base source target = .ok after)
    (fromHere : tree.resolve base source = .ok origin)
    (toThere : tree.resolve base target = .ok goal) :
    namesItself source = true ∧ ∃ node, tree.node? origin = some node ∧
      (origin = goal ∧ after = tree ∨
        origin ≠ goal ∧ isInside goal origin = false ∧ tree.Vacant goal node ∧
          after = tree.moveAt origin goal node) := by
  simp only [rename, fromHere, toThere, bind, Except.bind] at renamed
  split at renamed
  · cases renamed
  rename_i named
  have named : namesItself source = true := by
    by_contra unnamed
    exact named (by simp [unnamed])
  refine ⟨named, ?_⟩
  cases stands : tree.node? origin with
  | none =>
      rw [stands] at renamed
      cases renamed
  | some node =>
      rw [stands] at renamed
      dsimp only at renamed
      refine ⟨node, rfl, ?_⟩
      split at renamed
      · rename_i same
        cases renamed
        exact .inl ⟨same, rfl⟩
      · rename_i different
        split at renamed
        · cases renamed
        · rename_i outside
          refine .inr ⟨different, Bool.eq_false_iff.2 outside, ?_⟩
          split at renamed
          · rename_i free
            cases renamed
            have notDirectory : tree.node? goal ≠ some .directory := by simp [free]
            exact ⟨⟨fun directory => absurd directory notDirectory,
              fun _ => sound.node?_eq_none notDirectory⟩, rfl⟩
          · rename_i directory
            split at renamed
            · rename_i empty
              cases renamed
              refine ⟨⟨fun _ => rfl, fun location inside => ?_⟩, rfl⟩
              cases stands : tree.node? location with
              | none => rfl
              | some other =>
                  have member := mem_inside_iff.2 ⟨inside, stands⟩
                  rw [List.isEmpty_iff.1 empty] at member
                  cases member
            · cases renamed
          · cases renamed
          · cases renamed
          · rename_i stood notDirectory _ _ isFile
            cases renamed
            have file : tree.node? goal ≠ some .directory := fun directory =>
              notDirectory (Option.some.inj (isFile.symm.trans directory))
            exact ⟨⟨fun directory => absurd directory file, fun _ => sound.node?_eq_none file⟩, rfl⟩

theorem rename_resolves (renamed : tree.rename base source target = .ok after) :
    ∃ goal, tree.resolve base target = .ok goal := by
  unfold rename at renamed
  cases fromHere : tree.resolve base source with
  | error reason =>
      rw [fromHere] at renamed
      cases renamed
  | ok origin =>
      cases toThere : tree.resolve base target with
      | ok goal => exact ⟨goal, rfl⟩
      | error reason =>
          rw [fromHere, toThere] at renamed
          cases renamed

/-- What could be given another place was moved. -/
theorem rename_moved (sound : tree.Sound) (renamed : tree.rename base source target = .ok after)
    (fromHere : tree.resolve base source = .ok origin)
    (toThere : tree.resolve base target = .ok goal) :
    isInside goal origin = false ∧ (origin = goal → after = tree) ∧
      (origin ≠ goal → isInside origin goal = false ∧ Moved tree after origin goal ∧
        Emptied (fun _ => false) after origin source) := by
  obtain ⟨named, node, stands, ⟨rfl, rfl⟩ | ⟨different, outside, vacant, rfl⟩⟩ :=
    rename_cases sound renamed fromHere toThere
  · exact ⟨not_isInside_self origin, fun _ => rfl, fun different => absurd rfl different⟩
  · have apart : isInside origin goal = false := by
      rw [Bool.eq_false_iff]
      intro inside
      cases (vacant.empty origin inside).symm.trans stands
    have outside' : ¬ Within goal origin :=
      not_or.2 ⟨Ne.symm different, Bool.eq_false_iff.1 outside⟩
    have apart' : ¬ Within origin goal := not_or.2 ⟨different, Bool.eq_false_iff.1 apart⟩
    refine ⟨outside, fun same => absurd same different, fun _ =>
      ⟨apart, moveAt_moved stands vacant outside' apart', ?_, ?_⟩⟩
    · exact fun location inside _ =>
        moveAt_node?_of_within (ne_nil_of_isInside inside) outside' apart' (.inr inside)
    · exact iff_of_true (moveAt_node?_of_within (ne_nil_of_namesItself named fromHere) outside'
        apart' (.refl origin)) ⟨named, rfl⟩

/-! ## Copying -/

/-- Two entries of a sound tree: they stand apart, and neither is inside a file. -/
structure Distinct (one other : Bytes × Node) : Prop where
  ne : one.1 ≠ other.1
  notInside : one.2 ≠ .directory → isInside other.1 one.1 = false
  notAround : other.2 ≠ .directory → isInside one.1 other.1 = false

/-- The entries that are copied. -/
def entries (tree : FileTree) (origin : Bytes) (node : Node) : List (Bytes × Node) :=
  (origin, node) :: tree.inside origin

theorem mem_entries_iff (stands : tree.node? origin = some node) {other : Node} :
    (location, other) ∈ tree.entries origin node ↔
      Within location origin ∧ tree.node? location = some other := by
  rw [entries, List.mem_cons, mem_inside_iff, Within]
  constructor
  · rintro (same | ⟨inside, stands'⟩)
    · cases same
      exact ⟨.inl rfl, stands⟩
    · exact ⟨.inr inside, stands'⟩
  · rintro ⟨rfl | inside, stands'⟩
    · cases stands.symm.trans stands'
      exact .inl rfl
    · exact .inr ⟨inside, stands'⟩

theorem Sound.distinct_entries (sound : tree.Sound) (stands : tree.node? origin = some node) :
    (tree.entries origin node).Pairwise Distinct := by
  have different : (tree.entries origin node).Pairwise fun one other => one.1 ≠ other.1 := by
    refine List.pairwise_cons.2 ⟨fun entry member same => ?_, inside_distinct tree origin⟩
    have inside := (mem_inside_iff.1 member).1
    rw [← same, not_isInside_self] at inside
    cases inside
  have notInside : ∀ one ∈ tree.entries origin node, ∀ other ∈ tree.entries origin node,
      one.2 ≠ .directory → isInside other.1 one.1 = false := by
    intro one isOne other isOther file
    rw [Bool.eq_false_iff]
    intro inside
    have directory := sound.node?_eq_directory ((mem_entries_iff stands).1 isOther).2 inside
    exact file (Option.some.inj (((mem_entries_iff stands).1 isOne).2.symm.trans directory))
  refine different.imp_of_mem ?_
  intro one other isOne isOther ne
  exact ⟨ne, notInside one isOne other isOther, notInside other isOther one isOne⟩

theorem slash_not_mem_lastName (path : Bytes) : slash ∉ Path.lastName path := by
  rw [Path.lastName, List.mem_reverse]
  intro member
  have other := List.all_eq_true.1 (List.all_takeWhile (p := (· != slash)) (l := path.reverse))
    slash member
  exact absurd other (by decide)

theorem isInside_child (location name : Bytes) : isInside (child location name) location = true :=
  isInside_iff.2 ⟨name, rfl⟩

theorem isInside_append (outer location other : Bytes) :
    isInside (outer ++ location) (outer ++ other) = isInside location other := by
  rw [Bool.eq_iff_iff, isInside_iff, isInside_iff]
  simp only [List.append_assoc, List.append_cancel_left_eq]

section

variable {one other : Bytes × Node} (distinct : Distinct one other) (tree)

include distinct

/-- What is put for one entry is not in the way of the other. -/
theorem landing_ne_left (name : Bytes) : tree.landing one.1 one.2 name ≠ other.1 := by
  rcases landing_cases tree one.1 one.2 name with ⟨here, -⟩ | ⟨below, file, -⟩
  · rw [here]
    exact distinct.ne
  · intro same
    have inside := isInside_child one.1 name
    rw [← below, same, distinct.notInside file] at inside
    cases inside

/-- Distinct entries do not meet where they land. -/
theorem landing_ne {name name' : Bytes} (simple : slash ∉ name) (simple' : slash ∉ name') :
    tree.landing one.1 one.2 name ≠ tree.landing other.1 other.2 name' := by
  rcases landing_cases tree other.1 other.2 name' with ⟨here', -⟩ | ⟨below', file', -⟩
  · rw [here']
    exact landing_ne_left tree distinct name
  · rcases landing_cases tree one.1 one.2 name with ⟨here, -⟩ | ⟨below, -⟩
    · intro same
      have inside := isInside_child other.1 name'
      rw [← below', ← same, here, distinct.notAround file'] at inside
      cases inside
    · intro same
      rw [below, below'] at same
      have held := congrArg holder same
      rw [holder_child simple, holder_child simple'] at held
      exact distinct.ne held

end

theorem landing_congr (same : after.node? goal = tree.node? goal) (node : Node) (name : Bytes) :
    after.landing goal node name = tree.landing goal node name := by
  unfold landing
  rw [same]

/-- Entries that are distinct inside one location are so inside another. -/
theorem Distinct.shift {one other : Bytes × Node} (distinct : Distinct one other) (goal : Bytes)
    (isOne : Within one.1 origin) (isOther : Within other.1 origin) :
    Distinct (shift origin goal one) (shift origin goal other) := by
  obtain ⟨place, node⟩ := one
  obtain ⟨place', node'⟩ := other
  obtain ⟨suffix, -, rfl⟩ := within_iff.1 isOne
  obtain ⟨suffix', -, rfl⟩ := within_iff.1 isOther
  obtain ⟨ne, notInside, notAround⟩ := distinct
  dsimp only [FileTree.shift] at ne notInside notAround ⊢
  rw [List.drop_left, List.drop_left]
  rw [isInside_append] at notInside notAround
  refine ⟨?_, ?_, ?_⟩
  · simpa using ne
  · dsimp only
    rwa [isInside_append]
  · dsimp only
    rwa [isInside_append]

/-- Where an entry is put that is copied. -/
def place (tree : FileTree) (origin goal : Bytes) (entry : Bytes × Node) : Bytes :=
  tree.landing (shift origin goal entry).1 entry.2 (Path.lastName entry.1)

/-- A node that was copied was put, or it is a directory that stood there. -/
theorem copyNode_puts (copied : tree.copyNode node location = (after, none)) :
    Puts tree after location node := by
  unfold copyNode at copied
  split at copied
  · cases copied
  · cases copied
  · rename_i free
    cases copied
    exact puts_put (by simp [free]) .directory
  · rename_i directory
    cases copied
    exact ⟨directory, fun _ _ => rfl, fun _ stands => stands⟩
  · cases copied
  · cases copied
  · split at copied
    · rename_i notDirectory _ _ _ _
      cases copied
      exact puts_put notDirectory _
    · cases copied

/-- Each of the entries is where it was put: none of them is in the way of another. -/
theorem copyEach_ok {entries : List (Bytes × Node)} (distinct : entries.Pairwise Distinct)
    (within : ∀ entry ∈ entries, Within entry.1 origin)
    (copied : copyEach origin goal entries tree = (after, none)) :
    (∀ entry ∈ entries, after.node? (tree.place origin goal entry) = some entry.2) ∧
      (∀ location, (∀ entry ∈ entries, tree.place origin goal entry ≠ location) →
        after.node? location = tree.node? location) ∧
      ∀ location, tree.node? location = some .directory → after.node? location = some .directory := by
  induction entries generalizing tree with
  | nil =>
      cases copied
      exact ⟨fun _ member => (List.not_mem_nil member).elim, fun _ _ => rfl, fun _ stands => stands⟩
  | cons head rest ih =>
      obtain ⟨apart, distinct⟩ := List.pairwise_cons.1 distinct
      have isHead := within head List.mem_cons_self
      have inRest : ∀ entry ∈ rest, Within entry.1 origin := fun entry member =>
        within entry (List.mem_cons_of_mem _ member)
      rw [copyEach] at copied
      split at copied
      · cases copied
      split at copied
      · rename_i between put
        change tree.copyNode head.2 (tree.place origin goal head) = (between, none) at put
        have puts := copyNode_puts put
        obtain ⟨there, kept, stay⟩ := ih distinct inRest copied
        -- What was put for the head neither makes nor takes away a directory that the others meet.
        have samePlace : ∀ entry ∈ rest,
            between.place origin goal entry = tree.place origin goal entry := by
          intro entry member
          have shifted := (apart entry member).shift goal isHead (inRest entry member)
          exact landing_congr (puts.elsewhere _ (landing_ne_left tree shifted _).symm) _ _
        have others : ∀ entry ∈ rest,
            tree.place origin goal head ≠ tree.place origin goal entry := by
          intro entry member
          have shifted := (apart entry member).shift goal isHead (inRest entry member)
          exact landing_ne tree shifted (slash_not_mem_lastName _) (slash_not_mem_lastName _)
        refine ⟨fun entry member => ?_, fun location away => ?_, fun location directory =>
          stay location (puts.directories location directory)⟩
        · rcases List.mem_cons.1 member with rfl | later
          · rw [kept _ fun entry member => samePlace entry member ▸ (others entry member).symm]
            exact puts.here
          · rw [← samePlace entry later]
            exact there entry later
        · rw [kept location fun entry member =>
            samePlace entry member ▸ away entry (List.mem_cons_of_mem _ member)]
          exact puts.elsewhere location (away head List.mem_cons_self).symm
      · cases copied

theorem copy_resolves {stop : Option (Nat × FileError)}
    (copied : tree.copy stop base source target = (after, none)) :
    ∃ goal, tree.resolve base target = .ok goal := by
  unfold copy at copied
  cases toThere : tree.resolve base target with
  | ok goal => exact ⟨goal, rfl⟩
  | error reason =>
      rw [toThere] at copied
      split at copied <;> cases copied

/-- What was copied was not stopped. -/
theorem copyUpTo_ok {stop : Option (Nat × FileError)} {entries : List (Bytes × Node)}
    (copied : copyUpTo stop origin goal entries tree = (after, none)) :
    stop = none ∧ copyEach origin goal entries tree = (after, none) := by
  unfold copyUpTo at copied
  split at copied
  · exact ⟨rfl, copied⟩
  · split at copied
    · cases copied
    · rename_i refused
      exact absurd copied (refused after)

/-- What `copy` does when it is not refused. -/
theorem copy_cases {stop : Option (Nat × FileError)}
    (copied : tree.copy stop base source target = (after, none))
    (fromHere : tree.resolve base source = .ok origin)
    (toThere : tree.resolve base target = .ok goal) :
    stop = none ∧ origin ≠ goal ∧ isInside goal origin = false ∧
      ∃ node, tree.node? origin = some node ∧
        copyEach origin goal (tree.entries origin node) tree = (after, none) := by
  unfold copy at copied
  rw [fromHere] at copied
  cases stands : tree.look base source with
  | error reason =>
      rw [stands] at copied
      cases copied
  | ok node =>
      rw [stands] at copied
      dsimp only at copied
      rw [toThere] at copied
      dsimp only at copied
      split at copied
      · cases copied
      · rename_i different
        split at copied
        · cases copied
        · rename_i outside
          obtain ⟨unstopped, copied⟩ := copyUpTo_ok copied
          refine ⟨unstopped, different, Bool.eq_false_iff.2 outside, node, ?_, copied⟩
          unfold look at stands
          simp only [fromHere, bind, Except.bind] at stands
          split at stands
          · rename_i found
            cases stands
            exact found
          · cases stands

theorem within_landing (tree : FileTree) (goal : Bytes) (node : Node) (name : Bytes) :
    Within (tree.landing goal node name) goal := by
  rcases landing_cases tree goal node name with ⟨here, -⟩ | ⟨below, -⟩
  · exact .inl here
  · rw [below]
    exact within_child goal name

/-- What a copy leaves: nothing is gone, no directory is replaced, and what lies outside of the
goal is as it was. -/
structure Copied (tree after : FileTree) (origin goal : Bytes) : Prop where
  carried : ∀ suffix node, Descends suffix → tree.node? (origin ++ suffix) = some node →
    after.node? (tree.landing (goal ++ suffix) node (Path.lastName (origin ++ suffix))) = some node
  elsewhere : ∀ location, ¬ Within location goal → after.node? location = tree.node? location
  directories : ∀ location, tree.node? location = some .directory →
    after.node? location = some .directory
  stay : ∀ location, tree.node? location ≠ none → after.node? location ≠ none

/-- What was copied is there. -/
theorem copy_ok {stop : Option (Nat × FileError)} (sound : tree.Sound)
    (copied : tree.copy stop base source target = (after, none))
    (fromHere : tree.resolve base source = .ok origin)
    (toThere : tree.resolve base target = .ok goal) :
    stop = none ∧ origin ≠ goal ∧ isInside goal origin = false ∧ tree.node? origin ≠ none ∧
      Copied tree after origin goal := by
  obtain ⟨unstopped, different, outside, node, stands, copied⟩ := copy_cases copied fromHere toThere
  have within : ∀ entry ∈ tree.entries origin node, Within entry.1 origin :=
    fun entry member => ((mem_entries_iff stands).1 member).1
  obtain ⟨there, kept, directories⟩ := copyEach_ok (sound.distinct_entries stands) within copied
  refine ⟨unstopped, different, outside, stands ▸ Option.some_ne_none node, ?_, ?_, directories, ?_⟩
  · intro suffix node descends stands'
    have copied := there (origin ++ suffix, node)
      ((mem_entries_iff stands).2 ⟨within_append origin descends, stands'⟩)
    rw [place, shift, List.drop_left] at copied
    exact copied
  · intro location away
    refine kept location fun entry member same => away ?_
    obtain ⟨suffix, descends, isHere⟩ := within_iff.1 (within entry member)
    have landed := within_landing tree (shift origin goal entry).1 entry.2 (Path.lastName entry.1)
    rw [← same]
    refine landed.trans ?_
    rw [shift, isHere, List.drop_left]
    exact within_append goal descends
  · intro location stands'
    by_cases isPlace : ∃ entry ∈ tree.entries origin node, tree.place origin goal entry = location
    · obtain ⟨entry, member, rfl⟩ := isPlace
      rw [there entry member]
      exact Option.some_ne_none _
    · rw [kept location fun entry member same => isPlace ⟨entry, member, same⟩]
      exact stands'

/-! ## Removing -/

theorem node?_removeAll (leads : tree.resolve base source = .ok origin) (spared : Bytes → Bool)
    (location : Bytes) :
    (tree.removeAll spared base source).node? location =
      if location ≠ [] ∧ goesWith source origin location = true ∧ spared location = false then none
      else tree.node? location := by
  by_cases root : location = []
  · rw [root, if_neg fun goes => goes.1 rfl]
    rfl
  · rw [node?_of_ne_nil _ root, node?_of_ne_nil _ root, removeAll, leads]
    dsimp only
    rw [KeyMap.get?_filter tree.nodes fun other => spared other || !goesWith source origin other]
    cases spared location <;> cases goesWith source origin location <;> simp [root]

/-- What is removed is gone if it was not spared, and what lies outside of it is as it was. -/
theorem removeAll_ok (leads : tree.resolve base source = .ok origin)
    (stands : tree.node? origin ≠ none) (spared : Bytes → Bool) :
    Emptied spared (tree.removeAll spared base source) origin source ∧
      ∀ location, ¬ Within location origin →
        (tree.removeAll spared base source).node? location = tree.node? location := by
  have removed := node?_removeAll leads spared
  refine ⟨⟨fun location inside notSpared => ?_, ?_⟩, fun location outside => ?_⟩
  · rw [removed, if_pos ⟨ne_nil_of_isInside inside, by simp [goesWith, inside], notSpared⟩]
  · rw [removed]
    split
    · rename_i goes
      obtain ⟨-, named, notSpared⟩ := goes
      simpa [goesWith, not_isInside_self, notSpared] using named
    · rename_i stays
      refine iff_of_false stands fun ⟨named, notSpared⟩ => stays ?_
      exact ⟨ne_nil_of_namesItself named leads, by simp [goesWith, named], notSpared⟩
  · obtain ⟨notHere, notInside⟩ := not_or.1 outside
    rw [removed, if_neg]
    simp [goesWith, notHere, notInside]

end FileTree

namespace Evaluation.Rewarder

open FileTree

variable {refusals : Refusals}

/-- What was copied away was moved; what the host does not let be removed is still there. -/
theorem copyAway_moved {host : Host} {source target origin goal : Bytes} {after : FileTree}
    (sound : host.files.Sound) (away : copyAway refusals host source target = (after, none))
    (fromHere : host.files.resolve host.directory source = .ok origin)
    (toThere : host.files.resolve host.directory target = .ok goal) :
    refusals.copying = none ∧ isInside goal origin = false ∧ origin ≠ goal ∧
      Emptied refusals.removing after origin source ∧
      (isInside origin goal = false → Moved host.files after origin goal) := by
  unfold copyAway at away
  split at away
  · rename_i between done
    cases away
    obtain ⟨unstopped, different, outside, stands, copied⟩ := copy_ok sound done fromHere toThere
    have leads : between.resolve host.directory source = .ok origin :=
      resolve_of_passed fromHere fun location _ => copied.directories location
    obtain ⟨emptied, kept⟩ := removeAll_ok leads (copied.stay origin stands) refusals.removing
    refine ⟨unstopped, outside, different, emptied, fun apart => ?_⟩
    have outside' : ¬ Within goal origin :=
      not_or.2 ⟨Ne.symm different, Bool.eq_false_iff.1 outside⟩
    have apart' : ¬ Within origin goal := not_or.2 ⟨different, Bool.eq_false_iff.1 apart⟩
    refine ⟨?_, ?_, ?_⟩
    · intro suffix node descends stands'
      have landed := (within_landing host.files (goal ++ suffix) node
        (Path.lastName (origin ++ suffix))).trans (within_append goal descends)
      rw [kept _ (not_within_of_within outside' apart' landed)]
      exact copied.carried suffix node descends stands'
    · intro location outside away
      rw [kept location outside, copied.elsewhere location away]
    · intro location outside directory
      rw [kept location outside]
      exact copied.directories location directory
  · rename_i failed
    exact (failed after away).elim

theorem directoryAfter_eq {host : Host} {source target origin : Bytes}
    (fromHere : host.files.resolve host.directory source = .ok origin)
    (away : ¬ Within host.directory origin) :
    directoryAfter host source target = host.directory := by
  unfold directoryAfter
  rw [fromHere]
  cases host.files.resolve host.directory target with
  | error reason => rfl
  | ok goal => exact if_neg away

/-- What was moved somewhere was moved to where the target leads. -/
theorem moveTree_resolves {host after : Host} {source target : Bytes}
    (moved : moveTree refusals host source target = (after, none)) :
    ∃ goal, host.files.resolve host.directory target = .ok goal := by
  unfold moveTree at moved
  split at moved
  · rename_i files _ renamed
    exact rename_resolves renamed
  · split at moved
    rename_i files failure away
    cases moved
    unfold copyAway at away
    split at away
    · rename_i between copied
      exact copy_resolves copied
    · rename_i failed
      exact (failed files away).elim

/-- The host refuses nothing that the one way to move takes: what was not copied was given
another place, and a copy was not stopped. -/
structure Refusals.Permits (refusals : Refusals) (copied : Bool) : Prop where
  placing : copied = false → refusals.placing = false
  copying : copied = true → refusals.copying = .none

/-- What stays where it was when it was moved in one of the two ways. -/
def Refusals.spared (refusals : Refusals) (copied : Bool) (location : Bytes) : Bool :=
  copied && refusals.removing location

/-- What stays keeps the directories around it, so nothing stays in one that is gone. -/
theorem Refusals.spared_of_isInside (refusals : Refusals) {copied : Bool} {location outer : Bytes}
    (inside : isInside location outer = true) (gone : refusals.spared copied outer = false) :
    refusals.spared copied location = false := by
  cases copied with
  | false => rfl
  | true =>
      rw [Bool.eq_false_iff]
      exact fun stays => Bool.eq_false_iff.1 gone (refusals.around location outer inside stays)

/-- **What was moved, in one way or the other, is found where it was moved to.** -/
theorem moveTree_moved {host after : Host} {source target origin goal : Bytes}
    (sound : host.files.Sound) (moved : moveTree refusals host source target = (after, none))
    (fromHere : host.files.resolve host.directory source = .ok origin)
    (toThere : host.files.resolve host.directory target = .ok goal) :
    after.logger = host.logger ∧
      (¬ Within host.directory origin → after.directory = host.directory) ∧
      isInside goal origin = false ∧ ∃ copied, refusals.Permits copied ∧
        (origin = goal → copied = false ∧ after.files = host.files) ∧
        (origin ≠ goal → Emptied (refusals.spared copied) after.files origin source ∧
          (isInside origin goal = false → Moved host.files after.files origin goal)) := by
  unfold moveTree at moved
  split at moved
  · rename_i files placing renamed
    cases moved
    obtain ⟨outside, same, different⟩ := rename_moved sound renamed fromHere toThere
    exact ⟨rfl, directoryAfter_eq fromHere, outside, false, ⟨fun _ => placing, nofun⟩,
      fun isGoal => ⟨rfl, same isGoal⟩,
      fun isOther => ⟨(different isOther).2.2, fun _ => (different isOther).2.1⟩⟩
  · split at moved
    rename_i files failure away
    cases moved
    obtain ⟨unstopped, outside, different, emptied, moved⟩ :=
      copyAway_moved sound away fromHere toThere
    exact ⟨rfl, fun _ => rfl, outside, true, ⟨nofun, fun _ => unstopped⟩,
      fun same => absurd same different, fun _ => ⟨emptied, moved⟩⟩

end Evaluation.Rewarder

end Assay
