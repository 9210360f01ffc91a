/-
# Assay.KeyMap -- finite maps from byte strings

A `KeyMap` keeps its entries in ascending order of keys, each key once, so that
two maps with the same look-ups are equal (`ext_get?`) and every listing of a
map is in key order.  `get?_insert` says what `insert` does to the look-ups, and
`get?_override` what laying one map over another does.
-/
import Assay.Bytes.Basic

namespace Assay

set_option autoImplicit false

/-- A finite map from byte strings, its entries in ascending order of keys. -/
structure KeyMap (α : Type) where
  entries : List (Bytes × α)
  ascending : entries.Pairwise fun a b => a.1 < b.1

namespace KeyMap

variable {α β : Type}

/-! ## Entry lists -/

def insertEntry (key : Bytes) (value : α) : List (Bytes × α) → List (Bytes × α)
  | [] => [(key, value)]
  | entry :: rest =>
      if key < entry.1 then (key, value) :: entry :: rest
      else if key = entry.1 then (key, value) :: rest
      else entry :: insertEntry key value rest

def findEntry (key : Bytes) : List (Bytes × α) → Option α
  | [] => none
  | entry :: rest => if entry.1 = key then some entry.2 else findEntry key rest

theorem lt_of_not_lt_of_ne {a b : Bytes} (notLess : ¬ a < b) (different : a ≠ b) : b < a := by
  rcases Std.Trichotomous.rel_or_eq_or_rel_swap (r := fun x y : Bytes => x < y) (a := a) (b := b)
    with less | same | greater
  · exact absurd less notLess
  · exact absurd same different
  · exact greater

theorem mem_insertEntry {key : Bytes} {value : α} {entry : Bytes × α} {entries : List (Bytes × α)}
    (member : entry ∈ insertEntry key value entries) :
    entry = (key, value) ∨ entry ∈ entries := by
  induction entries with
  | nil => simpa [insertEntry] using member
  | cons head rest ih =>
      simp only [insertEntry] at member
      split at member
      · simpa using member
      · split at member
        · rcases List.mem_cons.1 member with h | h
          · exact Or.inl h
          · exact Or.inr (List.mem_cons_of_mem _ h)
        · rcases List.mem_cons.1 member with h | h
          · exact Or.inr (h ▸ List.mem_cons_self)
          · exact (ih h).imp_right (List.mem_cons_of_mem _)

theorem insertEntry_perm {key : Bytes} (value : α) {entries : List (Bytes × α)}
    (free : ∀ entry ∈ entries, entry.1 ≠ key) :
    (insertEntry key value entries).Perm ((key, value) :: entries) := by
  induction entries with
  | nil => exact List.Perm.refl _
  | cons head rest ih =>
      have other := free head List.mem_cons_self
      have rest' := ih fun entry member => free entry (List.mem_cons_of_mem _ member)
      simp only [insertEntry, if_neg (Ne.symm other)]
      split
      · exact List.Perm.refl _
      · exact (rest'.cons head).trans (List.Perm.swap _ _ _)

theorem insertEntry_ascending (key : Bytes) (value : α) {entries : List (Bytes × α)}
    (ascending : entries.Pairwise fun a b => a.1 < b.1) :
    (insertEntry key value entries).Pairwise fun a b => a.1 < b.1 := by
  induction entries with
  | nil => simp [insertEntry]
  | cons head rest ih =>
      have above := (List.pairwise_cons.1 ascending).1
      have restAscending := (List.pairwise_cons.1 ascending).2
      simp only [insertEntry]
      split
      · rename_i less
        refine List.pairwise_cons.2 ⟨fun entry member => ?_, ascending⟩
        rcases List.mem_cons.1 member with rfl | inRest
        · exact less
        · exact List.lt_trans less (above entry inRest)
      · rename_i notLess
        split
        · rename_i same
          exact List.pairwise_cons.2 ⟨fun entry member => same ▸ above entry member, restAscending⟩
        · rename_i different
          refine List.pairwise_cons.2 ⟨fun entry member => ?_, ih restAscending⟩
          rcases mem_insertEntry member with rfl | inRest
          · exact lt_of_not_lt_of_ne notLess different
          · exact above entry inRest

theorem findEntry_insertEntry (key other : Bytes) (value : α) (entries : List (Bytes × α)) :
    findEntry other (insertEntry key value entries) =
      if key = other then some value else findEntry other entries := by
  induction entries with
  | nil => simp [insertEntry, findEntry]
  | cons head rest ih =>
      simp only [insertEntry]
      split
      · simp [findEntry]
      · split
        · rename_i same
          subst same
          by_cases h : head.1 = other <;> simp [findEntry, h]
        · rename_i different
          simp only [findEntry, ih]
          by_cases h : head.1 = other
          · subst h
            simp [different]
          · simp [h]

theorem findEntry_filter (keep : Bytes → Bool) (key : Bytes) (entries : List (Bytes × α)) :
    findEntry key (entries.filter fun entry => keep entry.1) =
      if keep key = true then findEntry key entries else none := by
  induction entries with
  | nil => simp [findEntry]
  | cons head rest ih =>
      by_cases kept : keep head.1 = true
      · rw [List.filter_cons_of_pos (by simp [kept]), findEntry, findEntry, ih]
        by_cases same : head.1 = key
        · rw [if_pos same, if_pos same, if_pos (same ▸ kept)]
        · rw [if_neg same, if_neg same]
      · rw [List.filter_cons_of_neg (by simp [kept]), ih, findEntry]
        by_cases same : head.1 = key
        · rw [if_neg (same ▸ kept), if_neg (same ▸ kept)]
        · rw [if_neg same]

theorem findEntry_eq_none {key : Bytes} {entries : List (Bytes × α)}
    (above : ∀ entry ∈ entries, key < entry.1) : findEntry key entries = none := by
  induction entries with
  | nil => rfl
  | cons head rest ih =>
      have less := above head List.mem_cons_self
      have different : head.1 ≠ key := fun same => List.lt_irrefl key (same ▸ less)
      simp only [findEntry, different, if_false]
      exact ih fun entry member => above entry (List.mem_cons_of_mem _ member)

theorem findEntry_eq_some_iff {key : Bytes} {value : α} {entries : List (Bytes × α)}
    (ascending : entries.Pairwise fun a b => a.1 < b.1) :
    findEntry key entries = some value ↔ (key, value) ∈ entries := by
  induction entries with
  | nil => simp [findEntry]
  | cons head rest ih =>
      obtain ⟨above, restAscending⟩ := List.pairwise_cons.1 ascending
      by_cases same : head.1 = key
      · have missing : (key, value) ∉ rest := fun member =>
          List.lt_irrefl key (same ▸ above (key, value) member)
        simp [findEntry, Prod.ext_iff, same, missing, eq_comm]
      · have different : (key, value) ≠ head := fun isHead => same (isHead ▸ rfl)
        simp [findEntry, same, ih restAscending, different]

theorem eq_of_findEntry {left right : List (Bytes × α)}
    (leftAscending : left.Pairwise fun a b => a.1 < b.1)
    (rightAscending : right.Pairwise fun a b => a.1 < b.1)
    (same : ∀ key, findEntry key left = findEntry key right) : left = right := by
  induction left generalizing right with
  | nil =>
      cases right with
      | nil => rfl
      | cons head rest => simpa [findEntry] using same head.1
  | cons head rest ih =>
      cases right with
      | nil => simpa [findEntry] using same head.1
      | cons other more =>
          have aboveLeft := (List.pairwise_cons.1 leftAscending).1
          have aboveRight := (List.pairwise_cons.1 rightAscending).1
          have sameKey : head.1 = other.1 := by
            by_cases h : head.1 = other.1
            · exact h
            · by_cases less : head.1 < other.1
              · have atHead := same head.1
                have missing : findEntry head.1 (other :: more) = none :=
                  findEntry_eq_none fun entry member => by
                    rcases List.mem_cons.1 member with rfl | inMore
                    · exact less
                    · exact List.lt_trans less (aboveRight entry inMore)
                rw [missing] at atHead
                simp [findEntry] at atHead
              · have greater := lt_of_not_lt_of_ne less h
                have atOther := same other.1
                have missing : findEntry other.1 (head :: rest) = none :=
                  findEntry_eq_none fun entry member => by
                    rcases List.mem_cons.1 member with rfl | inRest
                    · exact greater
                    · exact List.lt_trans greater (aboveLeft entry inRest)
                rw [missing] at atOther
                simp [findEntry] at atOther
          have sameValue : head.2 = other.2 := by
            have atHead := same head.1
            simpa [findEntry, sameKey] using atHead
          have sameRest : rest = more := by
            refine ih (List.pairwise_cons.1 leftAscending).2 (List.pairwise_cons.1 rightAscending).2
              fun key => ?_
            have atKey := same key
            simp only [findEntry, sameKey] at atKey
            by_cases h : other.1 = key
            · rw [findEntry_eq_none fun entry member => h ▸ sameKey ▸ aboveLeft entry member,
                findEntry_eq_none fun entry member => h ▸ aboveRight entry member]
            · simpa [h] using atKey
          rw [sameRest, Prod.ext sameKey sameValue]

/-! ## Maps -/

def empty : KeyMap α :=
  ⟨[], List.Pairwise.nil⟩

instance : EmptyCollection (KeyMap α) :=
  ⟨empty⟩

instance : Inhabited (KeyMap α) :=
  ⟨empty⟩

def get? (map : KeyMap α) (key : Bytes) : Option α :=
  findEntry key map.entries

/-- The map that gives `value` for `key` and is otherwise as before. -/
def insert (map : KeyMap α) (key : Bytes) (value : α) : KeyMap α :=
  ⟨insertEntry key value map.entries, insertEntry_ascending key value map.ascending⟩

def contains (map : KeyMap α) (key : Bytes) : Bool :=
  (map.get? key).isSome

def toList (map : KeyMap α) : List (Bytes × α) :=
  map.entries

def keys (map : KeyMap α) : List Bytes :=
  map.entries.map (·.1)

def size (map : KeyMap α) : Nat :=
  map.entries.length

def isEmpty (map : KeyMap α) : Bool :=
  map.entries.isEmpty

/-- The entries that `keep` accepts. -/
def filter (map : KeyMap α) (keep : Bytes → α → Bool) : KeyMap α :=
  ⟨map.entries.filter fun entry => keep entry.1 entry.2, map.ascending.filter _⟩

def erase (map : KeyMap α) (key : Bytes) : KeyMap α :=
  map.filter fun other _ => other != key

/-- Insert the entries in order, so that the last one for a key stands. -/
def ofList (entries : List (Bytes × α)) : KeyMap α :=
  entries.foldl (fun map entry => map.insert entry.1 entry.2) ∅

/-- The entries of `upper` laid over those of `base`. -/
def override (base upper : KeyMap α) : KeyMap α :=
  upper.entries.foldl (fun map entry => map.insert entry.1 entry.2) base

@[simp]
theorem get?_empty (key : Bytes) : (∅ : KeyMap α).get? key = none :=
  rfl

@[simp]
theorem get?_insert (map : KeyMap α) (key other : Bytes) (value : α) :
    (map.insert key value).get? other = if key = other then some value else map.get? other :=
  findEntry_insertEntry key other value map.entries

/-- Which entries are kept may depend on their keys. -/
theorem get?_filter (map : KeyMap α) (keep : Bytes → Bool) (key : Bytes) :
    (map.filter fun other _ => keep other).get? key =
      if keep key = true then map.get? key else none :=
  findEntry_filter keep key map.entries

@[simp]
theorem get?_erase (map : KeyMap α) (key other : Bytes) :
    (map.erase key).get? other = if key = other then none else map.get? other := by
  rw [erase, get?_filter]
  by_cases same : key = other
  · simp [same]
  · simp [same, Ne.symm same]

theorem isEmpty_iff {map : KeyMap α} : map.isEmpty = true ↔ ∀ key, map.get? key = none := by
  obtain ⟨entries, ascending⟩ := map
  cases entries with
  | nil => simp [isEmpty, get?, findEntry]
  | cons head rest =>
      constructor
      · intro empty
        cases empty
      · intro missing
        have atHead := missing head.1
        simp [get?, findEntry] at atHead

/-- What a map lists is what is looked up in it. -/
theorem mem_toList_iff {map : KeyMap α} {key : Bytes} {value : α} :
    (key, value) ∈ map.toList ↔ map.get? key = some value :=
  (findEntry_eq_some_iff map.ascending).symm

theorem mem_keys_iff {map : KeyMap α} {key : Bytes} :
    key ∈ map.keys ↔ ∃ value, map.get? key = some value := by
  simp only [← mem_toList_iff, keys, toList, List.mem_map, Prod.exists, exists_and_right,
    exists_eq_right]

/-- Maps with the same look-ups are equal. -/
theorem ext_get? {left right : KeyMap α} (same : ∀ key, left.get? key = right.get? key) :
    left = right := by
  obtain ⟨entries, ascending⟩ := left
  obtain ⟨others, othersAscending⟩ := right
  have := eq_of_findEntry ascending othersAscending same
  subst this
  rfl

theorem get?_foldl_insert (entries : List (Bytes × α))
    (ascending : entries.Pairwise fun a b => a.1 < b.1) (base : KeyMap α) (key : Bytes) :
    (entries.foldl (fun map entry => map.insert entry.1 entry.2) base).get? key =
      (findEntry key entries).or (base.get? key) := by
  induction entries generalizing base with
  | nil => simp [findEntry]
  | cons head rest ih =>
      obtain ⟨above, restAscending⟩ := List.pairwise_cons.1 ascending
      rw [List.foldl_cons, ih restAscending, get?_insert]
      by_cases h : head.1 = key
      · have : findEntry key rest = none :=
          findEntry_eq_none fun entry member => h ▸ above entry member
        simp [findEntry, h, this]
      · simp [findEntry, h]

/-- A key of the upper map is read there, any other in the lower one. -/
@[simp]
theorem get?_override (base upper : KeyMap α) (key : Bytes) :
    (base.override upper).get? key = (upper.get? key).or (base.get? key) :=
  get?_foldl_insert upper.entries upper.ascending base key

@[simp]
theorem override_empty (base : KeyMap α) : base.override ∅ = base :=
  rfl

/-- Entries that are inserted after others are laid over them. -/
theorem ofList_append_toList (entries : List (Bytes × α)) (upper : KeyMap α) :
    ofList (entries ++ upper.toList) = (ofList entries).override upper :=
  List.foldl_append

/-- What is inserted after laying a map over another is inserted in the upper one. -/
theorem override_insert (base upper : KeyMap α) (key : Bytes) (value : α) :
    base.override (upper.insert key value) = (base.override upper).insert key value := by
  refine ext_get? fun other => ?_
  simp only [get?_override, get?_insert]
  split <;> simp

/-- Of maps that are laid one over the other, the last that has a key is read. -/
theorem get?_foldr_override (maps : List (KeyMap α)) (key : Bytes) :
    (maps.foldr override ∅).get? key = maps.reverse.findSome? fun map => map.get? key := by
  induction maps with
  | nil => rfl
  | cons map more ih => simp [ih, List.findSome?_append]

/-- Two maps with no key in common can be laid over a third in either order. -/
theorem override_left_comm {one other : KeyMap α}
    (apart : ∀ key ∈ one.keys, key ∉ other.keys) (upper : KeyMap α) :
    one.override (other.override upper) = other.override (one.override upper) := by
  refine ext_get? fun key => ?_
  simp only [get?_override]
  cases inOne : one.get? key with
  | none => cases other.get? key <;> cases upper.get? key <;> rfl
  | some value =>
      have absent : other.get? key = none := by
        rw [Option.eq_none_iff_forall_ne_some]
        intro found inOther
        exact apart key (mem_keys_iff.2 ⟨value, inOne⟩) (mem_keys_iff.2 ⟨found, inOther⟩)
      rw [absent]
      cases upper.get? key <;> rfl

end KeyMap

end Assay
