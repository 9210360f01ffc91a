/-
# Assay.Proofs.Seams -- what a search finds where texts are put together

A search runs over the seams where texts are put together.  `Fits` says that two texts
agree as far as both go.  A needle that fits nowhere over a marker is found on one side of
it or on the other, but not across (`Apart.beside`); and a marker that does not fit over a
later part of itself is first found where it was put, if it is not in front of it
(`firstAt_of_absent`).  Both conditions speak of the marker and the needle alone, and can be
computed.
-/
import Assay.Proofs.Search

namespace Assay.Bytes

set_option autoImplicit false

/-- The two texts agree as far as both go. -/
def Fits (one other : Bytes) : Prop :=
  one <+: other ∨ other <+: one

instance (one other : Bytes) : Decidable (Fits one other) :=
  inferInstanceAs (Decidable (_ ∨ _))

/-- What two texts begin alike with, they do not disagree about. -/
theorem fits_of_prefix {one other text : Bytes} (first : one <+: text) (second : other <+: text) :
    Fits one other :=
  List.prefix_or_prefix_of_prefix first second

/-- A needle at the start of two texts put together is in the first of them, or goes on
behind its end. -/
theorem prefix_append_cases {needle left right : Bytes} (found : needle <+: left ++ right) :
    needle <+: left ∨
      left.length < needle.length ∧ needle.drop left.length <+: right := by
  by_cases short : needle.length ≤ left.length
  · exact .inl (List.prefix_of_prefix_length_le found (List.prefix_append left right) short)
  · have long : left.length < needle.length := Nat.lt_of_not_le short
    have begins : left <+: needle :=
      List.prefix_of_prefix_length_le (List.prefix_append left right) found (Nat.le_of_lt long)
    obtain ⟨rest, rfl⟩ := begins
    refine .inr ⟨long, ?_⟩
    rw [List.drop_left]
    exact (List.prefix_append_right_inj left).1 found

theorem infix_iff_exists_drop {needle text : Bytes} :
    needle <:+: text ↔ ∃ place, needle <+: text.drop place := by
  rw [List.infix_iff_prefix_suffix]
  constructor
  · rintro ⟨tail, begins, ends⟩
    rw [List.suffix_iff_eq_drop] at ends
    exact ⟨_, ends ▸ begins⟩
  · rintro ⟨place, begins⟩
    exact ⟨text.drop place, begins, List.drop_suffix place text⟩

/-- A needle that was found from a place in the first of two texts on is in the first, or a
later part of it begins the second. -/
theorem drop_append_cases {needle left right : Bytes} {place : Nat} (inside : place < left.length)
    (found : needle <+: (left ++ right).drop place) :
    needle <:+: left ∨
      ∃ offset, 0 < offset ∧ offset < needle.length ∧ needle.drop offset <+: right := by
  rw [List.drop_append_of_le_length (Nat.le_of_lt inside)] at found
  rcases prefix_append_cases found with within | ⟨long, behind⟩
  · exact .inl (infix_iff_exists_drop.2 ⟨place, within⟩)
  · have some : 0 < (left.drop place).length := by
      rw [List.length_drop]
      omega
    exact .inr ⟨(left.drop place).length, some, long, behind⟩

/-- The needle fits nowhere over the marker, not even over an end of it. -/
structure Apart (needle marker : Bytes) : Prop where
  /-- It does not begin in the marker. -/
  inside : ∀ place < marker.length, ¬ Fits needle (marker.drop place)
  /-- The marker does not begin in it. -/
  across : ∀ offset < needle.length, ¬ Fits (needle.drop offset) marker

instance (needle marker : Bytes) : Decidable (Apart needle marker) :=
  decidable_of_iff ((∀ place < marker.length, ¬ Fits needle (marker.drop place)) ∧
      ∀ offset < needle.length, ¬ Fits (needle.drop offset) marker)
    ⟨fun both => ⟨both.1, both.2⟩, fun apart => ⟨apart.inside, apart.across⟩⟩

/-- **Nothing is found across a marker** that the needle does not fit over. -/
theorem Apart.beside {needle marker before after : Bytes} (apart : Apart needle marker)
    (found : needle <:+: before ++ marker ++ after) : needle <:+: before ∨ needle <:+: after := by
  obtain ⟨place, begins⟩ := infix_iff_exists_drop.1 found
  rw [List.append_assoc] at begins
  by_cases inBefore : place < before.length
  · rcases drop_append_cases inBefore begins with whole | ⟨offset, -, less, behind⟩
    · exact .inl whole
    · have fits := fits_of_prefix behind (List.prefix_append marker after)
      exact absurd fits (apart.across offset less)
  · rw [List.drop_append, List.drop_eq_nil_of_le (Nat.le_of_not_lt inBefore),
      List.nil_append] at begins
    by_cases inMarker : place - before.length < marker.length
    · rw [List.drop_append_of_le_length (Nat.le_of_lt inMarker)] at begins
      have fits := fits_of_prefix begins (List.prefix_append _ after)
      exact absurd fits (apart.inside _ inMarker)
    · rw [List.drop_append, List.drop_eq_nil_of_le (Nat.le_of_not_lt inMarker),
        List.nil_append] at begins
      exact .inr (infix_iff_exists_drop.2 ⟨_, begins⟩)

/-- No later part of the marker begins it. -/
def Unbordered (marker : Bytes) : Prop :=
  ∀ offset < marker.length, 0 < offset → ¬ Fits (marker.drop offset) marker

instance (marker : Bytes) : Decidable (Unbordered marker) :=
  inferInstanceAs (Decidable (∀ offset < marker.length, 0 < offset → _))

/-- A marker that is not in front of where it was put is first found there. -/
theorem firstAt_of_absent {marker before : Bytes} (unbordered : Unbordered marker)
    (absent : ¬ marker <:+: before) (after : Bytes) :
    FirstAt marker (before ++ marker ++ after) before.length := by
  constructor
  · rw [List.append_assoc, List.drop_left]
    exact List.prefix_append marker after
  · intro earlier less found
    rw [List.append_assoc] at found
    rcases drop_append_cases less found with within | ⟨offset, later, short, behind⟩
    · exact absent within
    · have fits := fits_of_prefix behind (List.prefix_append marker after)
      exact unbordered offset short later fits

end Assay.Bytes
