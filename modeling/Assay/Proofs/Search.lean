/-
# Assay.Proofs.Search -- what the search for a byte string finds

`cut?` and `indexOf?` walk along a text.  Here their answers are said without a
walk: `FirstAt` is the place of the first occurrence, and a text contains a needle
when the needle is an infix of it.  `replaceAll` at a needle of one byte is a
substitution byte by byte (`replaceAll_singleton`).
-/
import Assay.Bytes.Search

namespace Assay.Bytes

set_option autoImplicit false

/-! ## First occurrences -/

/-- `needle` stands at `place` of the text, and at no earlier place. -/
def FirstAt (needle text : Bytes) (place : Nat) : Prop :=
  needle <+: text.drop place ∧ ∀ earlier < place, ¬ needle <+: text.drop earlier

theorem indexOf?_nil (needle : Bytes) :
    indexOf? [] needle = if needle.isEmpty then some 0 else none := by
  unfold indexOf? cut?
  split <;> rfl

theorem indexOf?_cons (needle : Bytes) (b : UInt8) (rest : Bytes) :
    indexOf? (b :: rest) needle =
      if needle.isPrefixOf (b :: rest) then some 0 else (indexOf? rest needle).map (· + 1) := by
  unfold indexOf?
  rw [cut?]
  split
  · rfl
  · simp [Function.comp_def]

theorem firstAt_zero {needle text : Bytes} (here : needle <+: text) : FirstAt needle text 0 :=
  ⟨here, fun earlier less => absurd less (Nat.not_lt_zero earlier)⟩

theorem firstAt_succ_iff {needle rest : Bytes} {b : UInt8} {place : Nat} :
    FirstAt needle (b :: rest) (place + 1) ↔
      ¬ needle <+: b :: rest ∧ FirstAt needle rest place := by
  constructor
  · rintro ⟨found, first⟩
    refine ⟨first 0 (Nat.succ_pos place), found, fun earlier less => ?_⟩
    exact first (earlier + 1) (Nat.succ_lt_succ less)
  · rintro ⟨notHere, found, first⟩
    refine ⟨found, fun earlier less => ?_⟩
    cases earlier with
    | zero => exact notHere
    | succ earlier => exact first earlier (Nat.lt_of_succ_lt_succ less)

/-- A first occurrence that is not at the start is one behind the first byte. -/
theorem FirstAt.eq_zero {needle text : Bytes} {place : Nat} (first : FirstAt needle text place)
    (here : needle <+: text) : place = 0 := by
  cases place with
  | zero => rfl
  | succ place => exact absurd here (first.2 0 (Nat.succ_pos place))

theorem indexOf?_eq_some_iff {text needle : Bytes} {place : Nat} :
    indexOf? text needle = some place ↔ FirstAt needle text place := by
  induction text generalizing place with
  | nil =>
      rw [indexOf?_nil]
      cases needle with
      | nil =>
          constructor
          · intro found
            cases found
            exact firstAt_zero (List.prefix_refl [])
          · intro first
            rw [first.eq_zero (List.prefix_refl [])]
            rfl
      | cons c more => simp [FirstAt]
  | cons b rest ih =>
      rw [indexOf?_cons]
      by_cases here : needle <+: b :: rest
      · rw [if_pos (List.isPrefixOf_iff_prefix.2 here)]
        constructor
        · intro found
          cases found
          exact firstAt_zero here
        · intro first
          rw [first.eq_zero here]
      · rw [if_neg (fun found => here (List.isPrefixOf_iff_prefix.1 found))]
        cases place with
        | zero => simp [FirstAt, here]
        | succ place => simp [firstAt_succ_iff, here, ih]

/-- A text that is found at a place stands behind as many bytes. -/
theorem cut_at_place {needle text : Bytes} {place : Nat} (nonempty : needle ≠ [])
    (found : needle <+: text.drop place) :
    ∃ before after, text = before ++ needle ++ after ∧ before.length = place := by
  obtain ⟨after, behind⟩ := found
  have inside : place ≤ text.length := by
    refine Nat.le_of_not_lt fun outside => nonempty ?_
    rw [List.drop_eq_nil_of_le (Nat.le_of_lt outside)] at behind
    exact (List.append_eq_nil_iff.1 behind).1
  refine ⟨text.take place, after, ?_, List.length_take_of_le inside⟩
  rw [List.append_assoc, behind, List.take_append_drop]

/-- A text is cut at a byte that does not occur before. -/
theorem cut_of_not_mem {c : UInt8} {front : Bytes} (absent : c ∉ front) (rest : Bytes) :
    cut? [c] (front ++ c :: rest) = some (front, rest) := by
  induction front with
  | nil => simp [cut?]
  | cons b front ih =>
      rw [List.mem_cons, not_or] at absent
      obtain ⟨different, absent⟩ := absent
      rw [List.cons_append, cut?, if_neg (by simp [different]), ih absent]
      rfl

/-! ## Containment -/

theorem contains_eq_isSome (text needle : Bytes) :
    contains text needle = (indexOf? text needle).isSome := by
  simp [contains, indexOf?]

theorem contains_iff_isInfix {text needle : Bytes} :
    contains text needle = true ↔ needle <:+: text := by
  rw [contains_eq_isSome]
  induction text with
  | nil => cases needle <;> simp [indexOf?_nil]
  | cons b rest ih =>
      rw [indexOf?_cons, List.infix_cons_iff]
      by_cases here : needle <+: b :: rest
      · simp [here]
      · simp [here, ih]

/-! ## Replacing one byte -/

theorem piecesFrom_ne_nil (needle : Bytes) (skip : Nat) (text : Bytes) :
    piecesFrom needle skip text ≠ [] := by
  induction text generalizing skip with
  | nil => cases skip <;> simp [piecesFrom]
  | cons b rest ih =>
      cases skip with
      | succ skip => exact ih skip
      | zero =>
          simp only [piecesFrom]
          split
          · simp
          · split <;> simp

/-- At a needle of one byte, replacing is a substitution byte by byte. -/
theorem replaceAll_singleton (text : Bytes) (c : UInt8) (replacement : Bytes) :
    replaceAll text [c] replacement =
      text.flatMap fun b => if b = c then replacement else [b] := by
  simp only [replaceAll, pieces, join, List.isEmpty_cons, Bool.false_eq_true, if_false]
  induction text with
  | nil => simp [piecesFrom]
  | cons b rest ih =>
      rw [List.flatMap_cons, ← ih]
      obtain ⟨piece, more, split⟩ := List.exists_cons_of_ne_nil (piecesFrom_ne_nil [c] 0 rest)
      by_cases same : b = c
      · simp [piecesFrom, same, split, List.intercalate]
      · cases more <;> simp [piecesFrom, same, Ne.symm same, split, List.intercalate]

end Assay.Bytes
