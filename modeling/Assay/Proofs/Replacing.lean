/-
# Assay.Proofs.Replacing -- replacing a text, piece by piece and in place

`replaceAll` joins the pieces of a text around a needle by another text.  Each piece but the
last one ends where the needle is first found, and in the last one it is not found at all
(`exists_pieces`).

A text can also be replaced in place: the needle is searched for from a place on, the
replacement is put where it was found, and the search goes on behind the replacement
(`Rewriting.round`).  Between two rounds the text is settled up to the place and untouched
behind it (`Halfway`).  So what was put in is never searched, even when the needle is in it,
and each round has less left to search than the one before: the loop ends, with the text that
`replaceAll` answers.
-/
import Assay.Proofs.Rounds

namespace Assay.Bytes

set_option autoImplicit false

variable {needle text before after : Bytes}

/-! ## Cutting at the first occurrence -/

/-- A text is cut at the first occurrence of the needle. -/
theorem cut?_eq_some (cut : cut? needle text = some (before, after)) :
    text = before ++ needle ++ after ∧ FirstAt needle text before.length := by
  constructor
  · induction text generalizing before with
    | nil =>
        rw [cut?] at cut
        split at cut
        · rename_i empty
          cases cut
          rw [List.isEmpty_iff.1 empty]
          rfl
        · cases cut
    | cons b rest ih =>
        rw [cut?] at cut
        split at cut
        · rename_i here
          cases cut
          rw [List.nil_append]
          exact (List.prefix_iff_eq_append.1 (List.isPrefixOf_iff_prefix.1 here)).symm
        · obtain ⟨⟨front, behind⟩, cutRest, same⟩ := Option.map_eq_some_iff.1 cut
          cases same
          rw [ih cutRest]
          rfl
  · rw [← indexOf?_eq_some_iff, indexOf?, cut]
    rfl

theorem not_infix_of_uncut (uncut : cut? needle text = none) : ¬ needle <:+: text := by
  rw [← contains_iff_isInfix, contains, uncut]
  exact Bool.false_ne_true

/-- A text without the needle in it, or one that is cut at the needle and then what stands
behind the cut. -/
theorem cut_induction (nonempty : needle ≠ []) {motive : Bytes → Prop}
    (whole : ∀ text, cut? needle text = none → motive text)
    (parted : ∀ text before after, cut? needle text = some (before, after) → motive after →
      motive text) (text : Bytes) : motive text := by
  induction sized : text.length using Nat.strongRecOn generalizing text with
  | ind size ih =>
    cases cut : cut? needle text with
    | none => exact whole text cut
    | some parts =>
        obtain ⟨before, after⟩ := parts
        have someNeedle : 0 < needle.length := List.length_pos_iff.2 nonempty
        have shorter : after.length < size := by
          rw [← sized, (cut?_eq_some cut).1]
          simp only [List.length_append]
          omega
        exact parted text before after cut (ih after.length shorter after rfl)

/-! ## Pieces -/

/-- What is left of an occurrence is passed over. -/
theorem piecesFrom_eq_pieces_drop (needle : Bytes) (skip : Nat) (text : Bytes) :
    piecesFrom needle skip text = pieces needle (text.drop skip) := by
  induction text generalizing skip with
  | nil => cases skip <;> rfl
  | cons b rest ih =>
      cases skip with
      | zero => rfl
      | succ skip => exact ih skip

theorem pieces_of_cut (nonempty : needle ≠ []) (cut : cut? needle text = some (before, after)) :
    pieces needle text = before :: pieces needle after := by
  induction text generalizing before with
  | nil =>
      rw [cut?, if_neg (by simp [nonempty])] at cut
      cases cut
  | cons b rest ih =>
      rw [cut?] at cut
      rw [pieces, piecesFrom]
      split at cut
      · rename_i here
        cases cut
        obtain ⟨c, more, rfl⟩ := List.exists_cons_of_ne_nil nonempty
        rw [if_pos here, piecesFrom_eq_pieces_drop]
        rfl
      · rename_i notHere
        obtain ⟨⟨front, behind⟩, cutRest, same⟩ := Option.map_eq_some_iff.1 cut
        cases same
        have pieced := ih cutRest
        rw [pieces] at pieced
        rw [if_neg notHere, pieced]

theorem pieces_of_uncut (uncut : cut? needle text = none) : pieces needle text = [text] := by
  induction text with
  | nil => rfl
  | cons b rest ih =>
      rw [cut?] at uncut
      rw [pieces, piecesFrom]
      split at uncut
      · cases uncut
      · rename_i notHere
        have pieced := ih (Option.map_eq_none_iff.1 uncut)
        rw [pieces] at pieced
        rw [if_neg notHere, pieced]

theorem join_cons {items : List Bytes} (more : items ≠ []) (first delimiter : Bytes) :
    join (first :: items) delimiter = first ++ delimiter ++ join items delimiter := by
  obtain ⟨second, others, rfl⟩ := List.exists_cons_of_ne_nil more
  rw [join, List.intercalate_cons_cons, ← join]

/-- The needle is first found at the end of its piece. -/
theorem firstAt_piece (cut : cut? needle text = some (before, after)) :
    FirstAt needle (before ++ needle) before.length := by
  obtain ⟨parts, first⟩ := cut?_eq_some cut
  constructor
  · simp
  · intro earlier less found
    refine first.2 earlier less ?_
    have inFront : earlier ≤ (before ++ needle).length := by
      rw [List.length_append]
      omega
    rw [parts, List.drop_append_of_le_length inFront]
    exact found.trans (List.prefix_append _ after)

/-- **The pieces of a text around a needle**: each one but the last ends where the needle is
first found, and the needle is not in the last one. -/
theorem exists_pieces (nonempty : needle ≠ []) (text : Bytes) :
    ∃ parts last, pieces needle text = parts ++ [last] ∧ text = join (parts ++ [last]) needle ∧
      (∀ part ∈ parts, FirstAt needle (part ++ needle) part.length) ∧ ¬ needle <:+: last := by
  induction text using cut_induction nonempty with
  | whole text uncut =>
      refine ⟨[], text, pieces_of_uncut uncut, ?_, by simp, not_infix_of_uncut uncut⟩
      simp [join]
  | parted text before after cut ih =>
      obtain ⟨parts, last, pieced, joined, ends, absent⟩ := ih
      refine ⟨before :: parts, last, ?_, ?_, ?_, absent⟩
      · rw [pieces_of_cut nonempty cut, pieced, List.cons_append]
      · rw [List.cons_append, join_cons (by simp), ← joined]
        exact (cut?_eq_some cut).1
      · rw [List.forall_mem_cons]
        exact ⟨firstAt_piece cut, ends⟩

/-! ## Replacing -/

theorem replaceAll_eq_join (nonempty : needle ≠ []) (text replacement : Bytes) :
    replaceAll text needle replacement = join (pieces needle text) replacement := by
  rw [replaceAll, if_neg (by simp [nonempty])]

theorem replaceAll_of_uncut (uncut : cut? needle text = none) (replacement : Bytes) :
    replaceAll text needle replacement = text := by
  rw [replaceAll, pieces_of_uncut uncut]
  simp [join]

theorem replaceAll_of_cut (nonempty : needle ≠ []) (cut : cut? needle text = some (before, after))
    (replacement : Bytes) : replaceAll text needle replacement =
      before ++ replacement ++ replaceAll after needle replacement := by
  have more : pieces needle after ≠ [] := piecesFrom_ne_nil needle 0 after
  rw [replaceAll_eq_join nonempty, pieces_of_cut nonempty cut, join_cons more,
    replaceAll_eq_join nonempty]

/-! ## Replacing in place -/

/-- A text that is being replaced in place, and where the next search begins. -/
structure Rewriting where
  text : Bytes
  place : Nat
  deriving DecidableEq, Repr

namespace Rewriting

/-- One round: the needle is searched for from the place on, and the search goes on behind
what was put in its place. -/
def round (needle replacement : Bytes) (now : Rewriting) : Bytes ⊕ Rewriting :=
  match indexFrom? now.text needle now.place with
  | none => .inl now.text
  | some found =>
      .inr ⟨now.text.take found ++ replacement ++ now.text.drop (found + needle.length),
        found + replacement.length⟩

/-- What has been settled, what is left to search, and the place between them. -/
def between (done rest : Bytes) : Rewriting :=
  ⟨done ++ rest, done.length⟩

variable {replacement : Bytes}

theorem round_of_uncut (done : Bytes) {rest : Bytes} (uncut : cut? needle rest = none) :
    round needle replacement (between done rest) = .inl (done ++ rest) := by
  have absent : indexFrom? (done ++ rest) needle done.length = none := by
    rw [indexFrom?_append, indexOf?, uncut]
    rfl
  simp only [round, between, absent]

theorem round_of_cut (done : Bytes) {rest : Bytes}
    (cut : cut? needle rest = some (before, after)) :
    round needle replacement (between done rest) =
      .inr (between (done ++ before ++ replacement) after) := by
  have found : indexFrom? (done ++ rest) needle done.length = some (done ++ before).length := by
    rw [indexFrom?_append, indexOf?, cut, List.length_append]
    rfl
  have parts : done ++ rest = done ++ before ++ (needle ++ after) := by
    rw [(cut?_eq_some cut).1]
    simp only [List.append_assoc]
  simp only [round, between, found]
  rw [parts, List.take_left, ← List.drop_drop, List.drop_left, List.drop_left,
    ← List.length_append]

/-- **The loop ends**, and what was left to search is then replaced. -/
theorem comesTo_replaceAll (nonempty : needle ≠ []) (done rest : Bytes) :
    ComesTo (round needle replacement) (between done rest)
      (done ++ replaceAll rest needle replacement) := by
  induction rest using cut_induction nonempty generalizing done with
  | whole rest uncut =>
      rw [replaceAll_of_uncut uncut]
      exact .ends (round_of_uncut done uncut)
  | parted rest before after cut ih =>
      rw [replaceAll_of_cut nonempty cut, ← List.append_assoc, ← List.append_assoc]
      exact .goesOn (round_of_cut done cut) (ih (done ++ before ++ replacement))

/-- The text is settled up to the place, and what is behind it has stood in the text from the
start. -/
structure Halfway (text result : Bytes) (now : Rewriting) : Prop where
  inside : now.place ≤ now.text.length
  settled : now.text.take now.place <+: result
  untouched : now.text.drop now.place <:+ text

/-- A state that the loop meets lies between what is settled and an end of the text. -/
theorem exists_between_of_meets (nonempty : needle ≠ []) {now : Rewriting}
    (met : Meets (round needle replacement) (between [] text) now) :
    ∃ done rest, now = between done rest ∧ rest <:+ text ∧
      replaceAll text needle replacement = done ++ replaceAll rest needle replacement := by
  induction met with
  | begins => exact ⟨[], text, rfl, List.suffix_refl text, rfl⟩
  | goesOn _ follows ih =>
      obtain ⟨done, rest, rfl, ends, result⟩ := ih
      cases cut : cut? needle rest with
      | none =>
          rw [round_of_uncut done cut] at follows
          cases follows
      | some parts =>
          obtain ⟨before, after⟩ := parts
          rw [round_of_cut done cut] at follows
          cases follows
          refine ⟨done ++ before ++ replacement, after, rfl, ?_, ?_⟩
          · rw [(cut?_eq_some cut).1] at ends
            exact (List.suffix_append _ after).trans ends
          · rw [result, replaceAll_of_cut nonempty cut]
            simp only [List.append_assoc]

theorem halfway_of_meets (nonempty : needle ≠ []) {now : Rewriting}
    (met : Meets (round needle replacement) (between [] text) now) :
    Halfway text (replaceAll text needle replacement) now := by
  obtain ⟨done, rest, rfl, ends, result⟩ := exists_between_of_meets nonempty met
  refine ⟨?_, ?_, ?_⟩
  · simp [between]
  · rw [between, List.take_left, result]
    exact List.prefix_append done _
  · rw [between, List.drop_left]
    exact ends

end Rewriting

/-- **Each leftmost occurrence is replaced, and nothing else.**  The text is cut into pieces
around the occurrences of the needle, each found first at the end of its piece, with none in
the last one, and the answer is the pieces joined by the replacement.  Done in place, from
occurrence to occurrence, it ends with the same answer; and all that is ever searched is an
end of the text as it was given. -/
theorem replaceAll_rewrites (nonempty : needle ≠ []) (text replacement : Bytes) :
    (∃ parts last, text = join (parts ++ [last]) needle ∧
        (∀ part ∈ parts, FirstAt needle (part ++ needle) part.length) ∧ ¬ needle <:+: last ∧
        replaceAll text needle replacement = join (parts ++ [last]) replacement) ∧
      ComesTo (Rewriting.round needle replacement) ⟨text, 0⟩
        (replaceAll text needle replacement) ∧
      ∀ now, Meets (Rewriting.round needle replacement) ⟨text, 0⟩ now →
        Rewriting.Halfway text (replaceAll text needle replacement) now := by
  refine ⟨?_, Rewriting.comesTo_replaceAll nonempty [] text, fun now met =>
    Rewriting.halfway_of_meets nonempty met⟩
  obtain ⟨parts, last, pieced, joined, ends, absent⟩ := exists_pieces nonempty text
  refine ⟨parts, last, joined, ends, absent, ?_⟩
  rw [replaceAll_eq_join nonempty, pieced]

/-- A needle that overlaps itself, and a replacement that has it twice in it. -/
theorem doubled_rewrites :
    ascii "aa" ≠ [] ∧
      ComesTo (Rewriting.round (ascii "aa") (ascii "aaa")) ⟨ascii "aaabaa", 0⟩
        (ascii "aaaabaaa") := by
  have nonempty : ascii "aa" ≠ [] := by decide
  have answer : replaceAll (ascii "aaabaa") (ascii "aa") (ascii "aaa") = ascii "aaaabaaa" := by
    decide +kernel
  refine ⟨nonempty, ?_⟩
  rw [← answer]
  exact (replaceAll_rewrites nonempty (ascii "aaabaa") (ascii "aaa")).2.1

end Assay.Bytes
