/-
# Assay.Proofs.Dispatching -- what has a line go to the shell

A line goes to the shell for one of six bytes, for two ampersands side by side, or for `cd`
as a word: a run of bytes with no blank in it that goes as far as it can on both sides
(`IsRun`).

The word is searched for from one `cd` to the next, two bytes further on each time
(`searchRound`).  Nothing is missed on the way, since no `cd` begins inside another one; what
is in front of the place only counts by its last byte, and that is the one that the search
from byte to byte remembers (`comesTo_changesDirectory`).
-/
import Assay.Proofs.Rounds
import Assay.Shell.Dispatch
import Mathlib.Data.List.Infix

namespace Assay.Shell

set_option autoImplicit false

open Bytes

/-! ## Words -/

/-- `word` is a run of bytes in the line that are no blanks, and at either end of it the line
ends or has a blank. -/
def IsRun (line word : Bytes) : Prop :=
  ∃ before after, line = before ++ word ++ after ∧ word ≠ [] ∧ (∀ b ∈ word, isBlank b = false) ∧
    (∀ b ∈ before.getLast?, isBlank b = true) ∧ ∀ b ∈ after.head?, isBlank b = true

theorem ascii_cd : ascii "cd" = [99, 100] := by
  decide

/-- The rest of a line has `cd` in it as a word of its own, when `before` is the byte in front
of that rest. -/
def HasWord (before : Option UInt8) (rest : Bytes) : Prop :=
  ∃ front behind, rest = front ++ 99 :: 100 :: behind ∧
    beginsWord (front.getLast?.or before) = true ∧ endsWord behind = true

theorem not_hasWord_of_short {before : Option UInt8} {rest : Bytes} (short : rest.length < 2) :
    ¬ HasWord before rest := by
  rintro ⟨front, behind, rfl, -⟩
  simp only [List.length_append, List.length_cons] at short
  omega

/-- The word stands at the very start of the rest, or behind its first byte. -/
theorem hasWord_cons_iff {before : Option UInt8} {b : UInt8} {rest : Bytes} :
    HasWord before (b :: rest) ↔
      (∃ behind, b = 99 ∧ rest = 100 :: behind ∧ beginsWord before = true ∧
        endsWord behind = true) ∨ HasWord (some b) rest := by
  have passed : ∀ front : Bytes,
      (b :: front).getLast?.or before = front.getLast?.or (some b) := by
    intro front
    rw [List.getLast?_cons]
    cases front.getLast? <;> rfl
  constructor
  · rintro ⟨front, behind, parts, begins, ends⟩
    cases front with
    | nil =>
        cases parts
        exact .inl ⟨behind, rfl, rfl, begins, ends⟩
    | cons c front =>
        cases parts
        rw [passed] at begins
        exact .inr ⟨front, behind, rfl, begins, ends⟩
  · rintro (⟨behind, rfl, rfl, begins, ends⟩ | ⟨front, behind, rfl, begins, ends⟩)
    · exact ⟨[], behind, rfl, begins, ends⟩
    · exact ⟨b :: front, behind, rfl, by rwa [passed], ends⟩

theorem changesDirectory_iff_hasWord {before : Option UInt8} {rest : Bytes} :
    changesDirectory before rest = true ↔ HasWord before rest := by
  fun_induction changesDirectory before rest with
  | case1 before | case2 before b =>
      constructor
      · intro changes
        cases changes
      · intro stands
        exact absurd stands (not_hasWord_of_short (by simp))
  | case3 before b c rest here ih =>
      obtain ⟨rfl, rfl⟩ := here
      -- no `cd` begins at the second byte of this one
      rw [hasWord_cons_iff, hasWord_cons_iff, Bool.or_eq_true, Bool.and_eq_true, ih]
      simp
  | case4 before b c rest notHere ih =>
      have absent : ¬ ∃ behind, b = 99 ∧ c :: rest = 100 :: behind ∧ beginsWord before = true ∧
          endsWord behind = true := by
        rintro ⟨behind, rfl, parts, -⟩
        cases parts
        exact notHere ⟨rfl, rfl⟩
      rw [hasWord_cons_iff, or_iff_right absent, ih]

theorem beginsWord_iff {before : Option UInt8} :
    beginsWord before = true ↔ ∀ b ∈ before, isBlank b = true := by
  rw [beginsWord, Option.all_eq_true]
  rfl

theorem endsWord_iff {rest : Bytes} :
    endsWord rest = true ↔ ∀ b ∈ rest.head?, isBlank b = true := by
  rw [endsWord, Option.all_eq_true]
  rfl

theorem changesDirectory_iff_isRun {line : Bytes} :
    changesDirectory none line = true ↔ IsRun line (ascii "cd") := by
  have nonempty : ascii "cd" ≠ [] := by decide
  have solid : ∀ b ∈ ascii "cd", isBlank b = false := by decide +kernel
  have parts : ∀ front behind : Bytes,
      front ++ ascii "cd" ++ behind = front ++ 99 :: 100 :: behind := by simp [ascii_cd]
  rw [changesDirectory_iff_hasWord]
  constructor
  · rintro ⟨front, behind, rfl, begins, ends⟩
    rw [Option.or_none, beginsWord_iff] at begins
    exact ⟨front, behind, (parts front behind).symm, nonempty, solid, begins,
      endsWord_iff.1 ends⟩
  · rintro ⟨front, behind, rfl, -, -, begins, ends⟩
    refine ⟨front, behind, parts front behind, ?_, endsWord_iff.2 ends⟩
    rwa [Option.or_none, beginsWord_iff]

/-! ## The search -/

/-- One round of the search for `cd` as a word: found inside a longer word, it is searched for
again behind its two bytes. -/
def searchRound (line : Bytes) (place : Nat) : Bool ⊕ Nat :=
  match indexFrom? line (ascii "cd") place with
  | none => .inl false
  | some found =>
      if beginsWord (line.take found).getLast? && endsWord (line.drop (found + 2)) then .inl true
      else .inr (found + 2)

theorem searchRound_of_absent {line : Bytes} {place : Nat}
    (absent : ¬ ascii "cd" <:+: line.drop place) : searchRound line place = .inl false := by
  have none : indexFrom? line (ascii "cd") place = none := by
    rw [indexFrom?, Option.map_eq_none_iff, ← Option.not_isSome_iff_eq_none, ← contains_eq_isSome,
      contains_iff_isInfix]
    exact absent
  rw [searchRound, none]

theorem searchRound_of_here (front rest : Bytes) :
    searchRound (front ++ 99 :: 100 :: rest) front.length =
      if beginsWord front.getLast? && endsWord rest then .inl true
      else .inr (front.length + 2) := by
  have found : indexFrom? (front ++ 99 :: 100 :: rest) (ascii "cd") front.length =
      some front.length := by
    rw [indexFrom?_append, ascii_cd, indexOf?_cons, if_pos (by simp)]
    rfl
  have behind : (front ++ 99 :: 100 :: rest).drop (front.length + 2) = rest := by
    rw [← List.drop_drop, List.drop_left]
    rfl
  rw [searchRound, found]
  dsimp only
  rw [List.take_left, behind]

/-- **The search ends**, with the answer of the one that goes from byte to byte. -/
theorem comesTo_changesDirectory {before : Option UInt8} {front rest : Bytes}
    (isLast : front.getLast? = before) :
    ComesTo (searchRound (front ++ rest)) front.length (changesDirectory before rest) := by
  fun_induction changesDirectory before rest generalizing front with
  | case1 before | case2 before b =>
      refine .ends (searchRound_of_absent fun found => ?_)
      have sizes := found.length_le
      rw [List.drop_left] at sizes
      simp [ascii_cd] at sizes
  | case3 before b c rest here ih =>
      obtain ⟨rfl, rfl⟩ := here
      have round := searchRound_of_here front rest
      rw [isLast] at round
      cases alone : beginsWord before && endsWord rest with
      | true =>
          rw [alone, if_pos rfl] at round
          exact .ends round
      | false =>
          rw [alone, if_neg Bool.false_ne_true] at round
          have ends : (front ++ [99, 100]).getLast? = some 100 := by simp
          have later := ih ends
          rw [List.append_assoc, List.length_append] at later
          exact .goesOn round later
  | case4 before b c rest notHere ih =>
      have ends : (front ++ [b]).getLast? = some b := List.getLast?_concat
      have later := ih ends
      rw [List.append_assoc, List.length_append] at later
      have passed : ¬ ascii "cd" <+: b :: c :: rest := by
        intro found
        rw [ascii_cd, List.cons_prefix_cons, List.cons_prefix_cons] at found
        exact notHere ⟨found.1.symm, found.2.1.symm⟩
      have round : searchRound (front ++ b :: c :: rest) front.length =
          searchRound (front ++ b :: c :: rest) (front.length + 1) := by
        rw [searchRound, indexFrom?_succ front passed, ← searchRound]
      exact .of_round_eq round later

/-! ## Operators -/

theorem any_contains_operators_iff {line : Bytes} :
    operators.any (contains line) = true ↔
      (∃ b ∈ ascii ";|$><\x60", b ∈ line) ∨ ascii "&&" <:+: line := by
  -- an operator of two bytes that are no ampersands has one of one byte in it
  have covered : ∀ operator ∈ operators, operator = ascii "&&" ∨
      ∃ b ∈ ascii ";|$><\x60", b ∈ operator := by decide +kernel
  have single : ∀ b ∈ ascii ";|$><\x60", [b] ∈ operators := by decide +kernel
  simp only [List.any_eq_true, contains_iff_isInfix]
  constructor
  · rintro ⟨operator, member, found⟩
    rcases covered operator member with rfl | ⟨b, listed, within⟩
    · exact .inr found
    · exact .inl ⟨b, listed, found.subset within⟩
  · rintro (⟨b, listed, isIn⟩ | found)
    · exact ⟨[b], single b listed, List.singleton_infix_iff b line |>.2 isIn⟩
    · exact ⟨ascii "&&", by decide, found⟩

/-- **What has a line go to the shell**: one of the six bytes, two ampersands side by side, or
`cd` as a run of its own.  The search for that word, which goes on two bytes behind each `cd`
that is none, ends on every line and misses no such run. -/
theorem dispatch_eq_shell_iff (line : Bytes) :
    (dispatch line = .shell ↔ (∃ b ∈ ascii ";|$><\x60", b ∈ line) ∨ ascii "&&" <:+: line ∨
        IsRun line (ascii "cd")) ∧
      ∃ answer, ComesTo (searchRound line) 0 answer ∧
        (answer = true ↔ IsRun line (ascii "cd")) := by
  constructor
  · have shell : dispatch line = .shell ↔
        (operators.any (contains line) || changesDirectory none line) = true := by
      cases found : operators.any (contains line) || changesDirectory none line <;>
        simp [dispatch, found]
    rw [shell, Bool.or_eq_true, any_contains_operators_iff, changesDirectory_iff_isRun, or_assoc]
  · have begins : ([] : Bytes).getLast? = none := rfl
    exact ⟨changesDirectory none line, comesTo_changesDirectory begins,
      changesDirectory_iff_isRun⟩

example : dispatch (ascii "cdcd xcd cdx& cd-") = .direct := by decide +kernel

end Assay.Shell
