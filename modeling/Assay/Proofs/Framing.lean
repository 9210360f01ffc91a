/-
# Assay.Proofs.Framing -- a test log between its markers

A text that stands between the two markers of the test output is graded as if it were the
whole log, whatever stands around it, further markers and status lines included.

No marker of a log fits over another one, or over a later part of itself.  So nothing is
found across the seams of `framed`, and the first markers of it are the two that were put
there: the text is cut out again byte for byte, its lines as they were.

For the same reason the first end marker stands behind all of the first start marker, or in
front of it, in every log.  The distance that is taken between them is one, and can be taken
with words of any size that a place in the log fits in (`sliceOutput?`): the subtraction does
not wrap around, and what is asked for lies inside the log (`sliceOutput?_within`).
-/
import Assay.Proofs.Reports
import Mathlib.Algebra.Group.Nat.Defs

namespace Assay.Test.Log

set_option autoImplicit false

open Bytes

/-! ## The markers of a log -/

theorem unbordered_outputStart : Unbordered outputStart := by
  decide +kernel

theorem unbordered_outputEnd : Unbordered outputEnd := by
  decide +kernel

theorem failureMarkers_apart :
    ∀ marker ∈ failureMarkers, Apart marker outputStart ∧ Apart marker outputEnd := by
  decide +kernel

/-! ## A text in its frame -/

/-- A text between the markers of the test output, with something before and behind them. -/
def framed (before text after : Bytes) : Bytes :=
  before ++ outputStart ++ text ++ outputEnd ++ after

variable {before text after : Bytes}

/-- What is in a frame and is apart from the markers of it is in one of its three texts. -/
theorem infix_framed {needle : Bytes} (fromStart : Apart needle outputStart)
    (fromEnd : Apart needle outputEnd) (found : needle <:+: framed before text after) :
    needle <:+: before ∨ needle <:+: text ∨ needle <:+: after := by
  rcases fromEnd.beside found with inFront | behind
  · rcases fromStart.beside inFront with first | second
    · exact .inl first
    · exact .inr (.inl second)
  · exact .inr (.inr behind)

/-- What counts of a framed text is the text. -/
theorem graded_framed (unopened : ¬ outputStart <:+: before) (unended : ¬ outputEnd <:+: before)
    (unclosed : ¬ outputEnd <:+: text) : Graded (framed before text after) text := by
  have opens : FirstAt outputStart (framed before text after) before.length := by
    have first := firstAt_of_absent unbordered_outputStart unopened (text ++ outputEnd ++ after)
    simpa only [framed, List.append_assoc] using first
  have absent : ¬ outputEnd <:+: before ++ outputStart ++ text := by
    intro found
    rcases outputEnd_apart_outputStart.beside found with inFront | inText
    · exact unended inFront
    · exact unclosed inText
  have closes : FirstAt outputEnd (framed before text after)
      (before ++ outputStart ++ text).length :=
    firstAt_of_absent unbordered_outputEnd absent after
  exact .between rfl opens closes

/-- Without an end marker the whole log counts. -/
theorem graded_unended (unclosed : ¬ outputEnd <:+: text) : Graded text text := by
  refine .whole fun first last _ closes => ?_
  exact absurd (infix_iff_exists_drop.2 ⟨last, closes.1⟩) unclosed

theorem hasFailureMarker_framed
    (clean : ∀ marker ∈ failureMarkers,
      ¬ marker <:+: before ∧ ¬ marker <:+: text ∧ ¬ marker <:+: after) :
    hasFailureMarker (framed before text after) = false := by
  rw [hasFailureMarker_eq_false_iff]
  intro marker member found
  obtain ⟨fromStart, fromEnd⟩ := failureMarkers_apart marker member
  obtain ⟨notBefore, notInText, notAfter⟩ := clean marker member
  rcases infix_framed fromStart fromEnd found with first | second | third
  · exact notBefore first
  · exact notInText second
  · exact notAfter third

/-- **What stands around the test output has no say in how it is graded**: the markers cut
the text out again, byte for byte, and the log of the text alone has the same report, or
has none either. -/
theorem grade?_framed (unopened : ¬ outputStart <:+: before) (unended : ¬ outputEnd <:+: before)
    (unclosed : ¬ outputEnd <:+: text)
    (clean : ∀ marker ∈ failureMarkers,
      ¬ marker <:+: before ∧ ¬ marker <:+: text ∧ ¬ marker <:+: after) :
    grade? (framed before text after) = grade? text := by
  have cut : testOutput (framed before text after) = text :=
    (graded_framed unopened unended unclosed).eq_testOutput.symm
  have whole : testOutput text = text := (graded_unended unclosed).eq_testOutput.symm
  have cleanText : hasFailureMarker text = false :=
    hasFailureMarker_eq_false_iff.2 fun marker member => (clean marker member).2.1
  unfold grade?
  rw [hasFailureMarker_framed clean, cleanText, cut, whole]

/-- Test output with a start marker of its own, and the beginning of an end marker. -/
def noisyText : Bytes :=
  ascii "\nPASSED t1\n>>>>> Start Test Output\n>>>>"

/-- Both markers, and another status of the test. -/
def noiseBehind : Bytes :=
  ascii "\nFAILED t1\n>>>>> Start Test Output\nFAILED t1\n>>>>> End Test Output\n"

theorem grade?_noisyText :
    ¬ outputEnd <:+: noisyText ∧
      grade? (framed (ascii "FAILED t1\n>>>>> ") noisyText noiseBehind) = grade? noisyText := by
  have unclosed : ¬ outputEnd <:+: noisyText := by decide +kernel
  have clean : ∀ marker ∈ failureMarkers, ¬ marker <:+: ascii "FAILED t1\n>>>>> " ∧
      ¬ marker <:+: noisyText ∧ ¬ marker <:+: noiseBehind := by decide +kernel
  exact ⟨unclosed, grade?_framed (by decide +kernel) (by decide +kernel) unclosed clean⟩

/-! ## Cutting the text out -/

/-- So many bytes of a text from a place on, or as many as there are; none, if the place is
behind the end of the text. -/
def slice? (text : Bytes) (place count : Nat) : Option Bytes :=
  if place ≤ text.length then some ((text.drop place).take count) else none

/-- The text that counts of a log, cut out by places that are words of so many bits. -/
def sliceOutput? (width : Nat) (log : Bytes) : Option Bytes :=
  match indexOf? log outputStart, indexOf? log outputEnd with
  | some first, some last =>
      if last < first then some log
      else
        let opening := BitVec.ofNat width (first + outputStart.length)
        slice? log opening.toNat (BitVec.ofNat width last - opening).toNat
  | _, _ => some log

variable {log : Bytes} {first last : Nat}

/-- An end marker that is found is in the log as a whole. -/
theorem closing_le (closes : FirstAt outputEnd log last) :
    last + outputEnd.length ≤ log.length := by
  obtain ⟨before, after, parts, length⟩ := cut_at_place (by decide) closes.1
  rw [parts, ← length]
  simp only [List.length_append]
  omega

/-- A number that a word holds is what the word says. -/
theorem toNat_ofNat_of_fits {width number : Nat} (fits : number < 2 ^ width) :
    (BitVec.ofNat width number).toNat = number := by
  rw [BitVec.toNat_ofNat, Nat.mod_eq_of_lt fits]

/-- Words in order are subtracted as numbers are. -/
theorem toNat_ofNat_sub {width lower upper : Nat} (ordered : lower ≤ upper)
    (fits : upper < 2 ^ width) :
    (BitVec.ofNat width upper - BitVec.ofNat width lower).toNat = upper - lower := by
  have upperWord := toNat_ofNat_of_fits fits
  have lowerWord := toNat_ofNat_of_fits (Nat.lt_of_le_of_lt ordered fits)
  rw [BitVec.toNat_sub_of_le (by rwa [BitVec.le_def, upperWord, lowerWord]), upperWord, lowerWord]

/-- **The test output is cut out within the log.**  With both markers found, the end marker
not in front of the start marker, the text begins behind the whole start marker and ends
before the end marker, inside the log.  With words that a place in the log fits in, the
distance of the two is that of the numbers, and the slice from one to the other is there. -/
theorem sliceOutput?_within (opens : indexOf? log outputStart = some first)
    (closes : indexOf? log outputEnd = some last) (inOrder : ¬ last < first) :
    first + outputStart.length ≤ last ∧ last + outputEnd.length ≤ log.length ∧
      ∀ width, log.length < 2 ^ width →
        (BitVec.ofNat width last - BitVec.ofNat width (first + outputStart.length)).toNat =
            last - (first + outputStart.length) ∧
          sliceOutput? width log = some (testOutput log) := by
  have room : first + outputStart.length ≤ last :=
    opening_le (indexOf?_eq_some_iff.1 opens) (indexOf?_eq_some_iff.1 closes)
      (Nat.le_of_not_lt inOrder)
  have inside : last + outputEnd.length ≤ log.length :=
    closing_le (indexOf?_eq_some_iff.1 closes)
  refine ⟨room, inside, fun width fits => ?_⟩
  have lastFits : last < 2 ^ width := by omega
  have distance := toNat_ofNat_sub room lastFits
  have opening : (BitVec.ofNat width (first + outputStart.length)).toNat =
      first + outputStart.length := toNat_ofNat_of_fits (by omega)
  have reached : first + outputStart.length ≤ log.length := by omega
  refine ⟨distance, ?_⟩
  rw [sliceOutput?, testOutput, opens, closes]
  dsimp only
  rw [if_neg inOrder, if_neg inOrder, distance, opening, slice?, if_pos reached]

/-- Two markers with nothing between them, behind the beginning of a third. -/
def touchingLog : Bytes :=
  ascii ">>>>> >>>>> Start Test Output>>>>> End Test Output\n"

theorem touchingLog_within :
    indexOf? touchingLog outputStart = some 6 ∧ indexOf? touchingLog outputEnd = some 29 ∧
      ¬ 29 < 6 ∧ 6 + outputStart.length ≤ 29 ∧
        sliceOutput? 64 touchingLog = some (testOutput touchingLog) := by
  have opens : indexOf? touchingLog outputStart = some 6 := by decide +kernel
  have closes : indexOf? touchingLog outputEnd = some 29 := by decide +kernel
  have inOrder : ¬ 29 < 6 := by decide
  have fits : touchingLog.length < 2 ^ 64 := by decide +kernel
  obtain ⟨room, -, words⟩ := sliceOutput?_within opens closes inOrder
  exact ⟨opens, closes, inOrder, room, (words 64 fits).2⟩

end Assay.Test.Log
