/-
# Assay.Proofs.Reports -- what a test log reports

A log is read by a search for markers, a cut into lines and words and a table that is
written over as the lines go by.  Here is what that comes to, said of the log as it
stands: `Graded` is the text that counts, `Reports` what one line says, and
`LastReport` the last word on a test.  The table holds exactly the last reports
(`get?_statuses_iff`).
-/
import Assay.Proofs.Fields
import Assay.Proofs.Seams
import Assay.Test.Log
import Mathlib.Data.List.Induction

namespace Assay.Test

set_option autoImplicit false

open Bytes

theorem Status.mem_all (status : Status) : status ∈ Status.all := by
  cases status <;> decide

theorem Status.ofWord?_eq_some_iff {word : Bytes} {status : Status} :
    Status.ofWord? word = some status ↔ word = status.word := by
  constructor
  · intro found
    have same := List.find?_some found
    exact eq_of_beq same
  · rintro rfl
    cases status <;> decide

namespace Log

/-! ## The text that counts -/

/-- The text between the first start marker and the first end marker, when both are
there in this order, and otherwise the whole log. -/
inductive Graded (log : Bytes) : Bytes → Prop
  | between {before text after : Bytes}
      (parts : log = before ++ outputStart ++ text ++ outputEnd ++ after)
      (opens : FirstAt outputStart log before.length)
      (closes : FirstAt outputEnd log (before ++ outputStart ++ text).length) : Graded log text
  | whole (unmarked : ∀ first last, FirstAt outputStart log first → FirstAt outputEnd log last →
      last < first) : Graded log log

theorem outputEnd_apart_outputStart : Apart outputEnd outputStart := by
  decide +kernel

/-- An end marker does not begin inside a start marker. -/
theorem outputEnd_apart (tail : Bytes) {offset : Nat} (inside : offset < outputStart.length) :
    ¬ outputEnd <+: (outputStart ++ tail).drop offset := by
  intro ends
  rw [List.drop_append_of_le_length (Nat.le_of_lt inside)] at ends
  have fits := fits_of_prefix ends (List.prefix_append _ tail)
  exact outputEnd_apart_outputStart.inside offset inside fits

theorem Graded.eq_testOutput {log text : Bytes} (graded : Graded log text) :
    text = testOutput log := by
  cases graded with
  | @between before text after parts opens closes =>
      have inOrder : ¬ (before ++ outputStart ++ text).length < before.length := by
        simp only [List.length_append]
        omega
      have opening : before.length + outputStart.length = (before ++ outputStart).length := by
        rw [List.length_append]
      unfold testOutput
      rw [indexOf?_eq_some_iff.2 opens, indexOf?_eq_some_iff.2 closes]
      dsimp only
      rw [if_neg inOrder, opening, parts, List.append_assoc _ outputEnd after,
        List.append_assoc _ text, List.drop_left, List.length_append, Nat.add_sub_cancel_left,
        List.take_left]
  | whole unmarked =>
      unfold testOutput
      split
      · rename_i first last opens closes
        have reversed := unmarked first last (indexOf?_eq_some_iff.1 opens)
          (indexOf?_eq_some_iff.1 closes)
        rw [if_pos reversed]
      · rfl

/-- Markers in this order do not overlap. -/
theorem opening_le {log : Bytes} {first last : Nat} (opens : FirstAt outputStart log first)
    (closes : FirstAt outputEnd log last) (inOrder : first ≤ last) :
    first + outputStart.length ≤ last := by
  obtain ⟨tail, behind⟩ := opens.1
  refine Nat.le_of_not_lt fun overlap => ?_
  have inside : last - first < outputStart.length := by omega
  refine outputEnd_apart tail inside ?_
  rw [behind, List.drop_drop, Nat.add_sub_cancel' inOrder]
  exact closes.1

theorem exists_graded (log : Bytes) : ∃ text, Graded log text := by
  by_cases unmarked : ∀ first last, FirstAt outputStart log first → FirstAt outputEnd log last →
      last < first
  · exact ⟨log, .whole unmarked⟩
  · simp only [Classical.not_forall, Nat.not_lt] at unmarked
    obtain ⟨first, last, opens, closes, inOrder⟩ := unmarked
    -- the end marker stands wholly behind the start marker, so it is found in the rest
    have room := opening_le opens closes inOrder
    obtain ⟨before, rest, parts, beforeLength⟩ := cut_at_place (by decide) opens.1
    have opening : (before ++ outputStart).length = first + outputStart.length := by
      rw [List.length_append, beforeLength]
    have atEnd : outputEnd <+: rest.drop (last - (first + outputStart.length)) := by
      have ends := closes.1
      rwa [parts, ← Nat.add_sub_cancel' room, ← List.drop_drop, ← opening, List.drop_left,
        opening] at ends
    obtain ⟨text, after, restParts, textLength⟩ := cut_at_place (by decide) atEnd
    have allParts : log = before ++ outputStart ++ text ++ outputEnd ++ after := by
      rw [parts, restParts]
      simp only [List.append_assoc]
    refine ⟨text, .between allParts ?_ ?_⟩
    · rw [beforeLength]
      exact opens
    · rw [List.length_append, opening, textLength, Nat.add_sub_cancel' room]
      exact closes

/-- `testOutput` is the text that counts. -/
theorem graded_iff {log text : Bytes} : Graded log text ↔ text = testOutput log := by
  constructor
  · exact Graded.eq_testOutput
  · rintro rfl
    obtain ⟨text, graded⟩ := exists_graded log
    rw [← graded.eq_testOutput]
    exact graded

/-! ## Lines -/

/-- What a line reports: with a status word in front, the first two words say it, and
otherwise the last word and the first. -/
inductive Reports (line test : Bytes) (status : Status) : Prop
  | leading (begins : ∃ other : Status, other.word <+: trim line)
      (first : (fields (trim line))[0]? = some status.word)
      (second : (fields (trim line))[1]? = some test)
  | trailing (plain : ∀ other : Status, ¬ other.word <+: trim line)
      (last : (fields (trim line)).getLast? = some status.word)
      (first : (fields (trim line)).head? = some test)

theorem startsWithStatus_iff {line : Bytes} :
    startsWithStatus line = true ↔ ∃ status : Status, status.word <+: line := by
  simp [startsWithStatus, startsWith, Status.mem_all]

theorem endsWithStatus_of_suffix {line : Bytes} {status : Status} (ends : status.word <:+ line) :
    endsWithStatus line = true :=
  List.any_eq_true.2 ⟨status, status.mem_all, List.isSuffixOf_iff_suffix.2 ends⟩

theorem reportOf_eq_some_iff {test word named : Bytes} {status : Status} :
    reportOf named word = some (test, status) ↔ word = status.word ∧ named = test := by
  simp only [reportOf, Option.map_eq_some_iff, Status.ofWord?_eq_some_iff, Prod.mk.injEq]
  constructor
  · rintro ⟨other, written, same, rfl⟩
    exact ⟨written, same⟩
  · rintro ⟨written, same⟩
    exact ⟨status, written, same, rfl⟩

theorem reports_iff_of_leading {line test : Bytes} {status : Status}
    (begins : startsWithStatus (trim line) = true) :
    Reports line test status ↔
      (fields (trim line))[0]? = some status.word ∧ (fields (trim line))[1]? = some test := by
  have leads := startsWithStatus_iff.1 begins
  constructor
  · intro reports
    cases reports with
    | leading _ first second => exact ⟨first, second⟩
    | trailing plain _ _ =>
        obtain ⟨other, starts⟩ := leads
        exact absurd starts (plain other)
  · rintro ⟨first, second⟩
    exact .leading leads first second

theorem reports_iff_of_plain {line test : Bytes} {status : Status}
    (plain : startsWithStatus (trim line) = false) :
    Reports line test status ↔
      (fields (trim line)).getLast? = some status.word ∧
        (fields (trim line)).head? = some test := by
  have notLeading : ∀ other : Status, ¬ other.word <+: trim line := by
    intro other starts
    rw [startsWithStatus_iff.2 ⟨other, starts⟩] at plain
    cases plain
  constructor
  · intro reports
    cases reports with
    | leading begins _ _ =>
        obtain ⟨other, starts⟩ := begins
        exact absurd starts (notLeading other)
    | trailing _ last first => exact ⟨last, first⟩
  · rintro ⟨last, first⟩
    exact .trailing notLeading last first

theorem nil_or_singleton {words : List Bytes}
    (few : ∀ first second more, words = first :: second :: more → False) :
    words = [] ∨ ∃ only, words = [only] := by
  cases words with
  | nil => exact Or.inl rfl
  | cons only more =>
      cases more with
      | nil => exact Or.inr ⟨only, rfl⟩
      | cons second more => exact (few only second more rfl).elim

/-- **`lineReport?` finds what a line reports.**  Lines of fewer than two words need no
rule of their own: a status word that stands alone begins its line. -/
theorem lineReport?_eq_some_iff {line test : Bytes} {status : Status} :
    lineReport? line = some (test, status) ↔ Reports line test status := by
  unfold lineReport?
  dsimp only
  cases begins : startsWithStatus (trim line) with
  | true =>
      rw [reports_iff_of_leading begins]
      split
      · rename_i first second more words
        rw [words, if_pos rfl, reportOf_eq_some_iff]
        simp
      · rename_i few
        rcases nil_or_singleton few with none | ⟨only, alone⟩
        · simp [none]
        · simp [alone]
  | false =>
      rw [reports_iff_of_plain begins]
      split
      · rename_i first second more words
        have isLast : (fields (trim line)).getLast? = some ((second :: more).getLastD second) := by
          rw [words]
          simp [List.getLast?_cons]
        rw [isLast, words, if_neg Bool.false_ne_true]
        split
        · rw [reportOf_eq_some_iff]
          simp
        · rename_i notTrailing
          constructor
          · intro found
            cases found
          · rintro ⟨last, -⟩
            rw [last] at isLast
            exact absurd (endsWithStatus_of_suffix (fields_trim_ends isLast)) notTrailing
      · rename_i few
        constructor
        · intro found
          cases found
        · rintro ⟨last, first⟩
          rcases nil_or_singleton few with none | ⟨only, alone⟩
          · rw [none] at first
            cases first
          · -- the only word is first and last, so the status word leads after all
            have isFirst : (fields (trim line)).head? = some status.word := by
              rw [alone] at last ⊢
              exact last
            have leads := startsWithStatus_iff.2 ⟨status, fields_trim_begins isFirst⟩
            rw [leads] at begins
            cases begins

/-! ## The last report -/

/-- One of the lines reports the test with this status, and no later one reports it. -/
def LastReport (rows : List Bytes) (test : Bytes) (status : Status) : Prop :=
  ∃ before line after, rows = before ++ line :: after ∧ Reports line test status ∧
    ∀ later ∈ after, ∀ other, ¬ Reports later test other

theorem lastReport_append_singleton {rows : List Bytes} {line test : Bytes} {status : Status} :
    LastReport (rows ++ [line]) test status ↔
      Reports line test status ∨
        (∀ other, ¬ Reports line test other) ∧ LastReport rows test status := by
  constructor
  · rintro ⟨before, found, after, parts, reports, silent⟩
    rcases List.eq_nil_or_concat after with rfl | ⟨init, last, rfl⟩
    · obtain ⟨-, same⟩ := List.append_inj' parts rfl
      cases same
      exact Or.inl reports
    · rw [List.concat_eq_append, ← List.cons_append, ← List.append_assoc] at parts
      obtain ⟨rfl, same⟩ := List.append_inj' parts rfl
      cases same
      refine Or.inr ⟨silent line (by simp), before, found, init, rfl, reports, ?_⟩
      exact fun later member => silent later (by simp [member])
  · rintro (reports | ⟨quiet, before, found, after, rfl, reports, silent⟩)
    · exact ⟨rows, line, [], rfl, reports, by simp⟩
    · refine ⟨before, found, after ++ [line], by simp, reports, ?_⟩
      intro later member
      rcases List.mem_append.1 member with earlier | isLast
      · exact silent later earlier
      · exact List.mem_singleton.1 isLast ▸ quiet

/-- A test has a last report when it has any. -/
theorem exists_lastReport_iff {rows : List Bytes} {test : Bytes} :
    (∃ status, LastReport rows test status) ↔
      ∃ line ∈ rows, ∃ status, Reports line test status := by
  constructor
  · rintro ⟨status, before, line, after, rfl, reports, -⟩
    exact ⟨line, by simp, status, reports⟩
  · rintro ⟨line, member, reported⟩
    -- from the last line on: the first one met that reports the test has the last word
    induction rows using List.reverseRecOn with
    | nil => cases member
    | append_singleton rows last ih =>
        simp only [lastReport_append_singleton]
        by_cases lastReports : ∃ status, Reports last test status
        · obtain ⟨status, reports⟩ := lastReports
          exact ⟨status, Or.inl reports⟩
        · have quiet : ∀ other, ¬ Reports last test other := fun other reports =>
            lastReports ⟨other, reports⟩
          rcases List.mem_append.1 member with earlier | isLast
          · obtain ⟨status, reports⟩ := ih earlier
            exact ⟨status, Or.inr ⟨quiet, reports⟩⟩
          · rw [List.mem_singleton.1 isLast] at reported
            exact absurd reported lastReports

/-- **The table holds the last reports.** -/
theorem get?_foldl_addLine_iff {rows : List Bytes} {test : Bytes} {status : Status} :
    (rows.foldl addLine ∅).get? test = some status ↔ LastReport rows test status := by
  -- the last line is written last, so the induction takes lines off the end
  induction rows using List.reverseRecOn with
  | nil => simp [LastReport]
  | append_singleton rows line ih =>
      rw [List.foldl_append, List.foldl_cons, List.foldl_nil, lastReport_append_singleton, addLine]
      cases report : lineReport? line with
      | none => simp [← lineReport?_eq_some_iff, report, ih]
      | some found =>
          obtain ⟨reported, other⟩ := found
          by_cases same : reported = test
          · simp [← lineReport?_eq_some_iff, report, same]
          · simp [← lineReport?_eq_some_iff, report, same, ih]

/-- **The table of a text has an entry for a test when the last line about it has.** -/
theorem get?_statuses_iff {text test : Bytes} {status : Status} :
    (statuses text).get? test = some status ↔ LastReport (lines text) test status :=
  get?_foldl_addLine_iff

/-- Where all lines that report a test agree with one table about it, no line has the last
word against another. -/
theorem get?_statuses_iff_of_agree {table : Statuses} {text test : Bytes} {status : Status}
    (agree : ∀ line ∈ lines text, ∀ other, Reports line test other →
      table.get? test = some other) :
    (statuses text).get? test = some status ↔ ∃ line ∈ lines text, Reports line test status := by
  rw [get?_statuses_iff]
  constructor
  · rintro ⟨before, line, after, parts, reports, -⟩
    exact ⟨line, by simp [parts], reports⟩
  · rintro ⟨line, member, reports⟩
    obtain ⟨other, isLast⟩ := exists_lastReport_iff.2 ⟨line, member, status, reports⟩
    obtain ⟨before, found, after, parts, tells, silent⟩ := isLast
    have here := agree line member status reports
    have there := agree found (by simp [parts]) other tells
    have same : other = status := Option.some.inj (there.symm.trans here)
    exact ⟨before, found, after, parts, same ▸ tells, silent⟩

/-- The table has entries when some line reports something. -/
theorem isEmpty_statuses_iff {text : Bytes} :
    (statuses text).isEmpty = false ↔
      ∃ line ∈ lines text, ∃ test status, Reports line test status := by
  rw [← Bool.not_eq_true, KeyMap.isEmpty_iff, Classical.not_forall]
  constructor
  · rintro ⟨test, found⟩
    obtain ⟨status, entry⟩ := Option.ne_none_iff_exists'.1 found
    obtain ⟨line, member, reported⟩ := exists_lastReport_iff.1 ⟨status, get?_statuses_iff.1 entry⟩
    exact ⟨line, member, test, reported⟩
  · rintro ⟨line, member, test, reported⟩
    obtain ⟨status, isLast⟩ := exists_lastReport_iff.2 ⟨line, member, reported⟩
    refine ⟨test, fun missing => ?_⟩
    rw [← get?_statuses_iff, missing] at isLast
    cases isLast

theorem hasFailureMarker_eq_false_iff {log : Bytes} :
    hasFailureMarker log = false ↔ ∀ marker ∈ failureMarkers, ¬ marker <:+: log := by
  simp only [hasFailureMarker, List.any_eq_false, contains_iff_isInfix]

/-- **What a whole log is graded by**: it holds no marker of failure, and the text that
counts reports something. -/
theorem grade?_eq_some_iff {log : Bytes} {found : Statuses} :
    grade? log = some found ↔
      (∀ marker ∈ failureMarkers, ¬ marker <:+: log) ∧
        ∃ text, Graded log text ∧ found = statuses text ∧
          ∃ line ∈ lines text, ∃ test status, Reports line test status := by
  unfold grade?
  cases marked : hasFailureMarker log with
  | true =>
      rw [if_pos rfl]
      constructor
      · intro answer
        cases answer
      · rintro ⟨free, -⟩
        rw [hasFailureMarker_eq_false_iff.2 free] at marked
        cases marked
  | false =>
      rw [if_neg Bool.false_ne_true]
      dsimp only
      cases empty : (statuses (testOutput log)).isEmpty with
      | true =>
          rw [if_pos rfl]
          constructor
          · intro answer
            cases answer
          · rintro ⟨-, text, graded, -, reported⟩
            rw [graded_iff.1 graded, ← isEmpty_statuses_iff, empty] at reported
            cases reported
      | false =>
          rw [if_neg Bool.false_ne_true, Option.some.injEq]
          constructor
          · rintro rfl
            exact ⟨hasFailureMarker_eq_false_iff.1 marked, testOutput log, graded_iff.2 rfl, rfl,
              isEmpty_statuses_iff.1 empty⟩
          · rintro ⟨-, text, graded, rfl, -⟩
            rw [graded_iff.1 graded]

end Log

end Assay.Test
