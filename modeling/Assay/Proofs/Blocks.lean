/-
# Assay.Proofs.Blocks -- a test log as blocks of lines

A log that is put together from two blocks with a newline between them reports what the
blocks report, the second over the first (`statuses_append_newline`).  Nothing is lost or
gained at the seam: a block may be empty, may end in a newline of its own or in a carriage
return, and what comes of that is at most one more empty line, which reports nothing.

So a log is read block by block, down to its single lines, and the last one to report a test
has the last word; blocks that report different tests can change places
(`statuses_of_blocks`).
-/
import Assay.Proofs.Lines
import Assay.Proofs.Reports

namespace Assay.Test.Log

set_option autoImplicit false

open Bytes

/-! ## Lines, with and without what ends them -/

/-- A carriage return at its end is nothing to what a line reports. -/
theorem lineReport?_dropReturn (line : Bytes) :
    lineReport? (dropReturn line) = lineReport? line := by
  unfold lineReport?
  rw [trim_dropReturn]

theorem addLine_dropReturn (earlier : Statuses) (line : Bytes) :
    addLine earlier (dropReturn line) = addLine earlier line := by
  rw [addLine, lineReport?_dropReturn, addLine]

theorem addLine_nil (earlier : Statuses) : addLine earlier [] = earlier :=
  rfl

/-- A text reports what its stretches report: an empty last one is no line, but it would
report nothing. -/
theorem statuses_eq_foldl_stretches (text : Bytes) :
    statuses text = (stretches text).foldl addLine ∅ := by
  have returned : statuses text = (rawLines text).foldl addLine ∅ := by
    rw [statuses, lines, List.foldl_map]
    simp only [addLine_dropReturn]
  rw [returned]
  rcases stretches_eq_rawLines text with same | behind
  · rw [same]
  · rw [behind, List.foldl_append, List.foldl_cons, List.foldl_nil, addLine_nil]

theorem statuses_of_unbroken {line : Bytes} (unbroken : newline ∉ line) :
    statuses line = addLine ∅ line := by
  rw [statuses_eq_foldl_stretches, stretches_of_unbroken unbroken, List.foldl_cons,
    List.foldl_nil]

/-! ## Two blocks -/

/-- A line is laid over the table that is there. -/
theorem addLine_override (earlier later : Statuses) (line : Bytes) :
    addLine (earlier.override later) line = earlier.override (addLine later line) := by
  unfold addLine
  cases lineReport? line with
  | none => rfl
  | some report => exact (KeyMap.override_insert earlier later report.1 report.2).symm

/-- Lines are laid over the table that is there, as a table of their own. -/
theorem foldl_addLine_eq_override (rows : List Bytes) (earlier : Statuses) :
    rows.foldl addLine earlier = earlier.override (rows.foldl addLine ∅) := by
  induction rows using List.reverseRecOn with
  | nil => rfl
  | append_singleton rows line ih =>
      simp only [List.foldl_append, List.foldl_cons, List.foldl_nil]
      rw [ih, addLine_override]

/-- **Two blocks report what they report alone, the second over the first.** -/
theorem statuses_append_newline (first second : Bytes) :
    statuses (first ++ newline :: second) = (statuses first).override (statuses second) := by
  rw [statuses_eq_foldl_stretches, stretches_append_cons, List.foldl_append,
    foldl_addLine_eq_override, ← statuses_eq_foldl_stretches, ← statuses_eq_foldl_stretches]

/-- A newline at the end of a text changes nothing, whether or not there is one already. -/
theorem statuses_concat_newline (text : Bytes) : statuses (text ++ [newline]) = statuses text :=
  statuses_append_newline text []

/-! ## Any number of blocks -/

/-- Blocks with newlines between them report what they report alone, each over those before
it. -/
theorem statuses_join_newline (blocks : List Bytes) :
    statuses (join blocks [newline]) = (blocks.map statuses).foldr KeyMap.override ∅ := by
  induction blocks with
  | nil => rfl
  | cons block more ih =>
      cases more with
      | nil => simp [join]
      | cons next others =>
          have seam : join (block :: next :: others) [newline] =
              block ++ newline :: join (next :: others) [newline] := by
            simp [join, List.intercalate_cons_cons]
          rw [seam, statuses_append_newline, ih]
          rfl

/-- The lines of a text are blocks of it. -/
theorem statuses_eq_foldr_lines (text : Bytes) :
    statuses text = ((lines text).map statuses).foldr KeyMap.override ∅ := by
  have alone : ∀ line ∈ lines text, statuses line = addLine ∅ line := by
    intro line member
    obtain ⟨raw, isRaw, rfl⟩ := List.mem_map.1 member
    exact statuses_of_unbroken (unbroken_dropReturn (unbroken_of_mem_rawLines isRaw))
  rw [List.map_congr_left alone, statuses]
  induction lines text with
  | nil => rfl
  | cons line more ih =>
      rw [List.foldl_cons, foldl_addLine_eq_override, ih, List.map_cons, List.foldr_cons]

/-- Neighbouring blocks that report different tests can change places. -/
theorem statuses_join_swap {first second : Bytes}
    (apart : ∀ test ∈ (statuses first).keys, test ∉ (statuses second).keys)
    (before after : List Bytes) :
    statuses (join (before ++ first :: second :: after) [newline]) =
      statuses (join (before ++ second :: first :: after) [newline]) := by
  simp only [statuses_join_newline, List.map_append, List.map_cons, List.foldr_append,
    List.foldr_cons]
  rw [KeyMap.override_left_comm apart]

/-- **A log is read block by block.**  The second of two blocks is laid over the first, so
that each test has the status that the second reports, or else that of the first; of all the
lines of a text, read one by one, the last that reports a test says how it went; and blocks
that report different tests can change places, whatever stands before and behind them. -/
theorem statuses_of_blocks (first second : Bytes) :
    statuses (first ++ newline :: second) = (statuses first).override (statuses second) ∧
      (∀ test, (statuses (first ++ newline :: second)).get? test =
        ((statuses second).get? test).or ((statuses first).get? test)) ∧
      (∀ text test, (statuses text).get? test =
        (lines text).reverse.findSome? fun line => (statuses line).get? test) ∧
      ((∀ test ∈ (statuses first).keys, test ∉ (statuses second).keys) →
        ∀ before after, statuses (join (before ++ first :: second :: after) [newline]) =
          statuses (join (before ++ second :: first :: after) [newline])) := by
  refine ⟨statuses_append_newline first second, ?_, ?_, statuses_join_swap⟩
  · intro test
    rw [statuses_append_newline, KeyMap.get?_override]
  · intro text test
    rw [statuses_eq_foldr_lines, KeyMap.get?_foldr_override, ← List.map_reverse,
      List.findSome?_map]
    rfl

/-- Two reports of a test, and a carriage return at the cut. -/
def changingBlock : Bytes :=
  ascii "FAILED t1 - PASSED later\nt1 PASSED\r"

/-- An empty line in front, and a newline at the end. -/
def looseBlock : Bytes :=
  ascii "\nSKIPPED t2\nt3 XFAIL\n"

theorem changingBlock_swaps_with_looseBlock :
    (∀ test ∈ (statuses changingBlock).keys, test ∉ (statuses looseBlock).keys) ∧
      statuses (join [ascii "ERROR t2", changingBlock, looseBlock, []] [newline]) =
        statuses (join [ascii "ERROR t2", looseBlock, changingBlock, []] [newline]) := by
  have apart : ∀ test ∈ (statuses changingBlock).keys, test ∉ (statuses looseBlock).keys := by
    decide +kernel
  exact ⟨apart, (statuses_of_blocks changingBlock looseBlock).2.2.2 apart [ascii "ERROR t2"] [[]]⟩

end Assay.Test.Log
