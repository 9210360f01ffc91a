/-
# Assay.Proofs.Leading -- lines that give a status and then name a test

`FAILED tests/a.py::b - reason` gives a status, then names the test.  `Leading` is such a
line, with any spaces and tabs around it and with or without a reason; the test may have any
word for its name, a status word too, and the reason may say anything that stands on one
line.  The status word in front decides how the line is read, so that nothing behind the name
is looked at (`Leading.lineReport?_line`).

A log in which each entry of a table has such a line, among other output whose lines neither
begin nor end with a status word, is read back to exactly the table, with either end on each
line and with or without the newline at its end (`leading_read_back`).
-/
import Assay.Proofs.Blocks
import Assay.Proofs.Trailing

namespace Assay.Test.Log

set_option autoImplicit false

open Bytes

/-! ## Lines with the status in front -/

/-- A word that names a test. -/
structure TestWord where
  text : Bytes
  nonempty : text ≠ []
  solid : ∀ b ∈ text, isBlank b = false

/-- What a line goes on to say about a test. -/
structure Reason where
  text : Bytes
  unbroken : newline ∉ text

def Reason.behind : Option Reason → Bytes
  | some reason => ascii " - " ++ reason.text
  | none => []

/-- A line that gives a status and then names a test. -/
structure Leading where
  left : Padding
  status : Status
  name : TestWord
  reason : Option Reason
  right : Padding

namespace Leading

/-- What stands behind the name. -/
def rest (row : Leading) : Bytes :=
  Reason.behind row.reason ++ row.right.text

def line (row : Leading) : Bytes :=
  row.left.text ++ (row.status.word ++ (space :: row.name.text ++ row.rest))

/-- What the line is written down for. -/
def entry (row : Leading) : Bytes × Status :=
  (row.name.text, row.status)

variable (row : Leading)

/-- The name ends where its word does: a blank stands behind it, or nothing. -/
theorem rest_begins {pad : Bytes} (blank : ∀ b ∈ pad, isBlank b = true) :
    ∀ b ∈ (row.rest ++ pad).head?, isBlank b = true := by
  intro b isFirst
  unfold rest at isFirst
  cases given : row.reason with
  | some reason =>
      have same : space = b := by simpa [given, Reason.behind, ascii, space] using isFirst
      exact same ▸ rfl
  | none =>
      have blanks : ∀ c ∈ row.right.text ++ pad, isBlank c = true := by
        intro c member
        rcases List.mem_append.1 member with inRight | inPad
        · exact row.right.blank c inRight
        · exact blank c inPad
      rw [given, Reason.behind, List.nil_append] at isFirst
      exact blanks b (List.mem_of_mem_head? isFirst)

/-- The first two words of the line are its status word and its name. -/
theorem fields_line {pad : Bytes} (blank : ∀ b ∈ pad, isBlank b = true) :
    fields (row.line ++ pad) =
      row.status.word :: row.name.text :: fields (row.rest ++ pad) := by
  have spaced : ∀ b ∈ (space :: (row.name.text ++ (row.rest ++ pad))).head?, isBlank b = true := by
    intro b isFirst
    cases isFirst
    rfl
  have skips : fields (space :: (row.name.text ++ (row.rest ++ pad))) =
      fields [] ++ fields (row.name.text ++ (row.rest ++ pad)) := fields_append_cons [] rfl _
  have parts : row.line ++ pad = row.left.text ++
      (row.status.word ++ space :: (row.name.text ++ (row.rest ++ pad))) := by
    simp [line]
  rw [parts, fields_blanks_append row.left.blank,
    fields_word_gap (word_ne_nil row.status) (word_solid row.status) spaced, skips,
    fields_word_gap row.name.nonempty row.name.solid (row.rest_begins blank)]
  rfl

/-- **Such a line reports its entry**, whatever it says behind the name. -/
theorem lineReport?_line {pad : Bytes} (blank : ∀ b ∈ pad, isBlank b = true) :
    lineReport? (row.line ++ pad) = some row.entry := by
  have words := row.fields_line blank
  rw [← fields_trim] at words
  have first : (fields (trim (row.line ++ pad))).head? = some row.status.word := by
    rw [words]
    rfl
  refine lineReport?_eq_some_iff.2 (.leading ⟨row.status, fields_trim_begins first⟩ ?_ ?_)
  · rw [words]
    rfl
  · rw [words]
    rfl

theorem line_unbroken : newline ∉ row.line := by
  have inLeft := row.left.unbroken.1
  have inRight := row.right.unbroken.1
  have inStatus := (unbroken_of_solid (word_solid row.status)).1
  have inName := (unbroken_of_solid row.name.solid).1
  have inReason : newline ∉ Reason.behind row.reason := by
    cases row.reason with
    | none => exact List.not_mem_nil
    | some reason =>
        have apart : newline ∉ ascii " - " := by decide
        simp [Reason.behind, apart, reason.unbroken]
  have notSpace : newline ≠ space := by decide
  simp [line, rest, inLeft, inStatus, notSpace, inName, inReason, inRight]

end Leading

/-! ## Logs with other output -/

/-- A line of other output: trimmed, it neither begins nor ends with a status word. -/
structure Chatter where
  text : Bytes
  unbroken : newline ∉ text
  unopened : startsWithStatus (trim text) = false
  unclosed : endsWithStatus (trim text) = false

theorem Chatter.lineReport?_text (chatter : Chatter) {pad : Bytes}
    (blank : ∀ b ∈ pad, isBlank b = true) : lineReport? (chatter.text ++ pad) = none := by
  unfold lineReport?
  simp only [trim_append_blanks blank, chatter.unopened, chatter.unclosed]
  split <;> rfl

/-- A line of a log. -/
inductive Row where
  | report (row : Leading)
  | other (chatter : Chatter)

namespace Row

def line : Row → Bytes
  | report row => row.line
  | other chatter => chatter.text

/-- What the line is written down for, if it is a report. -/
def reported? : Row → Option (Bytes × Status)
  | report row => some row.entry
  | other _ => none

theorem line_unbroken (row : Row) : newline ∉ row.line := by
  cases row with
  | report row => exact row.line_unbroken
  | other chatter => exact chatter.unbroken

theorem lineReport?_line (row : Row) {pad : Bytes} (blank : ∀ b ∈ pad, isBlank b = true) :
    lineReport? (row.line ++ pad) = row.reported? := by
  cases row with
  | report row => exact row.lineReport?_line blank
  | other chatter => exact chatter.lineReport?_text blank

end Row

/-- How a line is ended. -/
inductive LineEnd where
  | bare
  | returned
  deriving DecidableEq, Repr

/-- What stands before the newline. -/
def LineEnd.before : LineEnd → Bytes
  | bare => []
  | returned => [carriageReturn]

theorem LineEnd.before_blank (ending : LineEnd) : ∀ b ∈ ending.before, isBlank b = true := by
  cases ending with
  | bare => exact fun b member => absurd member List.not_mem_nil
  | returned => exact isBlank_of_return

/-- Lines, each with its own end. -/
def logText (rows : List (Row × LineEnd)) : Bytes :=
  rows.flatMap fun row => row.1.line ++ (row.2.before ++ [newline])

/-- What such a log reports are the entries of its lines. -/
theorem exists_reports_logText_iff {rows : List (Row × LineEnd)} {test : Bytes} {status : Status} :
    (∃ line ∈ lines (logText rows), Reports line test status) ↔
      (test, status) ∈ rows.filterMap fun row => row.1.reported? := by
  have ended : logText rows = (rows.map fun row => row.1.line ++ row.2.before).flatMap
      fun line => line ++ [newline] := by
    simp [logText, List.flatMap_map]
  have unbroken : ∀ line ∈ rows.map fun row => row.1.line ++ row.2.before, newline ∉ line := by
    intro line member
    obtain ⟨⟨row, ending⟩, -, rfl⟩ := List.mem_map.1 member
    have inBefore : newline ∉ ending.before := by cases ending <;> decide
    exact List.not_mem_append row.line_unbroken inBefore
  have told : ∀ row : Row × LineEnd,
      Reports (dropReturn (row.1.line ++ row.2.before)) test status ↔
        row.1.reported? = some (test, status) := by
    intro row
    rw [← lineReport?_eq_some_iff, lineReport?_dropReturn,
      row.1.lineReport?_line row.2.before_blank]
  rw [ended, lines_flatMap_newline unbroken, List.mem_filterMap]
  constructor
  · rintro ⟨line, member, reports⟩
    simp only [List.map_map, List.mem_map, Function.comp_apply] at member
    obtain ⟨row, isRow, rfl⟩ := member
    exact ⟨row, isRow, (told row).1 reports⟩
  · rintro ⟨row, isRow, entry⟩
    refine ⟨_, ?_, (told row).2 entry⟩
    simp only [List.map_map, List.mem_map, Function.comp_apply]
    exact ⟨row, isRow, rfl⟩

/-- **A table that is written down with the status in front is read back.**  Each entry has a
line of its own, in any order, among any other output; the newline at the end of the log may
be missing. -/
theorem leading_read_back {table : Statuses} {rows : List (Row × LineEnd)} {text : Bytes}
    (listed : (rows.filterMap fun row => row.1.reported?).Perm table.toList)
    (written : text = logText rows ∨ text ++ [newline] = logText rows) :
    statuses text = table := by
  have whole : statuses text = statuses (logText rows) := by
    rcases written with same | unended
    · rw [same]
    · rw [← unended, statuses_concat_newline]
  have reported : ∀ {test status}, (∃ line ∈ lines (logText rows), Reports line test status) ↔
      table.get? test = some status := by
    intro test status
    rw [exists_reports_logText_iff, listed.mem_iff, KeyMap.mem_toList_iff]
  have agree : ∀ test, ∀ line ∈ lines (logText rows), ∀ other, Reports line test other →
      table.get? test = some other := fun test line member other reports =>
    reported.1 ⟨line, member, reports⟩
  rw [whole]
  refine KeyMap.ext_get? fun test => Option.ext fun status => ?_
  rw [get?_statuses_iff_of_agree (agree test), reported]

/-! ### A log -/

/-- A test whose name is a status word. -/
def namedPassed : TestWord where
  text := ascii "PASSED"
  nonempty := by decide
  solid := by decide +kernel

def openSlowly : TestWord where
  text := ascii "tests/ERROR.py::open_slowly"
  nonempty := by decide
  solid := by decide +kernel

/-- A line with status words inside it, and blanks at both ends. -/
def tally : Chatter where
  text := ascii " 1 FAILED, 1 SKIPPED in 0.1s "
  unbroken := by decide +kernel
  unopened := by decide +kernel
  unclosed := by decide +kernel

def Padding.spaces (count : Nat) : Padding where
  text := List.replicate count space
  plain _ member := .inl (List.eq_of_mem_replicate member)

def Padding.tabs (count : Nat) : Padding where
  text := List.replicate count tab
  plain _ member := .inr (List.eq_of_mem_replicate member)

/-- Status words, a carriage return and a status word at the end. -/
def vagueReason : Reason where
  text := ascii " not FAILED, but\r PASSED"
  unbroken := by decide +kernel

def mixedRows : List (Row × LineEnd) :=
  [(.other tally, .returned),
    (.report ⟨.tabs 2, .skipped, openSlowly, some vagueReason, .spaces 0⟩, .bare),
    (.report ⟨.spaces 0, .failed, namedPassed, none, .spaces 1⟩, .returned)]

def mixedTable : Statuses :=
  ((∅ : Statuses).insert namedPassed.text .failed).insert openSlowly.text .skipped

/-- The log of these lines, without its last newline. -/
def mixedLog : Bytes :=
  (logText mixedRows).dropLast

theorem mixedLog_read_back :
    (mixedRows.filterMap fun row => row.1.reported?).Perm mixedTable.toList ∧
      mixedLog ++ [newline] = logText mixedRows ∧ statuses mixedLog = mixedTable := by
  have listed : (mixedRows.filterMap fun row => row.1.reported?).Perm mixedTable.toList := by
    decide +kernel
  have written : mixedLog ++ [newline] = logText mixedRows := by decide +kernel
  exact ⟨listed, written, leading_read_back listed (.inr written)⟩

end Assay.Test.Log
