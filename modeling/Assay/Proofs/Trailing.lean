/-
# Assay.Proofs.Trailing -- lines that name a test and then its status

`tests/a.py::b PASSED` names a test, then how it went.  `Trailing` is such a line, with any
spaces and tabs around and between its two words; the name of a test is any word that is no
status word itself.

The words of such a line are its name and its status word (`Trailing.fields_core`), but the
beginning of the line decides how it is read, and the name stands there.  A name that begins
with a status word, such as `ERROR_paths.py::open`, has the line read as one with its status
in front, and then it reports nothing.  So a line enters its status in the table exactly
where no status word begins its name (`addLine_trailing`), and a table that is written down
with such a line for each entry is read back where that is so of all its names
(`trailing_read_back`).
-/
import Assay.Proofs.Lines
import Assay.Proofs.Reports

namespace Assay.Test.Log

set_option autoImplicit false

open Bytes

/-! ## Names and padding -/

def tab : UInt8 := 9

/-- The name of a test: a word that is no status word. -/
structure TestName where
  text : Bytes
  nonempty : text ≠ []
  solid : ∀ b ∈ text, isBlank b = false
  unworded : ∀ status : Status, text ≠ status.word

/-- Spaces and tabs. -/
structure Padding where
  text : Bytes
  plain : ∀ b ∈ text, b = space ∨ b = tab

theorem Padding.blank (padding : Padding) : ∀ b ∈ padding.text, isBlank b = true := by
  intro b member
  rcases padding.plain b member with rfl | rfl <;> rfl

theorem Padding.unbroken (padding : Padding) :
    newline ∉ padding.text ∧ carriageReturn ∉ padding.text := by
  constructor <;> intro member <;> rcases padding.plain _ member with same | same <;> cases same

theorem unbroken_of_solid {text : Bytes} (solid : ∀ b ∈ text, isBlank b = false) :
    newline ∉ text ∧ carriageReturn ∉ text := by
  constructor <;> intro member <;> cases solid _ member

/-- A line that names a test and then its status. -/
structure Trailing where
  left : Padding
  name : TestName
  gap : Padding
  separated : gap.text ≠ []
  status : Status
  right : Padding

namespace Trailing

/-- The line without the padding around it. -/
def core (row : Trailing) : Bytes :=
  row.name.text ++ row.gap.text ++ row.status.word

def line (row : Trailing) : Bytes :=
  row.left.text ++ row.core ++ row.right.text

/-- What the line is written down for. -/
def entry (row : Trailing) : Bytes × Status :=
  (row.name.text, row.status)

end Trailing

/-! ## The words of the line -/

theorem word_ne_nil (status : Status) : status.word ≠ [] := by
  cases status <;> decide

theorem word_solid (status : Status) : ∀ b ∈ status.word, isBlank b = false := by
  cases status <;> decide +kernel

namespace Trailing

variable (row : Trailing)

theorem core_eq_cons : ∃ b rest, row.gap.text = b :: rest ∧ isBlank b = true ∧
    row.core = row.name.text ++ b :: (rest ++ row.status.word) := by
  obtain ⟨b, rest, parts⟩ := List.exists_cons_of_ne_nil row.separated
  have blank : isBlank b = true := row.gap.blank b (parts ▸ List.mem_cons_self)
  exact ⟨b, rest, parts, blank, by rw [core, parts]; simp⟩

theorem fields_core : fields row.core = [row.name.text, row.status.word] := by
  obtain ⟨b, rest, parts, blank, written⟩ := row.core_eq_cons
  have blanks : ∀ c ∈ rest, isBlank c = true := fun c member =>
    row.gap.blank c (parts ▸ List.mem_cons_of_mem b member)
  rw [written, fields_word_append row.name.nonempty row.name.solid blank,
    fields_blanks_append blanks, fields_word (word_ne_nil _) (word_solid _)]

/-- The padding is trimmed away, and no more than that. -/
theorem trim_line : trim row.line = row.core := by
  have begins : ∀ b ∈ row.core.head?, isBlank b = false := by
    obtain ⟨b, more, parts⟩ := List.exists_cons_of_ne_nil row.name.nonempty
    intro c isFirst
    have same : b = c := by simpa [core, parts] using isFirst
    exact same ▸ row.name.solid b (parts ▸ List.mem_cons_self)
  have ends : ∀ b ∈ row.core.getLast?, isBlank b = false := by
    intro b isEnd
    obtain ⟨c, isLast⟩ : ∃ c, row.status.word.getLast? = some c :=
      ⟨_, List.getLast?_eq_some_getLast (word_ne_nil row.status)⟩
    rw [core, List.getLast?_append, isLast, Option.some_or] at isEnd
    cases isEnd
    exact word_solid row.status b (List.mem_of_getLast? isLast)
  have nonempty : row.core ≠ [] := by simp [core, row.name.nonempty]
  exact trim_padded row.left.blank row.right.blank nonempty begins ends

/-- A status word begins the line where it begins the name: it has no blank in it. -/
theorem startsWithStatus_core : startsWithStatus row.core = startsWithStatus row.name.text := by
  rw [Bool.eq_iff_iff, startsWithStatus_iff, startsWithStatus_iff]
  obtain ⟨b, rest, -, blank, written⟩ := row.core_eq_cons
  constructor
  · rintro ⟨status, begins⟩
    rw [written] at begins
    rcases prefix_append_cases begins with within | ⟨longer, behind⟩
    · exact ⟨status, within⟩
    · -- the blank behind the name would be a byte of the status word
      have inWord : b ∈ status.word := by
        obtain ⟨c, more, parts⟩ := List.exists_cons_of_ne_nil
          (List.drop_eq_nil_iff.not.2 (Nat.not_le.2 longer))
        have isIn : c ∈ status.word := List.mem_of_mem_drop (by rw [parts]; exact List.mem_cons_self)
        rw [parts, List.cons_prefix_cons] at behind
        exact behind.1 ▸ isIn
      exact absurd blank (by simp [word_solid status b inWord])
  · rintro ⟨status, begins⟩
    rw [core, List.append_assoc]
    exact ⟨status, begins.trans (List.prefix_append _ _)⟩

/-- **What such a line reports**: the name with the status, unless a status word begins the
name. -/
theorem lineReport?_line :
    lineReport? row.line =
      if startsWithStatus row.name.text then none else some (row.name.text, row.status) := by
  have unworded : Status.ofWord? row.name.text = none := by
    rw [Option.eq_none_iff_forall_ne_some]
    exact fun status found => row.name.unworded status (Status.ofWord?_eq_some_iff.1 found)
  have ends : endsWithStatus row.core = true :=
    endsWithStatus_of_suffix (List.suffix_append _ row.status.word)
  unfold lineReport?
  simp only [row.trim_line, row.fields_core, row.startsWithStatus_core, ends]
  split
  · rw [reportOf, unworded, Option.map_none]
  · exact reportOf_eq_some_iff.2 ⟨rfl, rfl⟩

theorem addLine_trailing (earlier : Statuses) :
    addLine earlier row.line =
      if startsWithStatus row.name.text then earlier
      else earlier.insert row.name.text row.status := by
  rw [addLine, row.lineReport?_line]
  cases startsWithStatus row.name.text <;> rfl

theorem reports_line_iff {test : Bytes} {status : Status} :
    Reports row.line test status ↔
      row.entry = (test, status) ∧ startsWithStatus test = false := by
  rw [← lineReport?_eq_some_iff, row.lineReport?_line, entry]
  constructor
  · intro found
    split at found
    · cases found
    · rename_i plain
      cases found
      exact ⟨rfl, by simpa using plain⟩
  · rintro ⟨same, plain⟩
    cases same
    rw [plain]
    rfl

/-- No byte of the line ends a line. -/
theorem line_unbroken : newline ∉ row.line ∧ carriageReturn ∉ row.line := by
  have inName := unbroken_of_solid row.name.solid
  have inStatus := unbroken_of_solid (word_solid row.status)
  have inLeft := row.left.unbroken
  have inGap := row.gap.unbroken
  have inRight := row.right.unbroken
  simp_all [line, core]

end Trailing

/-! ## Tables that are written down -/

/-- What stands in a table that is written down are the entries of the lines. -/
theorem get?_eq_some_iff_of_listed {table : Statuses} {rows : List Trailing}
    (listed : (rows.map Trailing.entry).Perm table.toList) {test : Bytes} {status : Status} :
    table.get? test = some status ↔ ∃ row ∈ rows, row.entry = (test, status) := by
  rw [← KeyMap.mem_toList_iff, ← listed.mem_iff, List.mem_map]

/-- A table written down line by line is read back but for the names that a status word
begins. -/
theorem get?_statuses_trailing {table : Statuses} {rows : List Trailing} {text : Bytes}
    (listed : (rows.map Trailing.entry).Perm table.toList)
    (written : lines text = rows.map Trailing.line) {test : Bytes} {status : Status} :
    (statuses text).get? test = some status ↔
      table.get? test = some status ∧ startsWithStatus test = false := by
  have reported : ∀ other, (∃ line ∈ rows.map Trailing.line, Reports line test other) ↔
      table.get? test = some other ∧ startsWithStatus test = false := by
    intro other
    rw [get?_eq_some_iff_of_listed listed]
    constructor
    · rintro ⟨line, member, reports⟩
      obtain ⟨row, isRow, rfl⟩ := List.mem_map.1 member
      obtain ⟨same, plain⟩ := row.reports_line_iff.1 reports
      exact ⟨⟨row, isRow, same⟩, plain⟩
    · rintro ⟨⟨row, isRow, same⟩, plain⟩
      exact ⟨row.line, List.mem_map_of_mem isRow, row.reports_line_iff.2 ⟨same, plain⟩⟩
  have agree : ∀ line ∈ lines text, ∀ other, Reports line test other →
      table.get? test = some other := by
    intro line member other reports
    exact ((reported other).1 ⟨line, written ▸ member, reports⟩).1
  rw [get?_statuses_iff_of_agree agree, written, reported]

/-- **Lines that end with their status are read back exactly where no status word begins a
name.**  Such a line enters its status in any table, or leaves the table as it is; and a log
with one such line for each entry of a table, in any order, is read back as the table. -/
theorem trailing_read_back {table : Statuses} {rows : List Trailing} {text : Bytes}
    (listed : (rows.map Trailing.entry).Perm table.toList)
    (written : lines text = rows.map Trailing.line) :
    (∀ (row : Trailing) (earlier : Statuses), addLine earlier row.line =
      if startsWithStatus row.name.text then earlier
      else earlier.insert row.name.text row.status) ∧
      (statuses text = table ↔ ∀ row ∈ rows, startsWithStatus row.name.text = false) := by
  refine ⟨Trailing.addLine_trailing, ?_⟩
  have read : ∀ {test status}, (statuses text).get? test = some status ↔
      table.get? test = some status ∧ startsWithStatus test = false :=
    get?_statuses_trailing listed written
  constructor
  · intro same row member
    have inTable := (get?_eq_some_iff_of_listed listed).2 ⟨row, member, rfl⟩
    rw [← same] at inTable
    exact (read.1 inTable).2
  · intro plain
    refine KeyMap.ext_get? fun test => Option.ext fun status => ?_
    rw [read]
    constructor
    · exact And.left
    · intro inTable
      obtain ⟨row, member, same⟩ := (get?_eq_some_iff_of_listed listed).1 inTable
      cases same
      exact ⟨inTable, plain row member⟩

/-! ### Two logs -/

/-- The form `name STATUS`, with nothing around it. -/
def Trailing.bare (name : TestName) (status : Status) : Trailing where
  left := ⟨[], by simp⟩
  name := name
  gap := ⟨[space], by simp⟩
  separated := by simp
  status := status
  right := ⟨[], by simp⟩

def passedFirst : TestName where
  text := ascii "test_PASSED_first"
  nonempty := by decide
  solid := by decide +kernel
  unworded status := by cases status <;> decide +kernel

def openPaths : TestName where
  text := ascii "tests/paths.py::open"
  nonempty := by decide
  solid := by decide +kernel
  unworded status := by cases status <;> decide +kernel

/-- Two lines, not in the order of their names, one of them with padding. -/
def twoRows : List Trailing :=
  [{ Trailing.bare openPaths .expectedFailure with
      left := ⟨[space, tab], by simp⟩
      right := ⟨[tab], by simp⟩ },
    Trailing.bare passedFirst .failed]

def twoEntries : Statuses :=
  ((∅ : Statuses).insert passedFirst.text .failed).insert openPaths.text .expectedFailure

def twoLines : Bytes :=
  (twoRows.map Trailing.line).flatMap fun line => line ++ [newline]

theorem twoLines_read_back :
    (twoRows.map Trailing.entry).Perm twoEntries.toList ∧
      lines twoLines = twoRows.map Trailing.line ∧ statuses twoLines = twoEntries := by
  have listed : (twoRows.map Trailing.entry).Perm twoEntries.toList := by decide +kernel
  have written : lines twoLines = twoRows.map Trailing.line := by
    refine lines_flatMap_ended fun line member => ?_
    obtain ⟨row, -, rfl⟩ := List.mem_map.1 member
    exact row.line_unbroken
  have plain : ∀ row ∈ twoRows, startsWithStatus row.name.text = false := by decide +kernel
  exact ⟨listed, written, (trailing_read_back listed written).2.2 plain⟩

def errorPaths : TestName where
  text := ascii "ERROR_paths.py::open"
  nonempty := by decide
  solid := by decide +kernel
  unworded status := by cases status <;> decide +kernel

/-- The test passed and its line says so, but its name begins with a status word. -/
theorem errorPaths_dropped :
    (Trailing.bare errorPaths .passed).line = ascii "ERROR_paths.py::open PASSED" ∧
      (statuses (ascii "ERROR_paths.py::open PASSED")).get? errorPaths.text = none := by
  decide +kernel

end Assay.Test.Log
