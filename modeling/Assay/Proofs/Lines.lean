/-
# Assay.Proofs.Lines -- where the lines of a text are

The stretches between newlines are the lines of a text, but for an empty last one, which is
no line (`stretches_eq_rawLines`).  A carriage return that ends a line is a blank, and what
reads a line without the blanks around it does not see whether it is there (`trim_dropReturn`).

Lines that are each ended by a newline are read back from the text that they make
(`lines_flatMap_ended`), and so are lines that are ended in different ways, one by a newline
and another by a carriage return and a newline, or the last one by the end of the text
(`Spells`, `lines_of_spells`).
-/
import Assay.Bytes.Lines
import Assay.Proofs.Fields
import Mathlib.Data.List.Basic

namespace Assay.Bytes

set_option autoImplicit false

/-! ## Stretches and lines -/

/-- The stretches of a text between its newlines. -/
def stretches (text : Bytes) : List Bytes :=
  splitWhere (· == newline) text

theorem stretches_append_cons (first second : Bytes) :
    stretches (first ++ newline :: second) = stretches first ++ stretches second :=
  splitWhere_append_cons first rfl second

theorem unbroken_of_mem_stretches {text stretch : Bytes} (member : stretch ∈ stretches text) :
    newline ∉ stretch := by
  intro isIn
  cases separates_eq_false_of_mem_splitWhere member newline isIn

/-- An empty stretch behind the last newline, or in an empty text, is no line. -/
theorem stretches_eq_rawLines (text : Bytes) :
    stretches text = rawLines text ∨ stretches text = rawLines text ++ [[]] := by
  unfold stretches
  induction text with
  | nil => exact .inr rfl
  | cons b rest ih =>
      by_cases ended : b = newline
      · subst ended
        simpa [splitWhere, rawLines] using ih
      · have kept : ¬ (b == newline) = true := by simpa using ended
        rw [splitWhere, if_neg kept, rawLines, if_neg ended]
        rcases ih with same | behind
        · -- the rest begins with the same stretch either way, so `b` goes in front of it
          obtain ⟨first, more, cut⟩ :=
            List.exists_cons_of_ne_nil (splitWhere_ne_nil (· == newline) rest)
          rw [← same, cut]
          exact .inl rfl
        · rw [behind]
          cases rawLines rest with
          | nil => exact .inl rfl
          | cons line more => exact .inr rfl

theorem unbroken_of_mem_rawLines {text line : Bytes} (member : line ∈ rawLines text) :
    newline ∉ line := by
  have isStretch : line ∈ stretches text := by
    rcases stretches_eq_rawLines text with same | behind
    · rwa [same]
    · rw [behind]
      exact List.mem_append_left _ member
  exact unbroken_of_mem_stretches isStretch

theorem stretches_of_unbroken {line : Bytes} (unbroken : newline ∉ line) :
    stretches line = [line] :=
  splitWhere_solid fun b isIn => by
    have different : b ≠ newline := fun same => unbroken (same ▸ isIn)
    simpa using different

/-! ## Carriage returns -/

theorem dropReturn_of_unreturned {line : Bytes} (unreturned : line.getLast? ≠ some carriageReturn) :
    dropReturn line = line := by
  rw [dropReturn, if_neg unreturned]

theorem dropReturn_of_absent {line : Bytes} (absent : carriageReturn ∉ line) :
    dropReturn line = line :=
  dropReturn_of_unreturned fun isEnd => absent (List.mem_of_getLast? isEnd)

theorem dropReturn_concat (line : Bytes) : dropReturn (line ++ [carriageReturn]) = line := by
  rw [dropReturn, if_pos List.getLast?_concat, List.dropLast_concat]

theorem dropReturn_cases (line : Bytes) :
    dropReturn line = line ∨ line = dropReturn line ++ [carriageReturn] := by
  unfold dropReturn
  split
  · rename_i isEnd
    exact .inr (List.dropLast_append_getLast? carriageReturn isEnd).symm
  · exact .inl rfl

theorem isBlank_of_return : ∀ b ∈ [carriageReturn], isBlank b = true := by
  intro b member
  rw [List.mem_singleton.1 member]
  rfl

theorem trim_dropReturn (line : Bytes) : trim (dropReturn line) = trim line := by
  rcases dropReturn_cases line with same | returned
  · rw [same]
  · conv => rhs; rw [returned]
    rw [trim_append_blanks isBlank_of_return]

theorem unbroken_dropReturn {line : Bytes} (unbroken : newline ∉ line) :
    newline ∉ dropReturn line := by
  rcases dropReturn_cases line with same | returned
  · rwa [same]
  · rw [returned] at unbroken
    exact fun isIn => unbroken (List.mem_append_left _ isIn)

/-! ## Lines that are ended -/

theorem rawLines_ended {line : Bytes} (unbroken : newline ∉ line) (rest : Bytes) :
    rawLines (line ++ newline :: rest) = line :: rawLines rest := by
  induction line with
  | nil => simp [rawLines]
  | cons b more ih =>
      obtain ⟨different, behind⟩ := List.ne_and_not_mem_of_not_mem_cons unbroken
      rw [List.cons_append, rawLines, if_neg (Ne.symm different), ih behind]

/-- A text with a newline at its end, unless it has one or there is nothing to end. -/
def closeLine (text : Bytes) : Bytes :=
  if text = [] ∨ text.getLast? = some newline then text else text ++ [newline]

theorem closeLine_cons (b : UInt8) {rest : Bytes} (more : rest ≠ []) :
    closeLine (b :: rest) = b :: closeLine rest := by
  have last : (b :: rest).getLast? = rest.getLast? := by
    obtain ⟨c, behind, rfl⟩ := List.exists_cons_of_ne_nil more
    exact List.getLast?_cons_cons
  unfold closeLine
  rw [last]
  by_cases ended : rest.getLast? = some newline
  · simp [ended]
  · simp [ended, more]

/-- The lines of a text, each ended, are the text, if only its last line is ended. -/
theorem flatMap_rawLines (text : Bytes) :
    ((rawLines text).flatMap fun line => line ++ [newline]) = closeLine text := by
  induction text with
  | nil => rfl
  | cons b rest ih =>
      by_cases none : rest = []
      · subst none
        by_cases isEnd : b = newline <;> simp [rawLines, closeLine, isEnd]
      · rw [closeLine_cons b none, ← ih, rawLines]
        split
        · rename_i isEnd
          rw [isEnd]
          rfl
        · cases lines : rawLines rest with
          | nil =>
              -- only an empty text has no lines
              rw [lines, List.flatMap_nil] at ih
              unfold closeLine at ih
              split at ih
              · exact absurd ih.symm none
              · exact absurd ih.symm (by simp)
          | cons line more => rfl

/-- Lines that are each ended by a newline are the lines of the text that they make, but for
their carriage returns. -/
theorem lines_flatMap_newline {rows : List Bytes} (unbroken : ∀ line ∈ rows, newline ∉ line) :
    lines (rows.flatMap fun line => line ++ [newline]) = rows.map dropReturn := by
  unfold lines
  induction rows with
  | nil => rfl
  | cons line more ih =>
      obtain ⟨here, others⟩ := List.forall_mem_cons.1 unbroken
      rw [List.flatMap_cons, List.append_assoc, List.singleton_append, rawLines_ended here,
        List.map_cons, ih others, List.map_cons]

theorem lines_flatMap_ended {rows : List Bytes}
    (unbroken : ∀ line ∈ rows, newline ∉ line ∧ carriageReturn ∉ line) :
    lines (rows.flatMap fun line => line ++ [newline]) = rows := by
  have unreturned : rows.map dropReturn = rows := by
    conv => rhs; rw [← List.map_id rows]
    exact List.map_congr_left fun line member => dropReturn_of_absent (unbroken line member).2
  rw [lines_flatMap_newline fun line member => (unbroken line member).1, unreturned]

/-! ## Lines with either end -/

theorem rawLines_of_unbroken {line : Bytes} (unbroken : newline ∉ line) (nonempty : line ≠ []) :
    rawLines line = [line] := by
  have single := stretches_of_unbroken unbroken
  rcases stretches_eq_rawLines line with same | behind
  · rw [← same, single]
  · -- the empty stretch that is no line would be the line
    have onlyEmpty : [] ++ [line] = rawLines line ++ [[]] := single.symm.trans behind
    obtain ⟨-, isEmpty⟩ := List.append_inj' onlyEmpty rfl
    exact absurd (List.head_eq_of_cons_eq isEmpty) nonempty

theorem lines_cons_ended {line : Bytes} (unbroken : newline ∉ line) (rest : Bytes) :
    lines (line ++ newline :: rest) = dropReturn line :: lines rest := by
  rw [lines, rawLines_ended unbroken, List.map_cons, ← lines]

/-- The text is a way to write the lines down.  Each line is ended by a newline, with or
without a carriage return in front of it, and the last one, if there is something on it, also
by the end of the text. -/
inductive Spells : List Bytes → Bytes → Prop
  | nothing : Spells [] []
  | bare {more : List Bytes} {rest : Bytes} (line : Bytes) (later : Spells more rest) :
      Spells (line :: more) (line ++ newline :: rest)
  | returned {more : List Bytes} {rest : Bytes} (line : Bytes) (later : Spells more rest) :
      Spells (line :: more) (line ++ carriageReturn :: newline :: rest)
  | unended {line : Bytes} (nonempty : line ≠ []) : Spells [line] line

/-- **Lines are read back however they are ended**: no line is lost, split or joined to the
next one, whatever the mix of ends in one text. -/
theorem lines_of_spells {rows : List Bytes} {text : Bytes} (spells : Spells rows text)
    (plain : ∀ line ∈ rows, newline ∉ line ∧ line.getLast? ≠ some carriageReturn) :
    lines text = rows := by
  induction spells with
  | nothing => rfl
  | bare line later ih =>
      obtain ⟨⟨unbroken, unreturned⟩, others⟩ := List.forall_mem_cons.1 plain
      rw [lines_cons_ended unbroken, dropReturn_of_unreturned unreturned, ih others]
  | @returned more rest line later ih =>
      obtain ⟨⟨unbroken, -⟩, others⟩ := List.forall_mem_cons.1 plain
      have within : newline ∉ line ++ [carriageReturn] :=
        List.not_mem_append unbroken (by decide)
      have parts : line ++ carriageReturn :: newline :: rest =
          line ++ [carriageReturn] ++ newline :: rest := by simp
      rw [parts, lines_cons_ended within, dropReturn_concat, ih others]
  | @unended line nonempty =>
      obtain ⟨unbroken, unreturned⟩ := plain line List.mem_cons_self
      rw [lines, rawLines_of_unbroken unbroken nonempty, List.map_singleton,
        dropReturn_of_unreturned unreturned]

/-- An empty line with each end, a carriage return inside a line, and a last line without an
end. -/
theorem mixedEnds_read_back :
    Spells [[], ascii "a\rb", [], ascii "c"] (ascii "\r\na\rb\n\nc") ∧
      lines (ascii "\r\na\rb\n\nc") = [[], ascii "a\rb", [], ascii "c"] := by
  have spells : Spells [[], ascii "a\rb", [], ascii "c"] (ascii "\r\na\rb\n\nc") :=
    .returned [] (.bare (ascii "a\rb") (.bare [] (.unended (by decide))))
  exact ⟨spells, lines_of_spells spells (by decide)⟩

end Assay.Bytes
