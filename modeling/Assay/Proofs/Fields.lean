/-
# Assay.Proofs.Fields -- where the fields of a line stand

`splitWhere` cuts a text at separators: its first stretch begins the text, and what
follows it is a separator and the stretches of the rest (`splitWhere_cons`).  A text
that neither begins nor ends with a separator therefore begins with its first field
and ends with its last one; a trimmed line is such a text.

Read from left to right, a separator cuts a text in two (`splitWhere_append_cons`), so that a
word with a blank behind it is the first field, and blanks around a line, which trimming takes
away, make none (`fields_trim`).
-/
import Assay.Bytes.Basic

namespace Assay.Bytes

set_option autoImplicit false

variable {separates : UInt8 → Bool}

/-! ## Stretches -/

theorem splitWhere_ne_nil (separates : UInt8 → Bool) (text : Bytes) :
    splitWhere separates text ≠ [] := by
  cases text with
  | nil => simp [splitWhere]
  | cons b rest =>
      rw [splitWhere]
      split
      · simp
      · split <;> simp

/-- No stretch has a separator in it. -/
theorem separates_eq_false_of_mem_splitWhere {text stretch : Bytes}
    (member : stretch ∈ splitWhere separates text) : ∀ b ∈ stretch, separates b = false := by
  induction text generalizing stretch with
  | nil =>
      obtain rfl := List.mem_singleton.1 member
      simp
  | cons c rest ih =>
      rw [splitWhere] at member
      split at member
      · rcases List.mem_cons.1 member with rfl | later
        · simp
        · exact ih later
      · rename_i apart
        obtain ⟨first, more, cut⟩ :=
          List.exists_cons_of_ne_nil (splitWhere_ne_nil separates rest)
        rw [cut] at member ih
        rcases List.mem_cons.1 member with rfl | later
        · intro b isIn
          rcases List.mem_cons.1 isIn with rfl | behind
          · simpa using apart
          · exact ih List.mem_cons_self b behind
        · exact ih (List.mem_cons_of_mem first later)

/-- A separator cuts a text in two. -/
theorem splitWhere_append_cons (before : Bytes) {b : UInt8} (separator : separates b = true)
    (rest : Bytes) :
    splitWhere separates (before ++ b :: rest) =
      splitWhere separates before ++ splitWhere separates rest := by
  induction before with
  | nil => simp [splitWhere, separator]
  | cons c more ih =>
      obtain ⟨first, others, cut⟩ := List.exists_cons_of_ne_nil (splitWhere_ne_nil separates more)
      simp only [List.cons_append, splitWhere, ih, cut]
      split <;> rfl

/-- The first stretch is the whole text, or it stands before a separator and the other
stretches are those of what follows. -/
theorem splitWhere_cons {text first : Bytes} {more : List Bytes}
    (stretches : splitWhere separates text = first :: more) :
    (more = [] ∧ text = first) ∨
      ∃ b rest, separates b = true ∧ text = first ++ b :: rest ∧
        splitWhere separates rest = more := by
  induction text generalizing first with
  | nil =>
      cases stretches
      exact Or.inl ⟨rfl, rfl⟩
  | cons c tail ih =>
      rw [splitWhere] at stretches
      split at stretches
      · rename_i separator
        cases stretches
        exact Or.inr ⟨c, tail, separator, rfl, rfl⟩
      · obtain ⟨stretch, others, cut⟩ :=
          List.exists_cons_of_ne_nil (splitWhere_ne_nil separates tail)
        rw [cut] at stretches
        cases stretches
        rcases ih cut with ⟨alone, whole⟩ | ⟨b, rest, separator, parts, others⟩
        · exact Or.inl ⟨alone, by rw [whole]⟩
        · exact Or.inr ⟨b, rest, separator, by rw [parts, List.cons_append], others⟩

/-- The last stretch ends the text, behind a separator if there is anything before it. -/
theorem splitWhere_getLast {text last : Bytes} {stretches : List Bytes}
    (cut : splitWhere separates text = stretches) (isLast : stretches.getLast? = some last) :
    ∃ before, text = before ++ last ∧ ∀ b ∈ before.getLast?, separates b = true := by
  -- on the stretches and not on the text, for the last one is reached from stretch to stretch
  induction stretches generalizing text with
  | nil => exact absurd cut (splitWhere_ne_nil separates text)
  | cons first more ih =>
      rcases splitWhere_cons cut with ⟨alone, whole⟩ | ⟨b, rest, separator, parts, others⟩
      · rw [alone, List.getLast?_singleton] at isLast
        cases isLast
        exact ⟨[], by rw [whole, List.nil_append], by simp⟩
      · have moreLast : more.getLast? = some last := by
          have notNil : more ≠ [] := others ▸ splitWhere_ne_nil separates rest
          obtain ⟨second, others, rfl⟩ := List.exists_cons_of_ne_nil notNil
          rwa [List.getLast?_cons_cons] at isLast
        obtain ⟨before, ends, behind⟩ := ih others moreLast
        refine ⟨first ++ b :: before, by rw [parts, ends]; simp, ?_⟩
        intro c isEnd
        cases before with
        | nil =>
            have same : b = c := by simpa using isEnd
            exact same ▸ separator
        | cons d between =>
            refine behind c ?_
            simpa [List.getLast?_append, List.getLast?_cons_cons] using isEnd

/-! ## Fields -/

/-- A text that begins with no separator begins with its first field. -/
theorem fieldsWhere_begins {text first : Bytes}
    (begins : ∀ b ∈ text.head?, separates b = false)
    (isFirst : (fieldsWhere separates text).head? = some first) : first <+: text := by
  obtain ⟨stretch, more, cut⟩ := List.exists_cons_of_ne_nil (splitWhere_ne_nil separates text)
  rw [fieldsWhere, cut] at isFirst
  cases stretch with
  | nil =>
      -- an empty first stretch leaves no field at all, or stands before a separator
      rcases splitWhere_cons cut with ⟨alone, whole⟩ | ⟨b, rest, separator, whole, others⟩
      · rw [alone] at isFirst
        cases isFirst
      · rw [whole] at begins
        exact absurd separator (by simp [begins b rfl])
  | cons c between =>
      rw [List.filter_cons_of_pos rfl] at isFirst
      cases isFirst
      rcases splitWhere_cons cut with ⟨alone, whole⟩ | ⟨b, rest, separator, whole, others⟩
      · exact whole ▸ List.prefix_refl _
      · exact whole ▸ List.prefix_append _ _

/-- A text that ends with no separator ends with its last field. -/
theorem fieldsWhere_ends {text last : Bytes}
    (ends : ∀ b ∈ text.getLast?, separates b = false)
    (isLast : (fieldsWhere separates text).getLast? = some last) : last <:+ text := by
  rcases List.eq_nil_or_concat (splitWhere separates text) with none | ⟨init, stretch, cut⟩
  · exact absurd none (splitWhere_ne_nil separates text)
  · rw [List.concat_eq_append] at cut
    obtain ⟨before, whole, behind⟩ := splitWhere_getLast cut List.getLast?_concat
    cases stretch with
    | nil =>
        rw [List.append_nil] at whole
        rw [← whole] at behind
        cases textEnd : text.getLast? with
        | none =>
            rw [List.getLast?_eq_none_iff.1 textEnd] at isLast
            cases isLast
        | some b => exact absurd (behind b textEnd) (by simp [ends b textEnd])
    | cons c between =>
        rw [fieldsWhere, cut, List.filter_append, List.filter_cons_of_pos rfl, List.filter_nil,
          List.getLast?_concat] at isLast
        cases isLast
        exact whole ▸ List.suffix_append _ _

/-! ## Trimmed lines -/

theorem head?_dropWhile_false (p : UInt8 → Bool) (text : Bytes) :
    ∀ b ∈ (text.dropWhile p).head?, p b = false := by
  intro b isFirst
  have stopped := List.head?_dropWhile_not p text
  rw [Option.mem_def.1 isFirst] at stopped
  exact stopped

/-- A trimmed line begins with no blank. -/
theorem head?_trim (line : Bytes) : ∀ b ∈ (trim line).head?, isBlank b = false := by
  intro b isFirst
  have kept : trim line <+: trimLeft line := by
    rw [trim, trimRight, ← List.reverse_suffix, List.reverse_reverse]
    exact List.dropWhile_suffix _
  obtain ⟨dropped, whole⟩ := kept
  refine head?_dropWhile_false isBlank line b ?_
  change b ∈ (trimLeft line).head?
  rw [← whole, List.head?_append, Option.mem_def.1 isFirst]
  rfl

/-- A trimmed line ends with no blank. -/
theorem getLast?_trim (line : Bytes) : ∀ b ∈ (trim line).getLast?, isBlank b = false := by
  intro b isEnd
  rw [trim, trimRight, List.getLast?_reverse] at isEnd
  exact head?_dropWhile_false isBlank _ b isEnd

theorem fields_trim_begins {line first : Bytes}
    (isFirst : (fields (trim line)).head? = some first) : first <+: trim line :=
  fieldsWhere_begins (head?_trim line) isFirst

theorem fields_trim_ends {line last : Bytes}
    (isLast : (fields (trim line)).getLast? = some last) : last <:+ trim line :=
  fieldsWhere_ends (getLast?_trim line) isLast

/-! ## Words between blanks -/

theorem splitWhere_solid {word : Bytes} (solid : ∀ b ∈ word, separates b = false) :
    splitWhere separates word = [word] := by
  induction word with
  | nil => rfl
  | cons c more ih =>
      obtain ⟨first, others⟩ := List.forall_mem_cons.1 solid
      rw [splitWhere, if_neg (by simp [first]), ih others]

theorem fields_word {word : Bytes} (nonempty : word ≠ [])
    (solid : ∀ b ∈ word, isBlank b = false) : fields word = [word] := by
  simp [fields, fieldsWhere, splitWhere_solid solid, nonempty]

/-- A blank cuts a text in two as far as its fields go. -/
theorem fields_append_cons (before : Bytes) {b : UInt8} (blank : isBlank b = true) (rest : Bytes) :
    fields (before ++ b :: rest) = fields before ++ fields rest := by
  simp only [fields, fieldsWhere, splitWhere_append_cons before blank, List.filter_append]

/-- Blanks in front make no field. -/
theorem fields_blanks_append {pad : Bytes} (blank : ∀ b ∈ pad, isBlank b = true) (text : Bytes) :
    fields (pad ++ text) = fields text := by
  induction pad with
  | nil => rfl
  | cons b more ih =>
      obtain ⟨first, others⟩ := List.forall_mem_cons.1 blank
      have skips : fields (b :: (more ++ text)) = fields [] ++ fields (more ++ text) :=
        fields_append_cons [] first (more ++ text)
      rw [List.cons_append, skips, ih others]
      rfl

/-- Blanks behind a text make none, either. -/
theorem fields_append_blanks {pad : Bytes} (blank : ∀ b ∈ pad, isBlank b = true) (text : Bytes) :
    fields (text ++ pad) = fields text := by
  cases pad with
  | nil => rw [List.append_nil]
  | cons b more =>
      obtain ⟨first, others⟩ := List.forall_mem_cons.1 blank
      have none : fields more = fields [] := by
        rw [← fields_blanks_append others [], List.append_nil]
      rw [fields_append_cons text first more, none]
      exact List.append_nil (fields text)

/-- A word is the first field, when blanks are all that can follow it. -/
theorem fields_word_append {word : Bytes} (nonempty : word ≠ [])
    (solid : ∀ b ∈ word, isBlank b = false) {b : UInt8} (blank : isBlank b = true) (rest : Bytes) :
    fields (word ++ b :: rest) = word :: fields rest := by
  rw [fields_append_cons word blank, fields_word nonempty solid, List.singleton_append]

/-- A word is the first field, when nothing or a blank follows it. -/
theorem fields_word_gap {word gap : Bytes} (nonempty : word ≠ [])
    (solid : ∀ b ∈ word, isBlank b = false) (ends : ∀ b ∈ gap.head?, isBlank b = true) :
    fields (word ++ gap) = word :: fields gap := by
  cases gap with
  | nil => rw [List.append_nil, fields_word nonempty solid]; rfl
  | cons b rest =>
      have blank : isBlank b = true := ends b rfl
      have skips : fields (b :: rest) = fields [] ++ fields rest := fields_append_cons [] blank rest
      rw [fields_word_append nonempty solid blank, skips]
      rfl

theorem dropWhile_blanks {pad text : Bytes} (blank : ∀ b ∈ pad, isBlank b = true)
    (begins : ∀ b ∈ text.head?, isBlank b = false) : (pad ++ text).dropWhile isBlank = text := by
  rw [List.dropWhile_append_of_pos blank]
  cases text with
  | nil => rfl
  | cons b rest => rw [List.dropWhile_cons_of_neg (by simp [begins b rfl])]

/-- Trimming takes away just the blanks around a text. -/
theorem trim_padded {left text right : Bytes} (blankLeft : ∀ b ∈ left, isBlank b = true)
    (blankRight : ∀ b ∈ right, isBlank b = true) (nonempty : text ≠ [])
    (begins : ∀ b ∈ text.head?, isBlank b = false) (ends : ∀ b ∈ text.getLast?, isBlank b = false) :
    trim (left ++ text ++ right) = text := by
  have starts : ∀ b ∈ (text ++ right).head?, isBlank b = false := by
    obtain ⟨c, more, rfl⟩ := List.exists_cons_of_ne_nil nonempty
    exact begins
  have stops : ∀ b ∈ text.reverse.head?, isBlank b = false := by
    intro b isFirst
    rw [List.head?_reverse] at isFirst
    exact ends b isFirst
  have blankBack : ∀ b ∈ right.reverse, isBlank b = true := fun b member =>
    blankRight b (List.mem_reverse.1 member)
  rw [trim, trimLeft, List.append_assoc, dropWhile_blanks blankLeft starts, trimRight,
    List.reverse_append, dropWhile_blanks blankBack stops, List.reverse_reverse]

/-- Blanks behind a text are trimmed away with those that end it. -/
theorem trim_append_blanks {pad : Bytes} (blank : ∀ b ∈ pad, isBlank b = true) (text : Bytes) :
    trim (text ++ pad) = trim text := by
  have blankBack : ∀ b ∈ pad.reverse, isBlank b = true := fun b member =>
    blank b (List.mem_reverse.1 member)
  have dropped : (pad ++ []).dropWhile isBlank = [] := dropWhile_blanks blank (by simp)
  rw [List.append_nil] at dropped
  unfold trim trimLeft
  rw [List.dropWhile_append]
  split
  · rename_i allBlank
    rw [List.isEmpty_iff.1 allBlank, dropped]
  · rw [trimRight, List.reverse_append, List.dropWhile_append_of_pos blankBack, trimRight]

/-- A line is what is left of it by trimming, with blanks around it. -/
theorem exists_trim_padded (line : Bytes) : ∃ left right, (∀ b ∈ left, isBlank b = true) ∧
    (∀ b ∈ right, isBlank b = true) ∧ line = left ++ trim line ++ right := by
  refine ⟨line.takeWhile isBlank, ((trimLeft line).reverse.takeWhile isBlank).reverse, ?_, ?_, ?_⟩
  · exact List.all_eq_true.1 List.all_takeWhile
  · intro b member
    exact List.all_eq_true.1 List.all_takeWhile b (List.mem_reverse.1 member)
  · rw [trim, trimRight, List.append_assoc, ← List.reverse_append, List.takeWhile_append_dropWhile,
      List.reverse_reverse, trimLeft, List.takeWhile_append_dropWhile]

/-- Trimming takes no field away. -/
theorem fields_trim (line : Bytes) : fields (trim line) = fields line := by
  obtain ⟨left, right, blankLeft, blankRight, parts⟩ := exists_trim_padded line
  conv => rhs; rw [parts]
  rw [List.append_assoc, fields_blanks_append blankLeft, fields_append_blanks blankRight]

end Assay.Bytes
