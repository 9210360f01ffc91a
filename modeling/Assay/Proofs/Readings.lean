/-
# Assay.Proofs.Readings -- the one reading of a command line

A `Reading` is a command line taken apart: blanks, then words each with the blanks behind
it, and perhaps a last word with none.  A word is made of pieces: a byte that stands for
itself, a backslash with a byte, and quotations of both kinds.  `Reading.spelling` is the line,
and `Reading.words` are the texts that its words stand for; neither knows of a reader.

A line has a reading where a scan for quotes ends outside of them (`exists_reading`), and never
two: the first byte of a piece says of which kind it is, and each piece shows where it ends,
so that no piece begins another (`Piece.eq_of_append_eq`) and the whole line shows where it is
to be taken apart (`Reading.spelling_injective`).  `splitWords` passes through a piece and has
read what it stands for (`readWords_piece`).  So it answers the words of the one reading, and
refuses a line just where the scan ends in a quotation or behind a backslash
(`splitWords_reading`).
-/
import Assay.Proofs.Fields
import Assay.Proofs.Quotation

namespace Assay.Shell

set_option autoImplicit false

open Bytes

/-! ## Pieces -/

/-- The byte is part of a word and stands for itself. -/
def isWordByte (b : UInt8) : Bool :=
  !isBlank b && !isQuoting b

/-- The bytes in front of which a backslash between double quotes is dropped. -/
def dropsBackslash (b : UInt8) : Bool :=
  b == backslash || b == doubleQuote || b == dollar || b == backtick || b == newline

/-- A part of what stands between double quotes. -/
inductive QuotedPart where
  | plain (b : UInt8) (notQuote : b ≠ doubleQuote) (notBackslash : b ≠ backslash)
  /-- A backslash and the byte behind it. -/
  | pair (b : UInt8)

namespace QuotedPart

def spelling : QuotedPart → Bytes
  | plain b _ _ => [b]
  | pair b => [backslash, b]

def text : QuotedPart → Bytes
  | plain b _ _ => [b]
  | pair b => if dropsBackslash b then [b] else [backslash, b]

end QuotedPart

/-- A part of a word. -/
inductive Piece where
  | plain (b : UInt8) (ofWord : isWordByte b = true)
  /-- A backslash and the byte behind it. -/
  | escaped (b : UInt8)
  | single (text : Bytes) (unquoted : singleQuote ∉ text)
  | double (parts : List QuotedPart)

namespace Piece

/-- The piece as it is written. -/
def spelling : Piece → Bytes
  | plain b _ => [b]
  | escaped b => [backslash, b]
  | single text _ => singleQuote :: text ++ [singleQuote]
  | double parts => doubleQuote :: parts.flatMap QuotedPart.spelling ++ [doubleQuote]

/-- What the piece stands for. -/
def text : Piece → Bytes
  | plain b _ => [b]
  | escaped b => [b]
  | single text _ => text
  | double parts => parts.flatMap QuotedPart.text

end Piece

/-! ## Readings -/

/-- One piece or more. -/
structure Word where
  first : Piece
  more : List Piece

namespace Word

def spelling (word : Word) : Bytes :=
  word.first.spelling ++ word.more.flatMap Piece.spelling

def text (word : Word) : Bytes :=
  word.first.text ++ word.more.flatMap Piece.text

end Word

/-- Any number of blanks. -/
@[ext]
structure Blanks where
  text : Bytes
  blank : ∀ b ∈ text, isBlank b = true

/-- One blank or more. -/
@[ext]
structure Gap extends Blanks where
  nonempty : text ≠ []

/-- A command line taken apart. -/
@[ext]
structure Reading where
  lead : Blanks
  /-- The words that blanks follow. -/
  rows : List (Word × Gap)
  /-- The word at the end, with nothing behind it. -/
  last : Option Word

namespace Reading

/-- What stands behind the first blanks. -/
def body (rows : List (Word × Gap)) (last : Option Word) : Bytes :=
  (rows.flatMap fun row => row.1.spelling ++ row.2.text) ++ last.toList.flatMap Word.spelling

/-- The line as it is written. -/
def spelling (reading : Reading) : Bytes :=
  reading.lead.text ++ body reading.rows reading.last

/-- What the words stand for, in order. -/
def words (reading : Reading) : List Bytes :=
  reading.rows.map (fun row => row.1.text) ++ reading.last.toList.map Word.text

end Reading

/-! ## No piece begins another -/

theorem isWordByte_iff {b : UInt8} :
    isWordByte b = true ↔
      isBlank b = false ∧ b ≠ singleQuote ∧ b ≠ doubleQuote ∧ b ≠ backslash := by
  simp [isWordByte, isQuoting, and_assoc]

/-- A piece begins with a byte that is no blank. -/
theorem Piece.spelling_eq_cons (piece : Piece) :
    ∃ b rest, piece.spelling = b :: rest ∧ isBlank b = false := by
  cases piece with
  | plain b ofWord => exact ⟨b, [], rfl, (isWordByte_iff.1 ofWord).1⟩
  | escaped b => exact ⟨backslash, [b], rfl, rfl⟩
  | single text _ => exact ⟨singleQuote, text ++ [singleQuote], rfl, rfl⟩
  | double parts =>
      exact ⟨doubleQuote, parts.flatMap QuotedPart.spelling ++ [doubleQuote], rfl, rfl⟩

/-- Texts that a byte ends which is in neither of them are the same up to it. -/
theorem eq_of_append_cons_eq {b : UInt8} {text other rest behind : Bytes} (absent : b ∉ text)
    (absentOther : b ∉ other) (same : text ++ b :: rest = other ++ b :: behind) :
    text = other ∧ rest = behind := by
  induction text generalizing other with
  | nil =>
      cases other with
      | nil => simpa using same
      | cons d others => exact absurd (List.cons.inj same).1 (List.ne_of_not_mem_cons absentOther)
  | cons c more ih =>
      cases other with
      | nil => exact absurd (List.cons.inj same).1.symm (List.ne_of_not_mem_cons absent)
      | cons d others =>
          obtain ⟨rfl, later⟩ := List.cons.inj same
          have behindC := List.not_mem_of_not_mem_cons absent
          obtain ⟨rfl, rest⟩ := ih behindC (List.not_mem_of_not_mem_cons absentOther) later
          exact ⟨rfl, rest⟩

/-- The parts between double quotes can be told from the text. -/
theorem parts_eq_of_append_eq {parts others : List QuotedPart} {rest behind : Bytes}
    (same : parts.flatMap QuotedPart.spelling ++ doubleQuote :: rest =
      others.flatMap QuotedPart.spelling ++ doubleQuote :: behind) :
    parts = others ∧ rest = behind := by
  have different : backslash ≠ doubleQuote := by decide
  induction parts generalizing others with
  | nil =>
      cases others with
      | nil => simpa using same
      | cons other more => cases other <;> simp_all [QuotedPart.spelling, eq_comm]
  | cons part parts ih =>
      cases others with
      | nil => cases part <;> simp_all [QuotedPart.spelling]
      | cons other more =>
          -- the first byte of a part says whether a second one belongs to it
          cases part with
          | plain b _ notBackslash =>
              cases other with
              | plain c _ _ =>
                  obtain ⟨rfl, later⟩ := List.cons.inj same
                  simpa using ih later
              | pair c => exact absurd (List.cons.inj same).1 notBackslash
          | pair b =>
              cases other with
              | plain c _ notBackslash => exact absurd (List.cons.inj same).1.symm notBackslash
              | pair c =>
                  obtain ⟨rfl, later⟩ := List.cons.inj (List.cons.inj same).2
                  simpa using ih later

/-- **No piece begins another one**: two pieces that begin the same text are the same. -/
theorem Piece.eq_of_append_eq {piece other : Piece} {rest behind : Bytes}
    (same : piece.spelling ++ rest = other.spelling ++ behind) :
    piece = other ∧ rest = behind := by
  cases piece with
  | plain b ofWord =>
      obtain ⟨-, notSingle, notDouble, notBackslash⟩ := isWordByte_iff.1 ofWord
      cases other with
      | plain c _ => simpa [spelling] using same
      | escaped c => simp [spelling, notBackslash] at same
      | single text _ => simp [spelling, notSingle] at same
      | double parts => simp [spelling, notDouble] at same
  | escaped b =>
      cases other with
      | plain c ofWord => simp [spelling, (isWordByte_iff.1 ofWord).2.2.2.symm] at same
      | escaped c => simpa [spelling] using same
      | single text _ => simp [spelling, backslash, singleQuote] at same
      | double parts => simp [spelling, backslash, doubleQuote] at same
  | single text unquoted =>
      cases other with
      | plain c ofWord => simp [spelling, (isWordByte_iff.1 ofWord).2.1.symm] at same
      | escaped c => simp [spelling, backslash, singleQuote] at same
      | single others unquotedOthers =>
          simp only [spelling, List.cons_append, List.append_assoc, List.cons.injEq,
            true_and] at same
          obtain ⟨rfl, rest⟩ := eq_of_append_cons_eq unquoted unquotedOthers same
          exact ⟨rfl, rest⟩
      | double parts => simp [spelling, singleQuote, doubleQuote] at same
  | double parts =>
      cases other with
      | plain c ofWord => simp [spelling, (isWordByte_iff.1 ofWord).2.2.1.symm] at same
      | escaped c => simp [spelling, backslash, doubleQuote] at same
      | single text _ => simp [spelling, singleQuote, doubleQuote] at same
      | double others =>
          simp only [spelling, List.cons_append, List.append_assoc, List.cons.injEq,
            true_and] at same
          simpa using parts_eq_of_append_eq same

/-! ## A line has one reading at most -/

/-- Pieces can be told from a text where a blank follows them, or nothing. -/
theorem pieces_eq_of_append_eq {pieces others : List Piece} {rest behind : Bytes}
    (ends : ∀ b ∈ rest.head?, isBlank b = true) (endsOther : ∀ b ∈ behind.head?, isBlank b = true)
    (same : pieces.flatMap Piece.spelling ++ rest = others.flatMap Piece.spelling ++ behind) :
    pieces = others ∧ rest = behind := by
  -- where only one side is out of pieces, a piece would begin with the blank behind it
  induction pieces generalizing others with
  | nil =>
      cases others with
      | nil => exact ⟨rfl, same⟩
      | cons other more =>
          obtain ⟨b, inside, written, solid⟩ := other.spelling_eq_cons
          have blank : isBlank b = true := ends b (by
            rw [List.flatMap_nil, List.nil_append] at same
            simp [same, written])
          simp [blank] at solid
  | cons piece pieces ih =>
      cases others with
      | nil =>
          obtain ⟨b, inside, written, solid⟩ := piece.spelling_eq_cons
          have blank : isBlank b = true := endsOther b (by
            rw [List.flatMap_nil, List.nil_append] at same
            simp [← same, written])
          simp [blank] at solid
      | cons other more =>
          rw [List.flatMap_cons, List.flatMap_cons, List.append_assoc, List.append_assoc] at same
          obtain ⟨rfl, later⟩ := Piece.eq_of_append_eq same
          obtain ⟨rfl, rest⟩ := ih later
          exact ⟨rfl, rest⟩

theorem Word.spelling_eq_flatMap (word : Word) :
    word.spelling = (word.first :: word.more).flatMap Piece.spelling :=
  rfl

theorem Word.eq_of_append_eq {word other : Word} {rest behind : Bytes}
    (ends : ∀ b ∈ rest.head?, isBlank b = true) (endsOther : ∀ b ∈ behind.head?, isBlank b = true)
    (same : word.spelling ++ rest = other.spelling ++ behind) : word = other ∧ rest = behind := by
  rw [Word.spelling_eq_flatMap, Word.spelling_eq_flatMap] at same
  obtain ⟨pieces, rest⟩ := pieces_eq_of_append_eq ends endsOther same
  obtain ⟨first, more⟩ := word
  obtain ⟨second, others⟩ := other
  cases pieces
  exact ⟨rfl, rest⟩

/-- Blanks can be told from a text where no blank follows them. -/
theorem blanks_eq_of_append_eq {blanks others : Blanks} {rest behind : Bytes}
    (begins : ∀ b ∈ rest.head?, isBlank b = false)
    (beginsOther : ∀ b ∈ behind.head?, isBlank b = false)
    (same : blanks.text ++ rest = others.text ++ behind) : blanks = others ∧ rest = behind := by
  have later : rest = behind := by
    have dropped := congrArg (List.dropWhile isBlank) same
    rwa [dropWhile_blanks blanks.blank begins, dropWhile_blanks others.blank beginsOther] at dropped
  rw [later] at same
  exact ⟨Blanks.ext (List.append_cancel_right same), later⟩

theorem Gap.head?_append (gap : Gap) (rest : Bytes) :
    ∀ b ∈ (gap.text ++ rest).head?, isBlank b = true := by
  obtain ⟨c, more, parts⟩ := List.exists_cons_of_ne_nil gap.nonempty
  intro b isFirst
  have same : c = b := by simpa [parts] using isFirst
  exact gap.blank b (by simp [parts, same])

namespace Reading

theorem body_cons (word : Word) (gap : Gap) (rows : List (Word × Gap)) (last : Option Word) :
    body ((word, gap) :: rows) last = word.spelling ++ (gap.text ++ body rows last) := by
  simp [body]

theorem body_last (word : Word) : body [] (some word) = word.spelling ++ [] := by
  simp [body]

/-- What stands behind the first blanks begins with none. -/
theorem head?_body (rows : List (Word × Gap)) (last : Option Word) :
    ∀ b ∈ (body rows last).head?, isBlank b = false := by
  have word : ∀ (word : Word) (rest : Bytes), ∀ b ∈ (word.spelling ++ rest).head?,
      isBlank b = false := by
    intro word rest b isFirst
    obtain ⟨c, inside, written, solid⟩ := word.first.spelling_eq_cons
    have same : c = b := by simpa [Word.spelling, written] using isFirst
    exact same ▸ solid
  cases rows with
  | nil =>
      cases last with
      | none => simp [body]
      | some only => exact body_last only ▸ word only []
  | cons row rows => exact body_cons row.1 row.2 rows last ▸ word row.1 _

theorem word_append_ne_nil (word : Word) (rest : Bytes) : word.spelling ++ rest ≠ [] := by
  obtain ⟨b, inside, written, -⟩ := word.first.spelling_eq_cons
  simp [Word.spelling, written]

/-- A word with nothing behind it is not one with blanks behind it. -/
theorem last_ne_row (word other : Word) (gap : Gap) (rest : Bytes) :
    word.spelling ++ [] ≠ other.spelling ++ (gap.text ++ rest) := by
  intro same
  have nothing := (Word.eq_of_append_eq (by simp) (gap.head?_append rest) same).2
  exact gap.nonempty (List.append_eq_nil_iff.1 nothing.symm).1

theorem body_injective : ∀ {rows others : List (Word × Gap)} {last final : Option Word},
    body rows last = body others final → rows = others ∧ last = final
  | [], [], none, none, _ => ⟨rfl, rfl⟩
  | [], [], some word, none, same => absurd (body_last word ▸ same) (word_append_ne_nil word [])
  | [], [], none, some word, same =>
      absurd (body_last word ▸ same.symm) (word_append_ne_nil word [])
  | [], [], some word, some other, same => by
      rw [body_last, body_last] at same
      obtain ⟨rfl, -⟩ := Word.eq_of_append_eq (by simp) (by simp) same
      exact ⟨rfl, rfl⟩
  | row :: rows, [], last, none, same =>
      absurd (body_cons row.1 row.2 rows last ▸ same) (word_append_ne_nil row.1 _)
  | row :: rows, [], last, some word, same =>
      absurd (body_last word ▸ body_cons row.1 row.2 rows last ▸ same.symm)
        (last_ne_row word row.1 row.2 _)
  | [], row :: others, none, final, same =>
      absurd (body_cons row.1 row.2 others final ▸ same.symm) (word_append_ne_nil row.1 _)
  | [], row :: others, some word, final, same =>
      absurd (body_last word ▸ body_cons row.1 row.2 others final ▸ same)
        (last_ne_row word row.1 row.2 _)
  | (word, gap) :: rows, (other, room) :: others, last, final, same => by
      rw [body_cons, body_cons] at same
      obtain ⟨rfl, behind⟩ :=
        Word.eq_of_append_eq (gap.head?_append _) (room.head?_append _) same
      obtain ⟨sameGap, later⟩ :=
        blanks_eq_of_append_eq (head?_body rows last) (head?_body others final) behind
      obtain ⟨rfl, rfl⟩ := body_injective later
      have sameRow : gap = room := Gap.ext (congrArg Blanks.text sameGap)
      exact ⟨by rw [sameRow], rfl⟩

/-- **A line has one reading at most.** -/
theorem spelling_injective {reading other : Reading} (same : reading.spelling = other.spelling) :
    reading = other := by
  obtain ⟨lead, behind⟩ := blanks_eq_of_append_eq (head?_body reading.rows reading.last)
    (head?_body other.rows other.last) same
  obtain ⟨rows, last⟩ := body_injective behind
  exact Reading.ext lead rows last

/-! ## Lines that have a reading -/

/-- The reading of nothing. -/
def nothing : Reading :=
  ⟨⟨[], by simp⟩, [], none⟩

theorem exists_blank_cons (reading : Reading) {b : UInt8} (blank : isBlank b = true) :
    ∃ longer : Reading, longer.spelling = b :: reading.spelling :=
  ⟨{ reading with lead := ⟨b :: reading.lead.text, by simpa [blank] using reading.lead.blank⟩ }, rfl⟩

/-- A piece in front of a line belongs to its first word, or is a word of its own where blanks
or nothing follow. -/
theorem exists_piece_append (reading : Reading) (piece : Piece) :
    ∃ longer : Reading, longer.spelling = piece.spelling ++ reading.spelling := by
  obtain ⟨⟨lead, blank⟩, rows, last⟩ := reading
  cases lead with
  | cons b more =>
      exact ⟨⟨nothing.lead, (⟨piece, []⟩, ⟨⟨b :: more, blank⟩, by simp⟩) :: rows, last⟩,
        by simp [spelling, nothing, body, Word.spelling]⟩
  | nil =>
      cases rows with
      | cons row rows =>
          obtain ⟨⟨first, pieces⟩, gap⟩ := row
          exact ⟨⟨nothing.lead, (⟨piece, first :: pieces⟩, gap) :: rows, last⟩,
            by simp [spelling, nothing, body, Word.spelling]⟩
      | nil =>
          cases last with
          | none =>
              exact ⟨⟨nothing.lead, [], some ⟨piece, []⟩⟩,
                by simp [spelling, nothing, body, Word.spelling]⟩
          | some word =>
              exact ⟨⟨nothing.lead, [], some ⟨piece, word.first :: word.more⟩⟩,
                by simp [spelling, nothing, body, Word.spelling]⟩

end Reading

/-- The rest of a line, where it is covered so, goes on as one reading does. -/
def Continues : Cover → Bytes → Prop
  | .nothing, line => ∃ reading : Reading, reading.spelling = line
  | .singleQuotes, line =>
      ∃ (text : Bytes) (reading : Reading),
        singleQuote ∉ text ∧ line = text ++ singleQuote :: reading.spelling
  | .doubleQuotes, line =>
      ∃ (parts : List QuotedPart) (reading : Reading),
        line = parts.flatMap QuotedPart.spelling ++ doubleQuote :: reading.spelling

theorem continues_of_signs? {cover : Cover} {line : Bytes} {signs : List Sign}
    (found : signs? cover line = some signs) : Continues cover line := by
  fun_induction signs? cover line generalizing signs with
  | case1 => exact ⟨Reading.nothing, rfl⟩
  | case2 | case3 | case6 | case12 => cases found
  | case4 rest ih =>
      obtain ⟨more, later, -⟩ := Option.map_eq_some_iff.1 found
      obtain ⟨text, reading, unquoted, rfl⟩ := ih later
      obtain ⟨longer, written⟩ := reading.exists_piece_append (.single text unquoted)
      exact ⟨longer, by simp [written, Piece.spelling]⟩
  | case5 rest _ ih =>
      obtain ⟨more, later, -⟩ := Option.map_eq_some_iff.1 found
      obtain ⟨parts, reading, rfl⟩ := ih later
      obtain ⟨longer, written⟩ := reading.exists_piece_append (.double parts)
      exact ⟨longer, by simp [written, Piece.spelling]⟩
  | case7 c more _ _ ih =>
      obtain ⟨signs, later, -⟩ := Option.map_eq_some_iff.1 found
      obtain ⟨reading, rfl⟩ := ih later
      exact reading.exists_piece_append (.escaped c)
  | case8 b rest notSingle notDouble notBackslash ih =>
      obtain ⟨more, later, -⟩ := Option.map_eq_some_iff.1 found
      obtain ⟨reading, rfl⟩ := ih later
      cases blank : isBlank b with
      | true => exact reading.exists_blank_cons blank
      | false =>
          have ofWord := isWordByte_iff.2 ⟨blank, notSingle, notDouble, notBackslash⟩
          exact reading.exists_piece_append (.plain b ofWord)
  | case9 rest ih =>
      obtain ⟨more, later, -⟩ := Option.map_eq_some_iff.1 found
      obtain ⟨reading, rfl⟩ := ih later
      exact ⟨[], reading, by simp, rfl⟩
  | case10 b rest notQuote ih =>
      obtain ⟨more, later, -⟩ := Option.map_eq_some_iff.1 found
      obtain ⟨text, reading, unquoted, rfl⟩ := ih later
      exact ⟨b :: text, reading, by simp [unquoted, Ne.symm notQuote], rfl⟩
  | case11 rest ih =>
      obtain ⟨more, later, -⟩ := Option.map_eq_some_iff.1 found
      obtain ⟨reading, rfl⟩ := ih later
      exact ⟨[], reading, rfl⟩
  | case13 c more _ ih =>
      obtain ⟨signs, later, -⟩ := Option.map_eq_some_iff.1 found
      obtain ⟨parts, reading, rfl⟩ := ih later
      exact ⟨.pair c :: parts, reading, rfl⟩
  | case14 b rest notQuote notBackslash ih =>
      obtain ⟨more, later, -⟩ := Option.map_eq_some_iff.1 found
      obtain ⟨parts, reading, rfl⟩ := ih later
      exact ⟨.plain b notQuote notBackslash :: parts, reading, rfl⟩

/-! ## Reading through -/

theorem readWords_of_solid {b : UInt8} (solid : isBlank b = false) (word rest : Bytes) :
    readWords .betweenWords word (b :: rest) = readWords .inWord [] (b :: rest) := by
  cases rest <;> simp [readWords, solid]

theorem readWords_blanks {blanks : Bytes} (blank : ∀ b ∈ blanks, isBlank b = true)
    (word rest : Bytes) :
    readWords .betweenWords word (blanks ++ rest) = readWords .betweenWords word rest := by
  induction blanks with
  | nil => rfl
  | cons b more ih =>
      obtain ⟨first, others⟩ := List.forall_mem_cons.1 blank
      rw [List.cons_append, ← ih others]
      cases more ++ rest <;> simp [readWords, first]

theorem readWords_single {text : Bytes} (unquoted : singleQuote ∉ text) (word rest : Bytes) :
    readWords .inSingleQuotes word (text ++ singleQuote :: rest) =
      readWords .inWord (word ++ text) rest := by
  induction text generalizing word with
  | nil => simp [readWords]
  | cons b more ih =>
      obtain ⟨different, others⟩ := List.ne_and_not_mem_of_not_mem_cons unquoted
      rw [List.cons_append, readWords, if_neg (Ne.symm different), ih others]
      simp

/-- But for the zero byte the reader drops a backslash where the rules say so. -/
theorem isEscapable_eq {b : UInt8} (nonzero : b ≠ 0) : isEscapable b = dropsBackslash b := by
  simp [isEscapable, dropsBackslash, nonzero]

theorem readWords_part {part : QuotedPart} (noZero : 0 ∉ part.spelling) (word rest : Bytes) :
    readWords .inDoubleQuotes word (part.spelling ++ rest) =
      readWords .inDoubleQuotes (word ++ part.text) rest := by
  cases part with
  | plain b notQuote notBackslash =>
      cases rest <;> simp [QuotedPart.spelling, QuotedPart.text, readWords, notQuote, notBackslash]
  | pair b =>
      have nonzero : b ≠ 0 := by
        rintro rfl
        simp [QuotedPart.spelling] at noZero
      have different : backslash ≠ doubleQuote := by decide
      cases drops : dropsBackslash b with
      | true =>
          have escapable := isEscapable_eq nonzero ▸ drops
          simp [QuotedPart.spelling, QuotedPart.text, drops, readWords, different, escapable]
      | false =>
          -- the backslash is read alone, and the byte behind it on its own
          have notEscapable := isEscapable_eq nonzero ▸ drops
          obtain ⟨notQuote, notBackslash⟩ := not_special_of_not_isEscapable notEscapable
          cases rest <;> simp [QuotedPart.spelling, QuotedPart.text, drops, readWords, different,
            notEscapable, notQuote, notBackslash]

theorem readWords_parts {parts : List QuotedPart}
    (noZero : 0 ∉ parts.flatMap QuotedPart.spelling) (word rest : Bytes) :
    readWords .inDoubleQuotes word
        (parts.flatMap QuotedPart.spelling ++ doubleQuote :: rest) =
      readWords .inWord (word ++ parts.flatMap QuotedPart.text) rest := by
  induction parts generalizing word with
  | nil => cases rest <;> simp [readWords]
  | cons part more ih =>
      rw [List.flatMap_cons, List.mem_append, not_or] at noZero
      rw [List.flatMap_cons, List.append_assoc, readWords_part noZero.1, ih noZero.2]
      simp

/-- **The reader passes through a piece and has read what it stands for.** -/
theorem readWords_piece {piece : Piece} (noZero : 0 ∉ piece.spelling) (word rest : Bytes) :
    readWords .inWord word (piece.spelling ++ rest) =
      readWords .inWord (word ++ piece.text) rest := by
  cases piece with
  | plain b ofWord =>
      obtain ⟨notBlank, notSingle, notDouble, notBackslash⟩ := isWordByte_iff.1 ofWord
      cases rest <;>
        simp [Piece.spelling, Piece.text, readWords, notBlank, notSingle, notDouble, notBackslash]
  | escaped b =>
      have notBlank : isBlank backslash = false := by decide
      have notSingle : backslash ≠ singleQuote := by decide
      have notDouble : backslash ≠ doubleQuote := by decide
      simp [Piece.spelling, Piece.text, readWords, notBlank, notSingle, notDouble]
  | single text unquoted =>
      have opens : ∀ line, readWords .inWord word (singleQuote :: line) =
          readWords .inSingleQuotes word line := by
        intro line
        cases line <;> simp [readWords, singleQuote, isBlank]
      rw [Piece.spelling, List.cons_append, List.cons_append, opens, List.append_assoc,
        List.singleton_append, readWords_single unquoted]
      rfl
  | double parts =>
      have opens : ∀ line, readWords .inWord word (doubleQuote :: line) =
          readWords .inDoubleQuotes word line := by
        intro line
        cases line <;> simp [readWords, singleQuote, doubleQuote, isBlank]
      have inside : 0 ∉ parts.flatMap QuotedPart.spelling := by
        intro member
        exact noZero (by simp only [Piece.spelling, List.mem_append, List.mem_cons, member,
          or_true, true_or])
      rw [Piece.spelling, List.cons_append, List.cons_append, opens, List.append_assoc,
        List.singleton_append, readWords_parts inside]
      rfl

theorem readWords_pieces {pieces : List Piece} (noZero : 0 ∉ pieces.flatMap Piece.spelling)
    (word rest : Bytes) :
    readWords .inWord word (pieces.flatMap Piece.spelling ++ rest) =
      readWords .inWord (word ++ pieces.flatMap Piece.text) rest := by
  induction pieces generalizing word with
  | nil => simp
  | cons piece more ih =>
      rw [List.flatMap_cons, List.mem_append, not_or] at noZero
      rw [List.flatMap_cons, List.append_assoc, readWords_piece noZero.1, ih noZero.2]
      simp

/-- A word begins where the reader stands between words. -/
theorem readWords_word {word : Word} (noZero : 0 ∉ word.spelling) (before rest : Bytes) :
    readWords .betweenWords before (word.spelling ++ rest) = readWords .inWord word.text rest := by
  obtain ⟨b, inside, written, solid⟩ := word.first.spelling_eq_cons
  have begins : word.spelling ++ rest = b :: (inside ++ word.more.flatMap Piece.spelling ++ rest) := by
    simp [Word.spelling, written]
  rw [Word.spelling_eq_flatMap] at noZero
  rw [begins, readWords_of_solid solid, ← begins, Word.spelling_eq_flatMap]
  exact readWords_pieces noZero [] rest

namespace Reading

theorem readWords_body {rows : List (Word × Gap)} {last : Option Word}
    (noZero : 0 ∉ body rows last) (before : Bytes) :
    readWords .betweenWords before (body rows last) =
      .ok (rows.map (fun row => row.1.text) ++ last.toList.map Word.text) := by
  induction rows generalizing before with
  | nil =>
      cases last with
      | none => rfl
      | some word =>
          rw [body_last, List.append_nil] at noZero
          rw [body_last, readWords_word noZero]
          rfl
  | cons row rows ih =>
      obtain ⟨word, gap⟩ := row
      obtain ⟨b, more, parts⟩ := List.exists_cons_of_ne_nil gap.nonempty
      obtain ⟨blank, others⟩ := List.forall_mem_cons.1 (parts ▸ gap.blank)
      rw [body_cons, List.mem_append, List.mem_append, not_or, not_or] at noZero
      rw [body_cons, readWords_word noZero.1, parts, List.cons_append,
        readWords_blank_inWord blank, readWords_blanks others, ih noZero.2.2]
      rfl

/-- **A reading is read as its words.** -/
theorem splitWords_spelling {reading : Reading} (noZero : 0 ∉ reading.spelling) :
    splitWords reading.spelling = .ok reading.words := by
  rw [spelling, List.mem_append, not_or] at noZero
  rw [splitWords, spelling, readWords_blanks reading.lead.blank, readWords_body noZero.2]
  rfl

end Reading

/-! ## The scan for quotes -/

/-- Where a reader stands with regard to quotations. -/
@[simp]
def ReaderState.quoting : ReaderState → Quoting
  | betweenWords => .outside
  | inWord => .outside
  | inSingleQuotes => .inSingle
  | inDoubleQuotes => .inDouble

/-- Why a line has no reading that ends in this state. -/
@[simp]
def Quoting.fault? : Quoting → Option WordError
  | outside => none
  | escaped => some .noEscapedCharacter
  | inSingle => some .noClosingQuotation
  | inDouble => some .noClosingQuotation
  | escapedInDouble => some .noClosingQuotation

/-- **The reader refuses a line where the scan ends in a fault**, and for that fault. -/
theorem readWords_eq_error_iff (state : ReaderState) (word line : Bytes) (fault : WordError) :
    readWords state word line = .error fault ↔
      (line.foldl Quoting.next state.quoting).fault? = some fault := by
  have kinds : singleQuote ≠ backslash ∧ doubleQuote ≠ backslash ∧ doubleQuote ≠ singleQuote := by
    decide
  obtain ⟨single, double, different⟩ := kinds
  fun_induction readWords state word line with
  | case1 | case2 | case3 | case4 | case8 | case15 | case21 =>
      simp_all [Quoting.next]
  | case5 word rest ih | case6 word b rest notQuote ih => simp_all [Quoting.next]
  | case7 word rest ih | case11 word b rest notQuote notBackslash ih => simp_all [Quoting.next]
  | case9 word c more escapable _ ih => simp_all [Quoting.next]
  | case10 word c more notEscapable _ ih =>
      -- the byte behind the backslash is read once more, but it is no quote and no backslash
      rw [Bool.not_eq_true] at notEscapable
      obtain ⟨notQuote, notBackslash⟩ := not_special_of_not_isEscapable notEscapable
      simp_all [Quoting.next]
  | case12 word b rest blank ih =>
      have plain := isQuoting_of_isBlank blank
      simp_all [Quoting.next, isQuoting]
  | case18 word b rest blank ih =>
      have plain := isQuoting_of_isBlank blank
      cases later : readWords .betweenWords [] rest <;>
        simp_all [Quoting.next, isQuoting, Except.map]
  | case13 word rest notBlank ih | case19 word rest notBlank ih => simp_all [Quoting.next]
  | case14 word rest notBlank _ ih | case20 word rest notBlank _ ih => simp_all [Quoting.next]
  | case16 word c more _ _ _ ih | case22 word c more _ _ _ ih => simp_all [Quoting.next]
  | case17 word b rest _ _ _ _ ih | case23 word b rest _ _ _ _ ih => simp_all [Quoting.next]

/-- Where the scan ends in no fault the line has a reading. -/
theorem exists_reading {line : Bytes} (closed : line.foldl Quoting.next .outside = .outside) :
    ∃ reading : Reading, reading.spelling = line := by
  cases split : splitWords line with
  | error fault =>
      have ends := (readWords_eq_error_iff .betweenWords [] line fault).1 split
      simp [closed] at ends
  | ok words =>
      have read := splitWords_eq_ok_iff.1 split
      obtain ⟨signs, found, -⟩ := Option.map_eq_some_iff.1 read
      rw [Rules.uncommented_eq_self rfl Stand.noConfusion] at found
      exact continues_of_signs? found

/-- **A line without the zero byte is refused where a scan for quotes ends in a quotation or
behind a backslash, and for that; every other line has exactly one reading, and is split into
the words of it.** -/
theorem splitWords_reading {line : Bytes} (noZero : 0 ∉ line) :
    (∀ fault, splitWords line = .error fault ↔
      (line.foldl Quoting.next .outside).fault? = some fault) ∧
    (line.foldl Quoting.next .outside = .outside →
      (∃! reading : Reading, reading.spelling = line) ∧
        ∀ reading : Reading, reading.spelling = line → splitWords line = .ok reading.words) := by
  refine ⟨readWords_eq_error_iff .betweenWords [] line, fun closed => ⟨?_, ?_⟩⟩
  · obtain ⟨reading, written⟩ := exists_reading closed
    refine ⟨reading, written, fun other writtenOther => ?_⟩
    exact Reading.spelling_injective (writtenOther.trans written.symm)
  · rintro reading rfl
    exact Reading.splitWords_spelling noZero

/-- Blanks at both ends, quotations of both kinds inside of one word, and a word of nothing. -/
def mixedLine : Bytes :=
  ascii " a'b \\'\"c\\\"\\d\"\\  '' "

theorem mixedLine_reading :
    0 ∉ mixedLine ∧ mixedLine.foldl Quoting.next .outside = .outside ∧
    (∃! reading : Reading, reading.spelling = mixedLine) ∧
    (∀ reading : Reading, reading.spelling = mixedLine →
      splitWords mixedLine = .ok reading.words) ∧
    splitWords mixedLine = .ok [ascii "ab \\c\"\\d ", []] := by
  have noZero : 0 ∉ mixedLine := by decide +kernel
  have closed : mixedLine.foldl Quoting.next .outside = .outside := by decide +kernel
  obtain ⟨one, words⟩ := (splitWords_reading noZero).2 closed
  exact ⟨noZero, closed, one, words, by decide +kernel⟩

end Assay.Shell
