/-
# Assay.Proofs.Quotation -- a line by the rules of the shell, and by those of `splitWords`

A line, its comments left out (`Rules.uncommented`), is first taken apart into signs
(`signs?`): bytes that no quotation covers, quotes, bytes between quotes, and backslashes
each with the byte behind it.  `Rules` say what a sign stands for, and `Rules.read?` gathers
words and operators from that.  There are two sets of rules.  `Rules.shell` are those of a
shell; `Rules.direct` are those by which `splitWords` reads (`splitWords_eq_read?`).  What a
shell makes of a word that it has read, such as the names that fit a pattern or the directory
that a tilde stands for, is no part of the reading.

Where quoting alone decides, the two differ in three signs only (`Sign.isDisputed`): a
backslash and a newline, outside quotations or between double quotes, which join two
lines for a shell; and a backslash and a zero byte between double quotes.  Each of them
shows in the words, since reading neither adds nor loses a newline or a backslash
elsewhere, so that a line that is run directly is split as a shell splits it exactly
where it has none of the three (`splitWords_eq_iff`).
-/
import Assay.Proofs.Lexemes
import Mathlib.Algebra.Order.BigOperators.Group.List
import Mathlib.Algebra.Order.Ring.Int

namespace Assay.Shell

set_option autoImplicit false

open Bytes

/-! ## Signs -/

/-- What covers a byte of a line. -/
inductive Cover where
  | nothing
  | singleQuotes
  | doubleQuotes
  deriving DecidableEq, Repr

/-- A byte of a line, or a backslash with the byte behind it, and what covers it. -/
inductive Sign where
  /-- A byte that nothing covers. -/
  | bare (b : UInt8)
  /-- A backslash that nothing covers, and the byte behind it. -/
  | escape (b : UInt8)
  /-- A quote that opens or closes a quotation. -/
  | quote (b : UInt8)
  /-- A byte between single quotes. -/
  | single (b : UInt8)
  /-- A byte between double quotes. -/
  | double (b : UInt8)
  /-- A backslash between double quotes, and the byte behind it. -/
  | doubleEscape (b : UInt8)
  deriving DecidableEq, Repr

/-- A sign as it is written. -/
def Sign.spelling : Sign → Bytes
  | bare b => [b]
  | escape b => [backslash, b]
  | quote b => [b]
  | single b => [b]
  | double b => [b]
  | doubleEscape b => [backslash, b]

/-- The signs of a line; none where a quotation stays open or nothing follows a backslash. -/
def signs? : Cover → Bytes → Option (List Sign)
  | .nothing, [] => some []
  | .singleQuotes, [] => none
  | .doubleQuotes, [] => none
  | .nothing, b :: rest =>
      if b = singleQuote then (signs? .singleQuotes rest).map (.quote b :: ·)
      else if b = doubleQuote then (signs? .doubleQuotes rest).map (.quote b :: ·)
      else if b = backslash then
        match rest with
        | [] => none
        | c :: more => (signs? .nothing more).map (.escape c :: ·)
      else (signs? .nothing rest).map (.bare b :: ·)
  | .singleQuotes, b :: rest =>
      if b = singleQuote then (signs? .nothing rest).map (.quote b :: ·)
      else (signs? .singleQuotes rest).map (.single b :: ·)
  | .doubleQuotes, b :: rest =>
      if b = doubleQuote then (signs? .nothing rest).map (.quote b :: ·)
      else if b = backslash then
        match rest with
        | [] => none
        | c :: more => (signs? .doubleQuotes more).map (.doubleEscape c :: ·)
      else (signs? .doubleQuotes rest).map (.double b :: ·)

/-! ### One sign at a time -/

/-- It is a quote or a backslash. -/
def isQuoting (b : UInt8) : Bool :=
  b == singleQuote || b == doubleQuote || b == backslash

theorem isQuoting_eq_false_iff {b : UInt8} :
    isQuoting b = false ↔ b ≠ singleQuote ∧ b ≠ doubleQuote ∧ b ≠ backslash := by
  simp [isQuoting, and_assoc]

theorem signs?_bare {b : UInt8} (plain : isQuoting b = false) (rest : Bytes) :
    signs? .nothing (b :: rest) = (signs? .nothing rest).map (.bare b :: ·) := by
  obtain ⟨notSingle, notDouble, notBackslash⟩ := isQuoting_eq_false_iff.1 plain
  cases rest <;> simp [signs?, notSingle, notDouble, notBackslash]

theorem signs?_openSingle (rest : Bytes) :
    signs? .nothing (singleQuote :: rest) =
      (signs? .singleQuotes rest).map (.quote singleQuote :: ·) := by
  cases rest <;> simp [signs?]

theorem signs?_openDouble (rest : Bytes) :
    signs? .nothing (doubleQuote :: rest) =
      (signs? .doubleQuotes rest).map (.quote doubleQuote :: ·) := by
  have different : doubleQuote ≠ singleQuote := by decide
  cases rest <;> simp [signs?, different]

theorem signs?_escape (c : UInt8) (more : Bytes) :
    signs? .nothing (backslash :: c :: more) = (signs? .nothing more).map (.escape c :: ·) := by
  have notSingle : backslash ≠ singleQuote := by decide
  have notDouble : backslash ≠ doubleQuote := by decide
  simp [signs?, notSingle, notDouble]

theorem signs?_closeDouble (rest : Bytes) :
    signs? .doubleQuotes (doubleQuote :: rest) =
      (signs? .nothing rest).map (.quote doubleQuote :: ·) := by
  cases rest <;> simp [signs?]

theorem signs?_double {b : UInt8} (notQuote : b ≠ doubleQuote) (notBackslash : b ≠ backslash)
    (rest : Bytes) :
    signs? .doubleQuotes (b :: rest) = (signs? .doubleQuotes rest).map (.double b :: ·) := by
  cases rest <;> simp [signs?, notQuote, notBackslash]

theorem signs?_doubleEscape (c : UInt8) (more : Bytes) :
    signs? .doubleQuotes (backslash :: c :: more) =
      (signs? .doubleQuotes more).map (.doubleEscape c :: ·) := by
  have different : backslash ≠ doubleQuote := by decide
  simp [signs?, different]

/-- The signs of a line spell the line. -/
theorem spelling_of_signs? {cover : Cover} {line : Bytes} {signs : List Sign}
    (found : signs? cover line = some signs) : signs.flatMap Sign.spelling = line := by
  fun_induction signs? cover line generalizing signs with
  | case1 => simp_all
  | case2 => cases found
  | case3 => cases found
  | case4 rest ih | case5 rest _ ih | case8 b rest _ _ _ ih | case9 rest ih | case10 b rest _ ih
  | case11 rest ih | case14 b rest _ _ ih =>
      obtain ⟨more, later, rfl⟩ := Option.map_eq_some_iff.1 found
      simp [Sign.spelling, ih later]
  | case6 => cases found
  | case7 _ _ c more ih | case13 _ c more ih =>
      obtain ⟨signs, later, rfl⟩ := Option.map_eq_some_iff.1 found
      simp [Sign.spelling, ih later]
  | case12 => cases found

/-! ## Rules -/

/-- What a sign stands for. -/
inductive Meaning where
  /-- For nothing at all: it neither ends a word nor begins one. -/
  | nothing
  /-- It stands between words. -/
  | blank
  | operator (b : UInt8)
  /-- These bytes of a word.  A quote stands for none, and yet there is a word. -/
  | text (bytes : Bytes)
  deriving DecidableEq, Repr

/-- The bytes that a sign adds to a word. -/
def Meaning.bytes : Meaning → Bytes
  | text bytes => bytes
  | _ => []

/-- The classes of bytes that a reader of signs goes by. -/
structure Rules where
  /-- Stands between words where nothing covers it. -/
  blank : UInt8 → Bool
  /-- Is an operator where nothing covers it. -/
  operator : UInt8 → Bool
  /-- Is an operator between double quotes, too. -/
  expansion : UInt8 → Bool
  /-- Loses a backslash in front of it between double quotes. -/
  escapable : UInt8 → Bool
  /-- Whether a backslash and a newline join two lines. -/
  joinsLines : Bool
  /-- Whether a hash sign with which a word would begin begins a comment, up to the end of its
  line. -/
  comments : Bool

/-- What begins a comment. -/
def hash : UInt8 := 35

/-- Where a reader stands with regard to words, quotations and comments. -/
inductive Stand where
  | betweenWords
  | inWord
  /-- Behind a backslash outside quotations, in a word or between two. -/
  | escaped (inWord : Bool)
  | inSingle
  | inDouble
  /-- Behind a backslash between double quotes. -/
  | escapedInDouble
  | inComment
  deriving DecidableEq, Repr

namespace Rules

/-- The rules of a shell. -/
def shell : Rules where
  blank b := b == space || b == 9
  operator := isOperator
  expansion b := b == dollar || b == backtick
  escapable b := b == backslash || b == doubleQuote || b == dollar || b == backtick
  joinsLines := true
  comments := true

/-- The rules of `splitWords`, which knows no operators. -/
def direct : Rules where
  blank := isBlank
  operator _ := false
  expansion _ := false
  escapable := isEscapable
  joinsLines := false
  comments := false

def meaning (rules : Rules) : Sign → Meaning
  | .bare b =>
      if rules.blank b then .blank else if rules.operator b then .operator b else .text [b]
  | .escape b => if rules.joinsLines && b == newline then .nothing else .text [b]
  | .quote _ => .text []
  | .single b => .text [b]
  | .double b => if rules.expansion b then .operator b else .text [b]
  | .doubleEscape b =>
      if rules.joinsLines && b == newline then .nothing
      else if rules.escapable b then .text [b]
      else .text [backslash, b]

/-- The words and operators of signs; `word` is what the current word has so far. -/
def gather (rules : Rules) : Option Bytes → List Sign → List Lexeme
  | word, [] => word.toList.map .word
  | word, sign :: rest =>
      match rules.meaning sign with
      | .nothing => gather rules word rest
      | .blank => word.toList.map .word ++ gather rules none rest
      | .operator b => word.toList.map .word ++ .operator b :: gather rules none rest
      | .text bytes => gather rules (some (word.getD [] ++ bytes)) rest

/-! ### Comments -/

/-- Where a reader stands behind a byte that no quotation covers and that begins no comment.
What is expanded goes on with a word. -/
def behindBare (rules : Rules) (inWord : Bool) (b : UInt8) : Stand :=
  if b = backslash then .escaped inWord
  else if b = singleQuote then .inSingle
  else if b = doubleQuote then .inDouble
  else if rules.blank b || (rules.operator b && !rules.expansion b) then .betweenWords
  else .inWord

/-- Where a reader stands behind a byte. -/
def behind (rules : Rules) : Stand → UInt8 → Stand
  | .betweenWords, b => if rules.comments && b == hash then .inComment else rules.behindBare false b
  | .inWord, b => rules.behindBare true b
  | .escaped inWord, b =>
      if rules.joinsLines && b == newline && !inWord then .betweenWords else .inWord
  | .inSingle, b => if b = singleQuote then .inWord else .inSingle
  | .inDouble, b =>
      if b = backslash then .escapedInDouble else if b = doubleQuote then .inWord else .inDouble
  | .escapedInDouble, _ => .inDouble
  | .inComment, b => if b = newline then .betweenWords else .inComment

/-- The byte begins a comment or is in one. -/
def isComment (rules : Rules) : Stand → UInt8 → Bool
  | .betweenWords, b => rules.comments && b == hash
  | .inComment, b => b != newline
  | _, _ => false

/-- A line without its comments. -/
def uncommented (rules : Rules) : Stand → Bytes → Bytes
  | _, [] => []
  | stand, b :: rest =>
      if rules.isComment stand b then rules.uncommented (rules.behind stand b) rest
      else b :: rules.uncommented (rules.behind stand b) rest

/-- The words and operators of a line. -/
def read? (rules : Rules) (line : Bytes) : Option (List Lexeme) :=
  (signs? .nothing (rules.uncommented .betweenWords line)).map (rules.gather none)

-- a hash sign in a word is a byte of it, and quotes in a comment cover nothing
example : shell.read? (ascii "cd a#b #it's\nls '#'") =
    some [.word (ascii "cd"), .word (ascii "a#b"), .operator newline, .word (ascii "ls"),
      .word (ascii "#")] := by
  decide +kernel

section

variable {rules : Rules} {stand : Stand} {b : UInt8}

theorem uncommented_cons (kept : rules.isComment stand b = false) (rest : Bytes) :
    rules.uncommented stand (b :: rest) = b :: rules.uncommented (rules.behind stand b) rest := by
  rw [uncommented, kept, if_neg Bool.false_ne_true]

/-- A reader gets into a comment only at its sign. -/
theorem behind_ne_inComment (notInComment : stand ≠ .inComment)
    (kept : rules.isComment stand b = false) : rules.behind stand b ≠ .inComment := by
  have bare : ∀ inWord, rules.behindBare inWord b ≠ .inComment := by
    intro inWord
    unfold behindBare
    split_ifs <;> simp
  cases stand with
  | betweenWords =>
      rw [isComment] at kept
      rw [behind, kept, if_neg Bool.false_ne_true]
      exact bare false
  | inWord => exact bare true
  | inComment => exact absurd rfl notInComment
  | escapedInDouble => exact Stand.noConfusion
  | escaped | inSingle | inDouble =>
      simp only [behind]
      split_ifs <;> simp

/-- Without comments there is nothing to leave out. -/
theorem uncommented_eq_self (none : rules.comments = false) (notInComment : stand ≠ .inComment)
    (line : Bytes) : rules.uncommented stand line = line := by
  induction line generalizing stand with
  | nil => rfl
  | cons b rest ih =>
      have kept : rules.isComment stand b = false := by
        cases stand with
        | inComment => exact absurd rfl notInComment
        | _ => simp [isComment, none]
      rw [uncommented_cons kept, ih (behind_ne_inComment notInComment kept)]

theorem uncommented_sublist (rules : Rules) (stand : Stand) (line : Bytes) :
    (rules.uncommented stand line).Sublist line := by
  induction line generalizing stand with
  | nil => exact List.Sublist.refl []
  | cons b rest ih =>
      rw [uncommented]
      split
      · exact (ih _).cons b
      · exact (ih _).cons_cons b

end

end Rules

/-- Where a reader can stand in front of a byte that is covered so. -/
def Cover.Stands : Cover → Stand → Prop
  | .nothing, stand => stand = .betweenWords ∨ stand = .inWord
  | .singleQuotes, stand => stand = .inSingle
  | .doubleQuotes, stand => stand = .inDouble

namespace Rules

variable {rules : Rules} {stand : Stand} {b : UInt8}

/-- A byte that is no hash sign begins no comment. -/
theorem behind_of_stands (rules : Rules) (stands : Cover.nothing.Stands stand)
    (notHash : b ≠ hash) :
    rules.isComment stand b = false ∧
      ∃ inWord, rules.behind stand b = rules.behindBare inWord b := by
  rcases stands with rfl | rfl
  · have noComment : (rules.comments && b == hash) = false := by simp [notHash]
    exact ⟨noComment, false, by rw [behind, noComment, if_neg Bool.false_ne_true]⟩
  · exact ⟨rfl, true, rfl⟩

/-- Behind a backslash and a byte nothing is covered. -/
theorem stands_behind_escaped (inWord : Bool) (b : UInt8) :
    Cover.nothing.Stands (rules.behind (.escaped inWord) b) := by
  simp only [behind]
  split
  · exact .inl rfl
  · exact .inr rfl

/-- Nor is anything behind a byte that is no quote and no backslash. -/
theorem stands_behindBare (rules : Rules) (inWord : Bool) (plain : isQuoting b = false) :
    Cover.nothing.Stands (rules.behindBare inWord b) := by
  obtain ⟨notSingle, notDouble, notBackslash⟩ := isQuoting_eq_false_iff.1 plain
  simp only [behindBare, notSingle, notDouble, notBackslash, if_false]
  split
  · exact .inl rfl
  · exact .inr rfl

/-- A line of which no bare byte is a hash sign has no comments. -/
theorem uncommented_of_signs? {cover : Cover} {line : Bytes} {signs : List Sign}
    (found : signs? cover line = some signs) (noHash : .bare hash ∉ signs)
    (stands : cover.Stands stand) : rules.uncommented stand line = line := by
  fun_induction signs? cover line generalizing signs stand with
  | case1 => rfl
  | case2 | case3 | case6 | case12 => cases found
  | case4 rest ih =>
      obtain ⟨more, later, rfl⟩ := Option.map_eq_some_iff.1 found
      have notHash : singleQuote ≠ hash := by decide
      obtain ⟨kept, inWord, moves⟩ := rules.behind_of_stands stands notHash
      have opens : rules.behindBare inWord singleQuote = .inSingle := rfl
      rw [uncommented_cons kept, moves, opens, ih later (not_or.1 (mt List.mem_cons.2 noHash)).2 rfl]
  | case5 rest _ ih =>
      obtain ⟨more, later, rfl⟩ := Option.map_eq_some_iff.1 found
      have notHash : doubleQuote ≠ hash := by decide
      obtain ⟨kept, inWord, moves⟩ := rules.behind_of_stands stands notHash
      have opens : rules.behindBare inWord doubleQuote = .inDouble := rfl
      rw [uncommented_cons kept, moves, opens, ih later (not_or.1 (mt List.mem_cons.2 noHash)).2 rfl]
  | case7 c more _ _ ih =>
      obtain ⟨signs, later, rfl⟩ := Option.map_eq_some_iff.1 found
      have notHash : backslash ≠ hash := by decide
      obtain ⟨kept, inWord, moves⟩ := rules.behind_of_stands stands notHash
      have escapes : rules.behindBare inWord backslash = .escaped inWord := rfl
      rw [uncommented_cons kept, moves, escapes, uncommented_cons rfl,
        ih later (not_or.1 (mt List.mem_cons.2 noHash)).2 (stands_behind_escaped inWord c)]
  | case8 b rest notSingle notDouble notBackslash ih =>
      obtain ⟨more, later, rfl⟩ := Option.map_eq_some_iff.1 found
      have notHash : b ≠ hash := fun same => noHash (same ▸ List.mem_cons_self)
      have plain : isQuoting b = false := by simp [isQuoting, notSingle, notDouble, notBackslash]
      obtain ⟨kept, inWord, moves⟩ := rules.behind_of_stands stands notHash
      rw [uncommented_cons kept, moves,
        ih later (not_or.1 (mt List.mem_cons.2 noHash)).2 (rules.stands_behindBare inWord plain)]
  | case9 rest ih | case10 b rest _ ih | case11 rest ih | case14 b rest _ _ ih =>
      -- between quotes, or at the end of a quotation
      obtain ⟨more, later, rfl⟩ := Option.map_eq_some_iff.1 found
      obtain rfl := stands
      have notBackslash : doubleQuote ≠ backslash := by decide
      refine (uncommented_cons rfl rest).trans (congrArg _ (ih later
        (not_or.1 (mt List.mem_cons.2 noHash)).2 ?_))
      simp_all [behind, Cover.Stands]
  | case13 c more _ ih =>
      obtain ⟨signs, later, rfl⟩ := Option.map_eq_some_iff.1 found
      obtain rfl := stands
      rw [uncommented_cons rfl]
      refine congrArg _ ((uncommented_cons rfl more).trans (congrArg _ (ih later
        (not_or.1 (mt List.mem_cons.2 noHash)).2 rfl)))

end Rules

/-! ## The rules of `splitWords` -/

/-- What covers the next byte, in a state of the reader. -/
@[simp]
def ReaderState.cover : ReaderState → Cover
  | betweenWords => .nothing
  | inWord => .nothing
  | inSingleQuotes => .singleQuotes
  | inDoubleQuotes => .doubleQuotes

/-- The current word, in a state of the reader. -/
@[simp]
def ReaderState.current : ReaderState → Bytes → Option Bytes
  | betweenWords, _ => none
  | _, word => some word

/-- A blank is no quote and no backslash. -/
theorem isQuoting_of_isBlank {b : UInt8} (blank : isBlank b = true) : isQuoting b = false := by
  revert blank
  refine forall_byte (p := fun b => isBlank b = true → isQuoting b = false) ?_ b
  decide +kernel

/-- Between double quotes a backslash in front of any other byte is a byte of its own, and
so is what follows it. -/
theorem not_special_of_not_isEscapable {c : UInt8} (notEscapable : isEscapable c = false) :
    c ≠ doubleQuote ∧ c ≠ backslash := by
  constructor <;> rintro rfl <;> cases notEscapable

theorem toOption_map {α β : Type} (f : α → β) (read : Except WordError α) :
    (read.map f).toOption = read.toOption.map f := by
  cases read <;> rfl

/-- The reader of words gathers by the rules of `splitWords`. -/
theorem readWords_eq_gather (state : ReaderState) (word line : Bytes) :
    (readWords state word line).toOption.map (·.map Lexeme.word) =
      (signs? state.cover line).map (Rules.direct.gather (state.current word)) := by
  fun_induction readWords state word line with
  | case1 | case2 | case3 | case4 | case8 | case15 | case21 =>
      simp_all [signs?, Rules.gather, Except.toOption]
  | case5 word rest ih => simp [ih, signs?, Rules.gather, Rules.meaning, Function.comp_def]
  | case6 word b rest notQuote ih =>
      simp [ih, signs?, notQuote, Rules.gather, Rules.meaning, Function.comp_def]
  | case7 word rest ih =>
      simp [ih, signs?_closeDouble, Rules.gather, Rules.meaning, Function.comp_def]
  | case9 word c more escapable different ih =>
      simp [ih, signs?_doubleEscape, escapable, Rules.gather, Rules.meaning, Rules.direct,
        Function.comp_def]
  | case10 word c more notEscapable different ih =>
      -- the backslash is read alone, and what follows it on its own
      rw [Bool.not_eq_true] at notEscapable
      obtain ⟨notQuote, notBackslash⟩ := not_special_of_not_isEscapable notEscapable
      simp [ih, signs?_doubleEscape, signs?_double notQuote notBackslash, notEscapable,
        Rules.gather, Rules.meaning, Rules.direct, Function.comp_def]
  | case11 word b rest notQuote notBackslash ih =>
      simp [ih, signs?_double notQuote notBackslash, Rules.gather, Rules.meaning, Rules.direct,
        Function.comp_def]
  | case12 word b rest blank ih =>
      simp [ih, signs?_bare (isQuoting_of_isBlank blank), blank, Rules.gather, Rules.meaning,
        Rules.direct, Function.comp_def]
  | case18 word b rest blank ih =>
      have ended := congrArg (Option.map (Lexeme.word word :: ·)) ih
      simp only [Option.map_map, Function.comp_def] at ended
      simp [toOption_map, signs?_bare (isQuoting_of_isBlank blank), blank, Rules.gather,
        Rules.meaning, Rules.direct, Function.comp_def, ended]
  | case13 word rest notBlank ih | case19 word rest notBlank ih =>
      simp [ih, signs?_openSingle, Rules.gather, Rules.meaning, Function.comp_def]
  | case14 word rest notBlank different ih | case20 word rest notBlank different ih =>
      simp [ih, signs?_openDouble, Rules.gather, Rules.meaning, Function.comp_def]
  | case16 word c more notBlank notSingle notDouble ih
  | case22 word c more notBlank notSingle notDouble ih =>
      simp [ih, signs?_escape, Rules.gather, Rules.meaning, Rules.direct, Function.comp_def]
  | case17 word b rest notBlank notSingle notDouble notBackslash ih
  | case23 word b rest notBlank notSingle notDouble notBackslash ih =>
      have plain : isQuoting b = false := by simp [isQuoting, notSingle, notDouble, notBackslash]
      simp [ih, signs?_bare plain, notBlank, Rules.gather, Rules.meaning, Rules.direct,
        Function.comp_def]

/-- **`splitWords` reads a line by its own rules**: the words that these gather, and none
where the line has no signs. -/
theorem splitWords_eq_read? (line : Bytes) :
    (splitWords line).toOption.map (·.map Lexeme.word) = Rules.direct.read? line := by
  rw [Rules.read?, Rules.uncommented_eq_self rfl Stand.noConfusion]
  exact readWords_eq_gather .betweenWords [] line

theorem splitWords_eq_ok_iff {line : Bytes} {words : List Bytes} :
    splitWords line = .ok words ↔ Rules.direct.read? line = some (words.map .word) := by
  have injective : Function.Injective (List.map Lexeme.word) :=
    List.map_injective_iff.2 fun _ _ same => Lexeme.word.inj same
  rw [← splitWords_eq_read?, Option.map_eq_some_iff]
  constructor
  · intro split
    exact ⟨words, by rw [split]; rfl, rfl⟩
  · rintro ⟨found, read, same⟩
    cases split : splitWords line with
    | error refusal => rw [split] at read; cases read
    | ok others =>
        rw [split] at read
        cases read
        rw [injective same]

/-! ## What reading keeps -/

/-- The bytes of the words. -/
def textOf (lexemes : List Lexeme) : Bytes :=
  lexemes.flatMap fun
    | .word text => text
    | .operator _ => []

namespace Rules

variable (rules : Rules)

/-- The words hold what the signs add to them, in order. -/
theorem textOf_gather (word : Option Bytes) (signs : List Sign) :
    textOf (rules.gather word signs) =
      word.getD [] ++ signs.flatMap fun sign => (rules.meaning sign).bytes := by
  fun_induction rules.gather word signs with
  | case1 word => cases word <;> simp [textOf]
  | case2 word sign rest means ih => simp [ih, means, Meaning.bytes]
  | case3 word sign rest means ih =>
      have ends : textOf (word.toList.map .word) = word.getD [] := by cases word <;> simp [textOf]
      rw [textOf, List.flatMap_append, ← textOf, ← textOf, ends, ih]
      simp [means, Meaning.bytes]
  | case4 word sign rest b means ih =>
      have ends : textOf (word.toList.map .word) = word.getD [] := by cases word <;> simp [textOf]
      rw [textOf, List.flatMap_append, List.flatMap_cons, ← textOf, ← textOf, ends, ih]
      simp [means, Meaning.bytes]
  | case5 word sign rest bytes means ih => simp [ih, means, Meaning.bytes]

/-- Where no sign means an operator there are words only. -/
theorem gather_eq_words (word : Option Bytes) {signs : List Sign}
    (none : ∀ sign ∈ signs, ∀ b, rules.meaning sign ≠ .operator b) :
    ∃ words : List Bytes, rules.gather word signs = words.map .word := by
  fun_induction rules.gather word signs with
  | case1 word => exact ⟨word.toList, rfl⟩
  | case2 word sign rest means ih | case5 word sign rest bytes means ih =>
      exact ih fun other member => none other (List.mem_cons_of_mem sign member)
  | case3 word sign rest means ih =>
      obtain ⟨words, later⟩ := ih fun other member => none other (List.mem_cons_of_mem sign member)
      exact ⟨word.toList ++ words, by rw [later, List.map_append]⟩
  | case4 word sign rest b means ih => exact absurd means (none sign List.mem_cons_self b)

/-- Rules that agree on the signs gather the same. -/
theorem gather_congr {rules other : Rules} (word : Option Bytes) {signs : List Sign}
    (agree : ∀ sign ∈ signs, rules.meaning sign = other.meaning sign) :
    rules.gather word signs = other.gather word signs := by
  induction signs generalizing word with
  | nil => rfl
  | cons sign rest ih =>
      have later := fun next member => agree next (List.mem_cons_of_mem sign member)
      simp only [gather, agree sign List.mem_cons_self, ih _ later]

end Rules

/-! ## Signs that are disputed -/

/-- Letters, digits, the marks `_-./:,+%@`, the space and the tab: a shell sees in them
nothing but words and what separates words. -/
def isPlain (b : UInt8) : Bool :=
  isAlphanumeric b || (ascii "_-./:,+%@").elem b || b == space || b == 9

/-- The shell and `splitWords` take it differently: for a shell a backslash and a newline
join two lines, and a backslash in front of a zero byte is a byte of its own. -/
def Sign.isDisputed : Sign → Bool
  | escape b => b == newline
  | doubleEscape b => b == newline || b == 0
  | _ => false

/-- How many newlines there are, less the backslashes. -/
def balance (text : Bytes) : Int :=
  text.count newline - text.count backslash

theorem balance_flatMap {α : Type} (f : α → Bytes) (items : List α) :
    balance (items.flatMap f) = (items.map fun item => balance (f item)).sum := by
  induction items with
  | nil => rfl
  | cons item rest ih =>
      rw [List.map_cons, List.sum_cons, ← ih, List.flatMap_cons]
      simp only [balance, List.count_append]
      omega

/-- Quoting alone decides what it stands for. -/
def Sign.isOrdinary : Sign → Bool
  | bare b => isPlain b
  | double b => b != dollar && b != backtick
  | _ => true

theorem bare_meaning_of_isPlain {b : UInt8} (plain : isPlain b = true) :
    Rules.shell.meaning (.bare b) = Rules.direct.meaning (.bare b) ∧
      ∀ c, Rules.shell.meaning (.bare b) ≠ .operator c := by
  have classes : Rules.shell.blank b = Rules.direct.blank b ∧ Rules.shell.operator b = false := by
    revert plain
    refine forall_byte (p := fun b => isPlain b = true →
      Rules.shell.blank b = Rules.direct.blank b ∧ Rules.shell.operator b = false) ?_ b
    decide +kernel
  obtain ⟨blanks, inert⟩ := classes
  constructor
  · simp [Rules.meaning, blanks, inert, Rules.direct]
  · intro c
    rw [Rules.meaning, inert]
    split <;> simp

/-- It is no operator. -/
theorem meaning_ne_operator {sign : Sign} (ordinary : sign.isOrdinary = true) (c : UInt8) :
    Rules.shell.meaning sign ≠ .operator c := by
  cases sign with
  | bare b => exact (bare_meaning_of_isPlain ordinary).2 c
  | double b => simp_all [Sign.isOrdinary, Rules.meaning, Rules.shell]
  | quote b | single b => exact Meaning.noConfusion
  | escape b | doubleEscape b =>
      simp only [Rules.meaning]
      split_ifs <;> exact Meaning.noConfusion

/-- An undisputed sign means the same to both. -/
theorem meaning_eq_of_not_isDisputed {sign : Sign} (ordinary : sign.isOrdinary = true)
    (undisputed : sign.isDisputed = false) :
    Rules.shell.meaning sign = Rules.direct.meaning sign := by
  cases sign with
  | bare b => exact (bare_meaning_of_isPlain ordinary).1
  | escape b => simp_all [Sign.isDisputed, Rules.meaning, Rules.shell, Rules.direct]
  | quote b => rfl
  | single b => rfl
  | double b => simp_all [Sign.isOrdinary, Rules.meaning, Rules.shell, Rules.direct]
  | doubleEscape b =>
      simp_all [Sign.isDisputed, Rules.meaning, Rules.shell, Rules.direct, isEscapable]

/-- A disputed sign brings `splitWords` a newline that the shell drops, or spares it a
backslash that the shell keeps. -/
theorem balance_lt_of_isDisputed {sign : Sign} (disputed : sign.isDisputed = true) :
    balance (Rules.shell.meaning sign).bytes < balance (Rules.direct.meaning sign).bytes := by
  cases sign with
  | escape b =>
      obtain rfl : b = newline := by simpa [Sign.isDisputed] using disputed
      decide
  | doubleEscape b =>
      obtain rfl | rfl : b = newline ∨ b = 0 := by simpa [Sign.isDisputed] using disputed
      all_goals decide
  | bare b | quote b | single b | double b => cases disputed

/-- Ordinary signs with the same words by both rules hold nothing that is disputed. -/
theorem not_isDisputed_of_gather_eq {signs : List Sign}
    (ordinary : ∀ sign ∈ signs, sign.isOrdinary = true)
    (same : Rules.shell.gather none signs = Rules.direct.gather none signs) :
    ∀ sign ∈ signs, sign.isDisputed = false := by
  have balanced := congrArg (fun lexemes => balance (textOf lexemes)) same
  simp only [Rules.textOf_gather, Option.getD_none, List.nil_append, balance_flatMap] at balanced
  by_contra disputes
  push Not at disputes
  obtain ⟨sign, member, disputed⟩ := disputes
  rw [Bool.ne_false_iff] at disputed
  refine absurd balanced (ne_of_lt (List.sum_lt_sum _ _ ?_ ?_))
  · intro other isIn
    cases undisputed : other.isDisputed with
    | true => exact (balance_lt_of_isDisputed undisputed).le
    | false => rw [meaning_eq_of_not_isDisputed (ordinary other isIn) undisputed]
  · exact ⟨sign, member, balance_lt_of_isDisputed disputed⟩

/-! ## Lines that are run directly -/

/-- A line that is run directly holds no dollar sign and no backtick, not even in quotes. -/
theorem not_mem_of_direct {line : Bytes} (direct : dispatch line = .direct) :
    dollar ∉ line ∧ backtick ∉ line := by
  have quiet : operators.any (contains line) = false := by
    by_contra found
    rw [Bool.not_eq_false] at found
    rw [dispatch, found] at direct
    cases direct
  rw [List.any_eq_false] at quiet
  have absent : ∀ b, [b] ∈ operators → b ∉ line := by
    intro b isOperator member
    obtain ⟨before, behind, rfl⟩ := List.append_of_mem member
    refine quiet [b] isOperator ?_
    rw [contains_iff_isInfix]
    exact ⟨before, behind, by simp⟩
  exact ⟨absent dollar (by decide), absent backtick (by decide)⟩

theorem isOrdinary_of_direct {line : Bytes} {signs : List Sign}
    (direct : dispatch line = .direct) (found : signs? .nothing line = some signs)
    (plain : ∀ b, .bare b ∈ signs → isPlain b = true) :
    ∀ sign ∈ signs, sign.isOrdinary = true := by
  obtain ⟨noDollar, noBacktick⟩ := not_mem_of_direct direct
  intro sign member
  cases sign with
  | bare b => exact plain b member
  | double b =>
      have written : b ∈ line := by
        rw [← spelling_of_signs? found]
        exact List.mem_flatMap.2 ⟨.double b, member, List.mem_singleton_self b⟩
      have different : b ≠ dollar ∧ b ≠ backtick :=
        ⟨fun same => noDollar (same ▸ written), fun same => noBacktick (same ▸ written)⟩
      simp [Sign.isOrdinary, different]
  | escape b | quote b | single b | doubleEscape b => rfl

/-- **Running a line directly splits it as a shell would, exactly where it has no disputed
sign**: for each line that is run directly, whose quotations are closed and whose bare
bytes are plain, a shell has fields, and `splitWords` answers them unless a backslash
stands in front of a newline, or, between double quotes, of a zero byte. -/
theorem splitWords_eq_iff {line : Bytes} {signs : List Sign} (direct : dispatch line = .direct)
    (found : signs? .nothing line = some signs)
    (plain : ∀ b, .bare b ∈ signs → isPlain b = true) :
    ∃ fields : List Bytes, Rules.shell.read? line = some (fields.map .word) ∧
      (splitWords line = .ok fields ↔ ∀ sign ∈ signs, sign.isDisputed = false) := by
  have ordinary := isOrdinary_of_direct direct found plain
  have noHash : .bare hash ∉ signs := fun bare => absurd (plain hash bare) (by decide)
  have read : ∀ rules : Rules, rules.read? line = some (rules.gather none signs) := by
    intro rules
    rw [Rules.read?, Rules.uncommented_of_signs? found noHash (.inl rfl), found, Option.map_some]
  obtain ⟨fields, gathered⟩ := Rules.shell.gather_eq_words none fun sign member =>
    meaning_ne_operator (ordinary sign member)
  refine ⟨fields, by rw [read, gathered], ?_⟩
  rw [splitWords_eq_ok_iff, read, Option.some_inj, ← gathered]
  constructor
  · intro same
    exact not_isDisputed_of_gather_eq ordinary same.symm
  · intro undisputed
    refine Rules.gather_congr none fun sign member => ?_
    exact (meaning_eq_of_not_isDisputed (ordinary sign member) (undisputed sign member)).symm

/-- Quotes of both kinds, escapes outside and inside of them, and an empty word. -/
def quotedLine : Bytes :=
  ascii "run\t'a \\ b'c \"x\\\"y\\z\" d\\ e ''"

theorem quotedLine_split :
    ∃ fields : List Bytes, Rules.shell.read? quotedLine = some (fields.map .word) ∧
      splitWords quotedLine = .ok fields := by
  have found : signs? .nothing quotedLine = some ((signs? .nothing quotedLine).getD []) := by
    decide +kernel
  have plain : ∀ b, .bare b ∈ (signs? .nothing quotedLine).getD [] → isPlain b = true := by
    refine forall_byte (p := fun b => .bare b ∈ (signs? .nothing quotedLine).getD [] →
      isPlain b = true) ?_
    decide +kernel
  obtain ⟨fields, read, split⟩ := splitWords_eq_iff (by decide +kernel) found plain
  exact ⟨fields, read, split.2 (by decide +kernel)⟩

/-- Two lines that a backslash joins to one. -/
def continuedLine : Bytes :=
  ascii "a\\\nb"

/-- A shell reads the one word `ab` there; run directly, the line has a word of two lines. -/
theorem continuedLine_disputed :
    dispatch continuedLine = .direct ∧
      signs? .nothing continuedLine = some [.bare 97, .escape newline, .bare 98] ∧
      Rules.shell.read? continuedLine = some [.word (ascii "ab")] ∧
      splitWords continuedLine = .ok [ascii "a\nb"] := by
  decide +kernel

/-- Between double quotes a backslash in front of a zero byte is lost. -/
example :
    Rules.shell.read? [doubleQuote, backslash, 0, doubleQuote] = some [.word [backslash, 0]] ∧
      splitWords [doubleQuote, backslash, 0, doubleQuote] = .ok [[0]] := by
  decide

end Assay.Shell
