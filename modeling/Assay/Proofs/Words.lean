/-
# Assay.Proofs.Words -- quoted words are read back as they were

`quoteWords` is an encoder of rows of words and `splitWords` its decoder.  The
reader of a command line passes through the quoted form of a word from whatever
state it begins in, and stands behind it as if the word had been read byte by
byte (`readWords_quoteWord`); from that the round trip `splitWords_quoteWords` is
an induction over the words.  A command line that is run directly therefore starts
the very program, with the very arguments, that its words would.
-/
import Assay.Proofs.Acts
import Assay.Proofs.Search
import Assay.Exec.Executor

namespace Assay.Shell

set_option autoImplicit false

open Bytes

/-! ## One byte -/

/-- What holds of the first 256 numbers as bytes holds of every byte. -/
theorem forall_byte {p : UInt8 → Prop} (all : ∀ n : Fin 256, p (UInt8.ofNat n)) (b : UInt8) :
    p b := by
  have := all ⟨b.toNat, b.toNat_lt⟩
  simpa using this

/-- A bare byte means nothing to the reader. -/
theorem bare_plain {b : UInt8} (bare : isBare b = true) :
    isBlank b = false ∧ b ≠ singleQuote ∧ b ≠ doubleQuote ∧ b ≠ backslash := by
  revert bare
  refine forall_byte (p := fun b => isBare b = true →
    isBlank b = false ∧ b ≠ singleQuote ∧ b ≠ doubleQuote ∧ b ≠ backslash) ?_ b
  decide +kernel

theorem readWords_bare_betweenWords {b : UInt8} (bare : isBare b = true) (word rest : Bytes) :
    readWords .betweenWords word (b :: rest) = readWords .inWord [b] rest := by
  obtain ⟨notBlank, notSingle, notDouble, notBackslash⟩ := bare_plain bare
  cases rest <;> simp [readWords, notBlank, notSingle, notDouble, notBackslash]

theorem readWords_bare_inWord {b : UInt8} (bare : isBare b = true) (word rest : Bytes) :
    readWords .inWord word (b :: rest) = readWords .inWord (word ++ [b]) rest := by
  obtain ⟨notBlank, notSingle, notDouble, notBackslash⟩ := bare_plain bare
  cases rest <;> simp [readWords, notBlank, notSingle, notDouble, notBackslash]

/-- A blank ends a word. -/
theorem readWords_blank_inWord {b : UInt8} (blank : isBlank b = true) (word rest : Bytes) :
    readWords .inWord word (b :: rest) = (readWords .betweenWords [] rest).map (word :: ·) := by
  cases rest <;> simp [readWords, blank]

theorem readWords_singleQuote_betweenWords (word rest : Bytes) :
    readWords .betweenWords word (singleQuote :: rest) = readWords .inSingleQuotes [] rest := by
  cases rest <;> simp [readWords, singleQuote, isBlank]

/-- Between single quotes a quote written as `'\''` is one byte of the word. -/
theorem readWords_escapedQuote (word rest : Bytes) :
    readWords .inSingleQuotes word (ascii "'\\''" ++ rest) =
      readWords .inSingleQuotes (word ++ [singleQuote]) rest := by
  have spelled : ascii "'\\''" = [singleQuote, backslash, singleQuote, singleQuote] := by decide
  rw [spelled]
  cases rest <;> simp [readWords, singleQuote, backslash, doubleQuote, isBlank]

/-! ## One word -/

theorem readWords_bareWord {bytes : Bytes} (bare : ∀ b ∈ bytes, isBare b = true)
    (word rest : Bytes) :
    readWords .inWord word (bytes ++ rest) = readWords .inWord (word ++ bytes) rest := by
  induction bytes generalizing word with
  | nil => simp
  | cons b more ih =>
      rw [List.cons_append, readWords_bare_inWord (bare b List.mem_cons_self),
        ih fun c member => bare c (List.mem_cons_of_mem b member)]
      simp

/-- The inside of a quotation, its quotes escaped, is read as what was quoted. -/
theorem readWords_quotation (bytes word rest : Bytes) :
    readWords .inSingleQuotes word
        (replaceAll bytes [singleQuote] (ascii "'\\''") ++ singleQuote :: rest) =
      readWords .inWord (word ++ bytes) rest := by
  rw [replaceAll_singleton]
  induction bytes generalizing word with
  | nil => simp [readWords]
  | cons b more ih =>
      rw [List.flatMap_cons, List.append_assoc]
      by_cases quote : b = singleQuote
      · rw [if_pos quote, readWords_escapedQuote, ih, quote]
        simp
      · have literal : ∀ text, readWords .inSingleQuotes word (b :: text) =
            readWords .inSingleQuotes (word ++ [b]) text := by
          intro text
          rw [readWords, if_neg quote]
        rw [if_neg quote, List.singleton_append, literal, ih]
        simp

/-- The reader passes through a quoted word and has read the word. -/
theorem readWords_quoteWord (bytes word rest : Bytes) :
    readWords .betweenWords word (quoteWord bytes ++ rest) = readWords .inWord bytes rest := by
  unfold quoteWord
  split
  · rename_i empty
    rw [List.isEmpty_iff.1 empty, show ascii "''" = [singleQuote, singleQuote] by decide]
    rw [List.cons_append, readWords_singleQuote_betweenWords, List.singleton_append, readWords,
      if_pos rfl]
  · rename_i notEmpty
    split
    · rename_i bare
      rw [List.all_eq_true] at bare
      cases bytes with
      | nil => exact absurd rfl notEmpty
      | cons b more =>
          rw [List.cons_append, readWords_bare_betweenWords (bare b List.mem_cons_self),
            readWords_bareWord fun c member => bare c (List.mem_cons_of_mem b member)]
          rfl
    · rw [List.cons_append, List.cons_append, List.append_assoc,
        readWords_singleQuote_betweenWords, List.singleton_append, readWords_quotation]
      rfl

/-! ## Rows of words -/

theorem quoteWords_cons_cons (first second : Bytes) (more : List Bytes) :
    quoteWords (first :: second :: more) =
      quoteWord first ++ space :: quoteWords (second :: more) := by
  simp [quoteWords, join, List.intercalate]

/-- **What `quoteWords` writes, `splitWords` reads back**, whatever the words hold. -/
theorem splitWords_quoteWords (words : List Bytes) : splitWords (quoteWords words) = .ok words := by
  unfold splitWords
  induction words with
  | nil => rfl
  | cons first more ih =>
      cases more with
      | nil =>
          have alone : quoteWords [first] = quoteWord first ++ [] := by
            simp [quoteWords, join, List.intercalate]
          rw [alone, readWords_quoteWord]
          rfl
      | cons second more =>
          rw [quoteWords_cons_cons, readWords_quoteWord, readWords_blank_inWord (by decide), ih]
          rfl

end Assay.Shell

namespace Assay.Exec

open Bytes Shell

/-- **Quoting words and splitting the line again is the identity, and it shows in what
is started**: a quoted line that is run directly is prepared as its words are, to the
same invocation or the same refusal. -/
theorem quoted_line_stands_for_words (words : List Bytes) :
    splitWords (quoteWords words) = .ok words ∧
      ∀ (host : Host) (request : Request) (searchPath : Bytes), words ≠ [] →
        dispatch (quoteWords words) = .direct →
          prepare host { request with words := [], command := quoteWords words } searchPath =
            prepare host { request with words } searchPath := by
  refine ⟨splitWords_quoteWords words, ?_⟩
  intro host request searchPath nonempty direct
  have given : words.isEmpty = false := by
    cases words with
    | nil => exact absurd rfl nonempty
    | cons first more => rfl
  have fromLine : invokeLine host searchPath (quoteWords words) = invoke host searchPath words := by
    rw [invokeLine, direct]
    simp only [splitWords_quoteWords]
  simp [prepare, given, fromLine]

/-- Words that need quoting, among them an empty one and one of bytes that are not text. -/
def oddWords : List Bytes :=
  [ascii "/bin/echo", ascii "it's", [], [9, 0, 255], ascii "\\"]

theorem oddWords_line_stands_for_words :
    oddWords ≠ [] ∧ dispatch (quoteWords oddWords) = .direct ∧
      prepare Host.bare { command := quoteWords oddWords } [] =
        prepare Host.bare { words := oddWords } [] := by
  have nonempty : oddWords ≠ [] := by decide
  have direct : dispatch (quoteWords oddWords) = .direct := by decide
  exact ⟨nonempty, direct,
    (quoted_line_stands_for_words oddWords).2 Host.bare {} [] nonempty direct⟩

end Assay.Exec
