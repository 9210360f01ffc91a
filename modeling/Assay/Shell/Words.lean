/-
# Assay.Shell.Words -- splitting a command line into words, and quoting words

`splitWords` reads a command line by the shell's quoting rules: blanks separate
words, single quotes keep every byte, double quotes keep every byte but drop a
backslash before one of a few, and a backslash elsewhere keeps the next byte.
`quoteWord` writes one word so that it is read back unchanged.
-/
import Assay.Bytes.Search

namespace Assay.Shell

set_option autoImplicit false

open Bytes

/-- Why a command line has no reading as words. -/
inductive WordError where
  /-- A backslash stands at the very end. -/
  | noEscapedCharacter
  /-- A quotation is not closed. -/
  | noClosingQuotation
  deriving DecidableEq, Repr

def WordError.message : WordError → Bytes
  | .noEscapedCharacter => ascii "No escaped character"
  | .noClosingQuotation => ascii "No closing quotation"

/-! ## Splitting -/

/-- Where the reader of a command line stands. -/
inductive ReaderState where
  | betweenWords
  | inWord
  | inSingleQuotes
  | inDoubleQuotes
  deriving DecidableEq, Repr

/-- The bytes before which a backslash between double quotes is dropped. -/
def isEscapable (b : UInt8) : Bool :=
  b == backslash || b == doubleQuote || b == dollar || b == backtick || b == newline || b == 0

/-- Read the rest of a command line; `word` is what the current word has so far. -/
def readWords : ReaderState → Bytes → Bytes → Except WordError (List Bytes)
  | .betweenWords, _, [] => .ok []
  | .inWord, word, [] => .ok [word]
  | .inSingleQuotes, _, [] => .error .noClosingQuotation
  | .inDoubleQuotes, _, [] => .error .noClosingQuotation
  | .inSingleQuotes, word, b :: rest =>
      if b = singleQuote then readWords .inWord word rest
      else readWords .inSingleQuotes (word ++ [b]) rest
  | .inDoubleQuotes, word, b :: rest =>
      if b = doubleQuote then readWords .inWord word rest
      else if b = backslash then
        match rest with
        | [] => .error .noClosingQuotation
        | c :: more =>
            if isEscapable c then readWords .inDoubleQuotes (word ++ [c]) more
            else readWords .inDoubleQuotes (word ++ [b]) (c :: more)
      else readWords .inDoubleQuotes (word ++ [b]) rest
  | .betweenWords, word, b :: rest =>
      if isBlank b then readWords .betweenWords word rest
      else if b = singleQuote then readWords .inSingleQuotes [] rest
      else if b = doubleQuote then readWords .inDoubleQuotes [] rest
      else if b = backslash then
        match rest with
        | [] => .error .noEscapedCharacter
        | c :: more => readWords .inWord [c] more
      else readWords .inWord [b] rest
  | .inWord, word, b :: rest =>
      if isBlank b then (readWords .betweenWords [] rest).map (word :: ·)
      else if b = singleQuote then readWords .inSingleQuotes word rest
      else if b = doubleQuote then readWords .inDoubleQuotes word rest
      else if b = backslash then
        match rest with
        | [] => .error .noEscapedCharacter
        | c :: more => readWords .inWord (word ++ [c]) more
      else readWords .inWord (word ++ [b]) rest

/-- The words of a command line. -/
def splitWords (line : Bytes) : Except WordError (List Bytes) :=
  readWords .betweenWords [] line

/-! ## Quoting -/

/-- The bytes that `quoteWord` leaves bare. -/
def isBare (b : UInt8) : Bool :=
  isAlphanumeric b || (ascii "@%+=:,./-_").elem b || b == 0

/-- A word as the shell reads it back unchanged: bare when every byte is, else in
single quotes, each single quote inside closed, escaped and reopened. -/
def quoteWord (word : Bytes) : Bytes :=
  if word.isEmpty then ascii "''"
  else if word.all isBare then word
  else singleQuote :: replaceAll word [singleQuote] (ascii "'\\''") ++ [singleQuote]

/-- A command line that is read back as these words. -/
def quoteWords (words : List Bytes) : Bytes :=
  join (words.map quoteWord) [space]

end Assay.Shell
