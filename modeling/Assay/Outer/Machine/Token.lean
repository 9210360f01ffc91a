/-
# Assay.Outer.Machine.Token -- the tokens of a script

A script is a row of words, operators and redirections; a line break is an
operator.  The text of a here-document is kept in the token that announces it.
-/
import Assay.Outer.Machine.Word
import Assay.Bytes.Decimal

namespace Assay.Outer.Machine

set_option autoImplicit false

open Bytes

/-- A token of a script. -/
inductive Token where
  | word (parts : Word)
  | operator (text : Bytes)
  /-- A redirection of a descriptor, its target being the next word. -/
  | redirect (descriptor : Option Nat) (text : Bytes)
  /-- Input given in the script itself, not to be expanded when `verbatim`. -/
  | here (descriptor : Option Nat) (content : Bytes) (verbatim : Bool)
  /-- The rest of the script cannot be read. -/
  | broken
  deriving Repr

def isSpaceOrTab (b : UInt8) : Bool :=
  b == 32 || b == 9

/-- The operators, longer ones first. -/
def operatorTexts : List Bytes :=
  [ascii "&&", ascii "||", ascii ";;", ascii ";", ascii "&", ascii "|", ascii "(", ascii ")"]

/-- The redirections, longer ones first. -/
def redirectTexts : List Bytes :=
  [ascii "<<-", ascii "<<", ascii ">>", ascii "<&", ascii ">&", ascii "<>", ascii ">|", ascii "<",
    ascii ">"]

/-- An announced here-document: its last line, whether it is verbatim, and whether
the tabs in front of its lines are dropped. -/
structure Announced where
  ending : Bytes
  verbatim : Bool
  dropsTabs : Bool

/-- The lines up to the one that ends a here-document, and what follows that one. -/
def hereContent (document : Announced) : Nat → Bytes → Bytes × Bytes
  | 0, text => ([], text)
  | steps + 1, text =>
      if text.isEmpty then ([], [])
      else
        let line := text.takeWhile (· != newline)
        let rest := (text.drop line.length).drop 1
        let line := if document.dropsTabs then line.dropWhile (· == 9) else line
        if line = document.ending then ([], rest)
        else
          let (more, after) := hereContent document steps rest
          (line ++ newline :: more, after)

/-- Take the contents of the announced documents off the front of a text. -/
def hereContents (steps : Nat) : List Announced → Bytes → List Bytes × Bytes
  | [], text => ([], text)
  | document :: more, text =>
      let (content, rest) := hereContent document steps text
      let (contents, after) := hereContents steps more rest
      (content :: contents, after)

/-- Give the announced documents their contents, in order. -/
def fillHere : List Bytes → List Token → List Token
  | content :: contents, .here descriptor [] verbatim :: rest =>
      .here descriptor content verbatim :: fillHere contents rest
  | contents, token :: rest => token :: fillHere contents rest
  | _, [] => []

/-- The tokens of one line, read so far in reverse, with the documents announced on
it, then those of the lines after it. -/
def readTokens : Nat → List Token → List Announced → Bytes → List Token
  | 0, line, _, _ => line.reverse ++ [.broken]
  | _, line, _, [] => line.reverse
  | steps + 1, line, announced, b :: rest =>
      let text := b :: rest
      if isSpaceOrTab b then readTokens steps line announced rest
      else if b = backslash ∧ rest.head? = some newline then
        readTokens steps line announced rest.tail
      else if b = 35 then
        readTokens steps line announced (rest.dropWhile (· != newline))
      else if b = newline then
        let (contents, after) := hereContents steps announced rest
        fillHere contents line.reverse ++ .operator [newline] :: readTokens steps [] [] after
      else
        let digits := text.takeWhile isDigit
        let beyond := text.drop digits.length
        match redirectTexts.find? (startsWith beyond) with
        | some redirect =>
            let descriptor := if digits.isEmpty then none else some (digitsValue digits)
            let after := beyond.drop redirect.length
            if redirect = ascii "<<" ∨ redirect = ascii "<<-" then
              match readWord false steps (after.dropWhile isSpaceOrTab) with
              | none => line.reverse ++ [.broken]
              | some (parts, after) =>
                  let document : Announced :=
                    ⟨Word.plainText parts, Word.hasQuotes parts, redirect.length == 3⟩
                  readTokens steps (.here descriptor [] document.verbatim :: line)
                    (announced ++ [document]) after
            else readTokens steps (.redirect descriptor redirect :: line) announced after
        | none =>
            match operatorTexts.find? (startsWith text) with
            | some operator =>
                readTokens steps (.operator operator :: line) announced (text.drop operator.length)
            | none =>
                match readWord false steps text with
                | none => line.reverse ++ [.broken]
                | some (parts, after) => readTokens steps (.word parts :: line) announced after

/-- The tokens of a script. -/
def tokens (script : Bytes) : List Token :=
  readTokens (2 * script.length + 2) [] [] script

end Assay.Outer.Machine
