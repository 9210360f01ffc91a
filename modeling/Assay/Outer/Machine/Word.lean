/-
# Assay.Outer.Machine.Word -- the words of a script before they are expanded

A word of a shell script is a row of parts: text, parameters, the output of
another script and arithmetic, each quoted or not.  `readWord` takes one word off
the front of a script; what stands between brackets or backticks inside a word is
kept as text and read when the word is expanded.
-/
import Assay.Bytes.Search

namespace Assay.Outer.Machine

set_option autoImplicit false

open Bytes

/-- A piece of a word. -/
inductive Part where
  | text (content : Bytes) (quoted : Bool)
  /-- The value of a parameter, changed by a modifier with an operand. -/
  | parameter (name modifier operand : Bytes) (quoted : Bool)
  /-- What a script prints. -/
  | output (script : Bytes) (quoted : Bool)
  | arithmetic (expression : Bytes) (quoted : Bool)
  deriving Repr

abbrev Word := List Part

/-- Put one byte of text in front of a word. -/
def pushText (b : UInt8) (quoted : Bool) : Word → Word
  | .text content other :: rest =>
      if content.isEmpty || other != quoted then .text [b] quoted :: .text content other :: rest
      else .text (b :: content) quoted :: rest
  | parts => .text [b] quoted :: parts

/-! ## Brackets -/

def putBefore (front : Bytes) (found : Option (Bytes × Bytes)) : Option (Bytes × Bytes) :=
  found.map fun found => (front ++ found.1, found.2)

/-- What stands before the byte that closes a bracket or quotation, and what follows
it.  Quotations and brackets inside are passed over as wholes. -/
def enclosed : Nat → UInt8 → Bytes → Option (Bytes × Bytes)
  | 0, _, _ => none
  | _, _, [] => none
  | steps + 1, closing, b :: rest =>
      if b = closing then some ([], rest)
      else if b = backslash then
        match rest with
        | [] => none
        | c :: more => putBefore [b, c] (enclosed steps closing more)
      else if b = singleQuote ∧ closing ≠ doubleQuote then
        let inside := rest.takeWhile (· != singleQuote)
        match rest.drop inside.length with
        | [] => none
        | quote :: more => putBefore (b :: inside ++ [quote]) (enclosed steps closing more)
      else if b = doubleQuote ∨ b = backtick then
        match enclosed steps b rest with
        | none => none
        | some (inside, more) => putBefore (b :: inside ++ [b]) (enclosed steps closing more)
      else if b = dollar ∧ rest.head? = some 123 then
        match enclosed steps 125 rest.tail with
        | none => none
        | some (inside, more) =>
            putBefore (b :: 123 :: inside ++ [125]) (enclosed steps closing more)
      else if b = 40 ∧ (closing = 41 ∨ closing = doubleQuote) then
        match enclosed steps 41 rest with
        | none => none
        | some (inside, more) => putBefore (b :: inside ++ [41]) (enclosed steps closing more)
      else putBefore [b] (enclosed steps closing rest)

/-! ## Parameters -/

def isNameStart (b : UInt8) : Bool :=
  isLetter b || b == 95

def isNameByte (b : UInt8) : Bool :=
  isAlphanumeric b || b == 95

/-- The parameters whose names are one sign. -/
def isSpecialParameter (b : UInt8) : Bool :=
  isDigit b || (ascii "@*#?$!-").elem b

/-- A name of letters, digits and underscores at the front, and what follows it. -/
def nameAndRest (text : Bytes) : Bytes × Bytes :=
  match text with
  | [] => ([], [])
  | b :: rest =>
      if isNameStart b then (text.takeWhile isNameByte, text.dropWhile isNameByte)
      else if isDigit b then (text.takeWhile isDigit, text.dropWhile isDigit)
      else if isSpecialParameter b then ([b], rest)
      else ([], text)

/-- The modifiers, longer ones first. -/
def modifiers : List Bytes :=
  [ascii ":-", ascii ":=", ascii ":+", ascii ":?", ascii "##", ascii "%%", ascii "-", ascii "=",
    ascii "+", ascii "?", ascii "#", ascii "%"]

/-- The modifier that asks for the length of a value. -/
def lengthModifier : Bytes := ascii "length"

/-- Read what stands between the braces of a parameter. -/
def bracedParameter (inside : Bytes) (quoted : Bool) : Part :=
  let length? := inside.head? == some 35 && 1 < inside.length &&
    (nameAndRest inside.tail).2.isEmpty
  if length? then .parameter inside.tail lengthModifier [] quoted
  else
    let (name, rest) := nameAndRest inside
    match modifiers.find? (startsWith rest) with
    | some modifier => .parameter name modifier (rest.drop modifier.length) quoted
    | none => .parameter name [] [] quoted

/-- Read what follows a dollar sign; none when the sign stands for itself. -/
def readDollar (steps : Nat) (quoted : Bool) (text : Bytes) : Option (Option (Part × Bytes)) :=
  match text with
  | [] => some none
  | b :: rest =>
      if b = 123 then
        (enclosed steps 125 rest).map fun found => some (bracedParameter found.1 quoted, found.2)
      else if b = 40 then
        let arithmetic? := do
          guard (rest.head? = some 40)
          let (expression, after) ← enclosed steps 41 rest.tail
          guard (after.head? = some 41)
          some (Part.arithmetic expression quoted, after.tail)
        match arithmetic? with
        | some found => some (some found)
        | none => (enclosed steps 41 rest).map fun found => some (.output found.1 quoted, found.2)
      else if isNameStart b then
        some (some (.parameter (text.takeWhile isNameByte) [] [] quoted, text.dropWhile isNameByte))
      else if isSpecialParameter b then some (some (.parameter [b] [] [] quoted, rest))
      else some none

/-- The script between backticks: a backslash before a backslash, a dollar sign or a
backtick is dropped. -/
def backtickScript : Bytes → Bytes
  | [] => []
  | [b] => [b]
  | b :: c :: rest =>
      if b = backslash ∧ (c = backslash ∨ c = dollar ∨ c = backtick) then c :: backtickScript rest
      else b :: backtickScript (c :: rest)

/-! ## Words -/

/-- The bytes that end a word. -/
def endsWord (b : UInt8) : Bool :=
  b == 32 || b == 9 || b == 10 || (ascii ";&|<>()").elem b

def joinWord (part : Part) (found : Option (Word × Bytes)) : Option (Word × Bytes) :=
  found.map fun found => (part :: found.1, found.2)

def joinText (b : UInt8) (quoted : Bool) (found : Option (Word × Bytes)) : Option (Word × Bytes) :=
  found.map fun found => (pushText b quoted found.1, found.2)

/-- Read the parts of a quotation up to its closing quote, or of a whole text when
`closing` is none. -/
def readQuoted (closing : Option UInt8) : Nat → Bytes → Option (Word × Bytes)
  | 0, _ => none
  | _, [] => if closing.isNone then some ([], []) else none
  | steps + 1, b :: rest =>
      if some b = closing then some ([], rest)
      else if b = backslash then
        match rest with
        | [] => joinText b true (readQuoted closing steps [])
        | c :: more =>
            if c = newline then readQuoted closing steps more
            else if c = backslash ∨ c = dollar ∨ c = backtick ∨ some c = closing then
              joinText c true (readQuoted closing steps more)
            else joinText b true (readQuoted closing steps (c :: more))
      else if b = dollar then
        match readDollar steps true rest with
        | none => none
        | some none => joinText b true (readQuoted closing steps rest)
        | some (some (part, more)) => joinWord part (readQuoted closing steps more)
      else if b = backtick then
        match enclosed steps backtick rest with
        | none => none
        | some (inside, more) =>
            joinWord (.output (backtickScript inside) true) (readQuoted closing steps more)
      else joinText b true (readQuoted closing steps rest)

/-- Read one word, up to a byte that ends it; `whole` reads on to the end of the text. -/
def readWord (whole : Bool) : Nat → Bytes → Option (Word × Bytes)
  | 0, _ => none
  | _, [] => some ([], [])
  | steps + 1, b :: rest =>
      if !whole && endsWord b then some ([], b :: rest)
      else if b = backslash then
        match rest with
        | [] => some ([.text [b] true], [])
        | c :: more =>
            if c = newline then readWord whole steps more
            else joinText c true (readWord whole steps more)
      else if b = singleQuote then
        let inside := rest.takeWhile (· != singleQuote)
        match rest.drop inside.length with
        | [] => none
        | _ :: more => joinWord (.text inside true) (readWord whole steps more)
      else if b = doubleQuote then
        match readQuoted (some doubleQuote) steps rest with
        | none => none
        | some (parts, more) =>
            (readWord whole steps more).map fun found => (.text [] true :: parts ++ found.1, found.2)
      else if b = dollar then
        match readDollar steps false rest with
        | none => none
        | some none => joinText b false (readWord whole steps rest)
        | some (some (part, more)) => joinWord part (readWord whole steps more)
      else if b = backtick then
        match enclosed steps backtick rest with
        | none => none
        | some (inside, more) =>
            joinWord (.output (backtickScript inside) false) (readWord whole steps more)
      else joinText b false (readWord whole steps rest)

/-- The text of a word that is one piece of unquoted text. -/
def Word.bare? : Word → Option Bytes
  | [.text content false] => some content
  | _ => none

/-- Whether any part of a word is quoted. -/
def Word.hasQuotes (word : Word) : Bool :=
  word.any fun
    | .text _ quoted => quoted
    | .parameter _ _ _ quoted => quoted
    | .output _ quoted => quoted
    | .arithmetic _ quoted => quoted

/-- The text of a word with its quotation marks taken off and nothing expanded. -/
def Word.plainText (word : Word) : Bytes :=
  word.flatMap fun
    | .text content _ => content
    | .parameter name _ _ _ => dollar :: name
    | .output script _ => dollar :: 40 :: script ++ [41]
    | .arithmetic expression _ => dollar :: 40 :: 40 :: expression ++ [41, 41]

end Assay.Outer.Machine
