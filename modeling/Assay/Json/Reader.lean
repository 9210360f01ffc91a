/-
# Assay.Json.Reader -- reading JSON

`read?` reads a text that is one JSON value with blanks around it, and nothing
else; a zero byte ends the text.  It accepts exactly the standard's grammar: no trailing
comma, no comment, no number with a leading zero, no control byte and no unknown escape in
a string.  `readFront?` reads the value that a text begins with, and leaves what follows it.
-/
import Assay.Json.Basic
import Assay.Bytes.Utf8

namespace Assay.Json

set_option autoImplicit false

open Bytes

/-- The blanks between the tokens. -/
def isGap (b : UInt8) : Bool :=
  b == 32 || b == 9 || b == 10 || b == 13

def skipGap (text : Bytes) : Bytes :=
  text.dropWhile isGap

/-! ## Strings -/

def hexValue? (b : UInt8) : Option Nat :=
  if isDigit b then some (b.toNat - 48)
  else if 97 ≤ b && b ≤ 102 then some (b.toNat - 87)
  else if 65 ≤ b && b ≤ 70 then some (b.toNat - 55)
  else none

/-- The number that four hexadecimal digits stand for. -/
def hexUnit? (a b c d : UInt8) : Option Nat := do
  let a ← hexValue? a
  let b ← hexValue? b
  let c ← hexValue? c
  let d ← hexValue? d
  some (((a * 16 + b) * 16 + c) * 16 + d)

def isHighSurrogate (unit : Nat) : Bool :=
  0xD800 ≤ unit && unit < 0xDC00

def isLowSurrogate (unit : Nat) : Bool :=
  0xDC00 ≤ unit && unit < 0xE000

/-- What a backslash and this byte stand for. -/
def plainEscape? (b : UInt8) : Option UInt8 :=
  if b = doubleQuote then some doubleQuote
  else if b = backslash then some backslash
  else if b = slash then some slash
  else if b = 98 then some 8
  else if b = 116 then some 9
  else if b = 110 then some 10
  else if b = 102 then some 12
  else if b = 114 then some 13
  else none

/-- Put text in front of what was read. -/
def withFront (front : Bytes) (found : Option (Bytes × Bytes)) : Option (Bytes × Bytes) :=
  found.map fun found => (front ++ found.1, found.2)

/-- Read a string after its opening quote: its text, and what follows it. -/
def readString : Bytes → Option (Bytes × Bytes)
  | [] => none
  | b :: rest =>
      if b = doubleQuote then some ([], rest)
      else if b = backslash then
        match rest with
        | [] => none
        | c :: more =>
            if c = 117 then
              match more with
              | h1 :: h2 :: h3 :: h4 :: tail =>
                  match hexUnit? h1 h2 h3 h4 with
                  | none => none
                  | some unit =>
                      if isHighSurrogate unit then
                        match tail with
                        | s :: u :: l1 :: l2 :: l3 :: l4 :: last =>
                            if s = backslash ∧ u = 117 then
                              match hexUnit? l1 l2 l3 l4 with
                              | none => none
                              | some low =>
                                  if isLowSurrogate low then
                                    withFront
                                      (encodePoint (0x10000 + (unit - 0xD800) * 1024 + (low - 0xDC00)))
                                      (readString last)
                                  else none
                            else none
                        | _ => none
                      else if isLowSurrogate unit then none
                      else withFront (encodePoint unit) (readString tail)
              | _ => none
            else
              match plainEscape? c with
              | none => none
              | some plain => withFront [plain] (readString more)
      else if b < 32 then none
      else withFront [b] (readString rest)

/-! ## Values -/

def isNumberByte (b : UInt8) : Bool :=
  isDigit b || b == 43 || b == 45 || b == 46 || b == 101 || b == 69

def wholeValue (text : Bytes) : Int :=
  if text.head? = some 45 then -(digitsValue text.tail : Int) else digitsValue text

/-- The number that a run of number bytes stands for. -/
def number? (text : Bytes) : Option Json :=
  if isWhole text then some (int (wholeValue text))
  else if valid : isDecimal text = true then some (decimal ⟨text, valid⟩)
  else none

/-- Take a fixed word off the front. -/
def word? (word : Bytes) (value : Json) (text : Bytes) : Option (Json × Bytes) :=
  if startsWith text word then some (value, text.drop word.length) else none

mutual

/-- Read the value at the front of a text, and what follows it.  Each value on
the way down takes one step of the depth. -/
def readValue : Nat → Bytes → Option (Json × Bytes)
  | 0, _ => none
  | depth + 1, text =>
      match text with
      | [] => none
      | b :: rest =>
          if b = doubleQuote then (readString rest).map fun found => (string found.1, found.2)
          else if b = 91 then
            match skipGap rest with
            | [] => none
            | c :: more =>
                if c = 93 then some (array [], more)
                else (readItems depth (c :: more)).map fun found => (array found.1, found.2)
          else if b = 123 then
            match skipGap rest with
            | [] => none
            | c :: more =>
                if c = 125 then some (object [], more)
                else (readMembers depth (c :: more)).map fun found => (object found.1, found.2)
          else if b = 110 then word? (ascii "null") null text
          else if b = 116 then word? (ascii "true") (bool true) text
          else if b = 102 then word? (ascii "false") (bool false) text
          else
            (number? (text.takeWhile isNumberByte)).map fun value =>
              (value, text.dropWhile isNumberByte)

/-- Read the items of an array up to its end, the text being at an item. -/
def readItems : Nat → Bytes → Option (List Json × Bytes)
  | 0, _ => none
  | depth + 1, text =>
      match readValue depth text with
      | none => none
      | some (item, after) =>
          match skipGap after with
          | [] => none
          | b :: rest =>
              if b = 93 then some ([item], rest)
              else if b = comma then
                (readItems depth (skipGap rest)).map fun found => (item :: found.1, found.2)
              else none

/-- Read the members of an object up to its end, the text being at a name. -/
def readMembers : Nat → Bytes → Option (List (Bytes × Json) × Bytes)
  | 0, _ => none
  | depth + 1, text =>
      match text with
      | [] => none
      | quote :: rest =>
          if quote = doubleQuote then
            match readString rest with
            | none => none
            | some (name, afterName) =>
                match skipGap afterName with
                | [] => none
                | mark :: beforeValue =>
                    if mark = colon then
                      match readValue depth (skipGap beforeValue) with
                      | none => none
                      | some (value, after) =>
                          match skipGap after with
                          | [] => none
                          | b :: more =>
                              if b = 125 then some ([(name, value)], more)
                              else if b = comma then
                                (readMembers depth (skipGap more)).map fun found =>
                                  ((name, value) :: found.1, found.2)
                              else none
                    else none
          else none

end

/-- The value that a text is.  A text cannot nest deeper, or hold more items,
than twice its length. -/
def read? (text : Bytes) : Option Json :=
  match readValue (2 * text.length + 2) (skipGap text) with
  | none => none
  | some (value, rest) => if (skipGap rest).head?.all (· == 0) then some value else none

/-- The value at the front of a text, whatever follows it. -/
def readFront? (text : Bytes) : Option Json :=
  (readValue (2 * text.length + 2) (skipGap text)).map (·.1)

/-- The mark that may stand in front of a text in UTF-8. -/
def byteOrderMark : Bytes := [0xEF, 0xBB, 0xBF]

def dropMark (text : Bytes) : Bytes :=
  if startsWith text byteOrderMark then text.drop byteOrderMark.length else text

end Assay.Json
