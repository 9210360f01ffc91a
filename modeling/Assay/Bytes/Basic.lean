/-
# Assay.Bytes.Basic -- byte strings

Commands, paths, logs and file contents are byte strings in no particular
encoding.  This module holds the type, the byte classes that the rules of the
library are stated with, and the small operations on whole strings: joining,
trimming, comparing ends and splitting at a class of bytes.

The classes know ASCII only: a byte from 128 on is in none of them.
-/

namespace Assay

set_option autoImplicit false

/-- A byte string. -/
abbrev Bytes := List UInt8

namespace Bytes

/-- The bytes of an ASCII text. -/
def ascii (text : String) : Bytes :=
  text.toList.map fun c => c.toNat.toUInt8

/-! ## Byte classes -/

def newline : UInt8 := 10
def carriageReturn : UInt8 := 13
def space : UInt8 := 32
def doubleQuote : UInt8 := 34
def dollar : UInt8 := 36
def singleQuote : UInt8 := 39
def comma : UInt8 := 44
def slash : UInt8 := 47
def colon : UInt8 := 58
def equals : UInt8 := 61
def backslash : UInt8 := 92
def backtick : UInt8 := 96

/-- Space, tab, newline, vertical tab, form feed and carriage return. -/
def isBlank (b : UInt8) : Bool :=
  b == 32 || (9 ≤ b && b ≤ 13)

def isDigit (b : UInt8) : Bool :=
  48 ≤ b && b ≤ 57

def isUpper (b : UInt8) : Bool :=
  65 ≤ b && b ≤ 90

def isLower (b : UInt8) : Bool :=
  97 ≤ b && b ≤ 122

def isLetter (b : UInt8) : Bool :=
  isUpper b || isLower b

def isAlphanumeric (b : UInt8) : Bool :=
  isLetter b || isDigit b

/-- A lower case hexadecimal digit. -/
def isHexDigit (b : UInt8) : Bool :=
  isDigit b || (97 ≤ b && b ≤ 102)

def upperByte (b : UInt8) : UInt8 :=
  if isLower b then b - 32 else b

def lowerByte (b : UInt8) : UInt8 :=
  if isUpper b then b + 32 else b

def toUpper (text : Bytes) : Bytes :=
  text.map upperByte

def toLower (text : Bytes) : Bytes :=
  text.map lowerByte

/-! ## Whole strings -/

/-- The items in order, with `delimiter` between neighbours. -/
def join (items : List Bytes) (delimiter : Bytes) : Bytes :=
  delimiter.intercalate items

def trimLeft (text : Bytes) : Bytes :=
  text.dropWhile isBlank

def trimRight (text : Bytes) : Bytes :=
  (text.reverse.dropWhile isBlank).reverse

/-- The text without the blanks at either end. -/
def trim (text : Bytes) : Bytes :=
  trimRight (trimLeft text)

/-- The text before its first zero byte.  Of why something failed no more is passed on. -/
def untilZero (text : Bytes) : Bytes :=
  text.takeWhile (· != 0)

def startsWith (text affix : Bytes) : Bool :=
  affix.isPrefixOf text

def endsWith (text affix : Bytes) : Bool :=
  affix.isSuffixOf text

/-! ## Splitting at a class of bytes -/

/-- The stretches of `text` between the bytes that `separates` accepts; there is
always at least one stretch. -/
def splitWhere (separates : UInt8 → Bool) : Bytes → List Bytes
  | [] => [[]]
  | b :: rest =>
      if separates b then [] :: splitWhere separates rest
      else
        match splitWhere separates rest with
        | [] => [[b]]
        | stretch :: more => (b :: stretch) :: more

/-- The non-empty stretches between separators. -/
def fieldsWhere (separates : UInt8 → Bool) (text : Bytes) : List Bytes :=
  (splitWhere separates text).filter fun stretch => !stretch.isEmpty

/-- The maximal runs of bytes that are not blank. -/
def fields (text : Bytes) : List Bytes :=
  fieldsWhere isBlank text

end Bytes

end Assay
