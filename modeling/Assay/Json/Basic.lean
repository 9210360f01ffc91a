/-
# Assay.Json.Basic -- structured values

Job descriptors, settings files, datasets and reports are JSON.  A number is a
whole number or a decimal that is kept as it was written; an object lists its
members, and of two members of one name the later one counts.  How values are read
and written is not said here (`Assay.Json.Library`).
-/
import Assay.Bytes.Decimal
import Assay.KeyMap

namespace Assay

set_option autoImplicit false

namespace Json

open Bytes

/-- A dot and at least one digit, or nothing, and then an exponent or nothing. -/
def isExponent : Bytes → Bool
  | [] => true
  | mark :: rest =>
      let digits := if rest.head? = some 43 ∨ rest.head? = some 45 then rest.tail else rest
      (mark == 101 || mark == 69) && !digits.isEmpty && digits.all isDigit

def isFraction : Bytes → Bool
  | [] => false
  | mark :: rest =>
      if mark = 46 then
        !(rest.takeWhile isDigit).isEmpty && isExponent (rest.dropWhile isDigit)
      else isExponent (mark :: rest)

/-- Digits without a needless leading zero. -/
def isPlainWhole (digits : Bytes) : Bool :=
  !digits.isEmpty && (digits.length == 1 || digits.head? != some 48)

def dropMinus (text : Bytes) : Bytes :=
  if text.head? = some 45 then text.tail else text

/-- A whole number as JSON writes it. -/
def isWhole (text : Bytes) : Bool :=
  let digits := dropMinus text
  digits.all isDigit && isPlainWhole digits

/-- A number with a fraction or an exponent as JSON writes it. -/
def isDecimal (text : Bytes) : Bool :=
  let unsigned := dropMinus text
  isPlainWhole (unsigned.takeWhile isDigit) && isFraction (unsigned.dropWhile isDigit)

/-- A number with a fraction or an exponent, as it was written. -/
structure Decimal where
  text : Bytes
  valid : isDecimal text = true
  deriving DecidableEq, Repr

end Json

/-- A JSON value. -/
inductive Json where
  | null
  | bool (value : Bool)
  | int (value : Int)
  | decimal (value : Json.Decimal)
  | string (value : Bytes)
  | array (items : List Json)
  | object (members : List (Bytes × Json))
  deriving Repr

namespace Json

open Bytes

instance : Inhabited Json :=
  ⟨null⟩

def isNull : Json → Bool
  | null => true
  | _ => false

def string? : Json → Option Bytes
  | string value => some value
  | _ => none

def int? : Json → Option Int
  | int value => some value
  | _ => none

/-- Whether a whole number has a place in 64 bits, with a sign or without one. -/
def fitsWord (value : Int) : Bool :=
  -9223372036854775808 ≤ value && value ≤ 18446744073709551615

/-- A whole number of 64 bits, cut down to its lowest 32 bits, the first of them a sign.
A larger one does not count as a whole number. -/
def int32? (value : Json) : Option Int :=
  (value.int?.filter fitsWord).map (Int.bmod · 4294967296)

def bool? : Json → Option Bool
  | bool value => some value
  | _ => none

def array? : Json → Option (List Json)
  | array items => some items
  | _ => none

def object? : Json → Option (List (Bytes × Json))
  | object members => some members
  | _ => none

/-- The last member of a name. -/
def findMember (key : Bytes) : List (Bytes × Json) → Option Json
  | [] => none
  | (name, value) :: rest =>
      (findMember key rest).or (if name = key then some value else none)

/-- The member of a name, when the value is an object that has one. -/
def get? (value : Json) (key : Bytes) : Option Json :=
  value.object?.bind (findMember key)

/-- The members with the one of a name replaced or added, at its place in the order of names. -/
def setMember (key : Bytes) (value : Json) (members : List (Bytes × Json)) :
    List (Bytes × Json) :=
  KeyMap.insertEntry key value (members.filter fun member => member.1 != key)

/-- The strings among the items. -/
def strings (items : List Json) : List Bytes :=
  items.filterMap string?

/-- All the items, when each is a string. -/
def allStrings? (items : List Json) : Option (List Bytes) :=
  items.mapM string?

def ofStrings (items : List Bytes) : Json :=
  array (items.map string)

/-- An object with ASCII member names. -/
def record (members : List (String × Json)) : Json :=
  object (members.map fun member => (ascii member.1, member.2))

end Json

end Assay
