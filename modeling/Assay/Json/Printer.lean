/-
# Assay.Json.Printer -- writing JSON

`print` writes a value on one line without blanks.  `pretty` writes one member or
item a line, two blanks deeper than what holds it; empty arrays and objects stay
on their line.  In strings a double quote, a backslash and every control byte is
escaped and all else stands as it is.
-/
import Assay.Json.Basic

namespace Assay.Json

set_option autoImplicit false

open Bytes

def hexDigit (value : Nat) : UInt8 :=
  if value < 10 then (48 + value).toUInt8 else (87 + value).toUInt8

/-- One byte of a string, escaped where it must be. -/
def escapeByte (b : UInt8) : Bytes :=
  if b = doubleQuote then [backslash, doubleQuote]
  else if b = backslash then [backslash, backslash]
  else if b = 8 then [backslash, 98]
  else if b = 9 then [backslash, 116]
  else if b = 10 then [backslash, 110]
  else if b = 12 then [backslash, 102]
  else if b = 13 then [backslash, 114]
  else if b < 32 then
    [backslash, 117, 48, 48, hexDigit (b.toNat / 16), hexDigit (b.toNat % 16)]
  else [b]

/-- A string between double quotes. -/
def printString (text : Bytes) : Bytes :=
  doubleQuote :: text.flatMap escapeByte ++ [doubleQuote]

mutual

/-- A value on one line. -/
def print : Json → Bytes
  | null => ascii "null"
  | bool true => ascii "true"
  | bool false => ascii "false"
  | int value => ofInt value
  | decimal value => value.text
  | string value => printString value
  | array [] => ascii "[]"
  | array (item :: items) => 91 :: print item ++ printItems items
  | object [] => ascii "\x7b\x7d"
  | object ((name, value) :: members) =>
      123 :: printString name ++ colon :: print value ++ printMembers members

/-- What follows the first item of an array. -/
def printItems : List Json → Bytes
  | [] => [93]
  | item :: items => comma :: print item ++ printItems items

/-- What follows the first member of an object. -/
def printMembers : List (Bytes × Json) → Bytes
  | [] => [125]
  | (name, value) :: members =>
      comma :: printString name ++ colon :: print value ++ printMembers members

end

def lineAt (depth : Nat) : Bytes :=
  newline :: List.replicate (2 * depth) space

mutual

/-- A value over several lines, its inner lines `depth + 1` steps deep. -/
def prettyAt (depth : Nat) : Json → Bytes
  | array [] => ascii "[]"
  | array (item :: items) =>
      91 :: lineAt (depth + 1) ++ prettyAt (depth + 1) item ++ prettyItems depth items
  | object [] => ascii "\x7b\x7d"
  | object ((name, value) :: members) =>
      123 :: lineAt (depth + 1) ++ printString name ++ ascii ": " ++ prettyAt (depth + 1) value ++
        prettyMembers depth members
  | null => print null
  | bool value => print (bool value)
  | int value => print (int value)
  | decimal value => print (decimal value)
  | string value => print (string value)

def prettyItems (depth : Nat) : List Json → Bytes
  | [] => lineAt depth ++ [93]
  | item :: items =>
      comma :: lineAt (depth + 1) ++ prettyAt (depth + 1) item ++ prettyItems depth items

def prettyMembers (depth : Nat) : List (Bytes × Json) → Bytes
  | [] => lineAt depth ++ [125]
  | (name, value) :: members =>
      comma :: lineAt (depth + 1) ++ printString name ++ ascii ": " ++ prettyAt (depth + 1) value ++
        prettyMembers depth members

end

def pretty (value : Json) : Bytes :=
  prettyAt 0 value

end Assay.Json
