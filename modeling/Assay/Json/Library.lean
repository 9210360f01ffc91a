/-
# Assay.Json.Library -- what reads and writes JSON

JSON is read and written by a library that is not part of this one.  A `Library` is any
behaviour of it: which texts it takes for which values, and which texts it gives for a value
or why it gives none.  What a theorem relies on beyond that is said by `Library.Lawful`: what
was written is read back as it was, and what cannot be written is a value with a string in it
that is not UTF-8.

A library need not have every value.  It may know one text only of each number, or keep the
members of an object in an order of its own; the values that it has are given along with its
laws.
-/
import Assay.Bytes.Utf8
import Assay.Json.Basic

namespace Assay.Json

set_option autoImplicit false

open Bytes

/-! ## Values with strings in UTF-8 -/

mutual

/-- Whether the strings in a value and the names of its members are UTF-8. -/
def isText : Json → Bool
  | null | bool _ | int _ | decimal _ => true
  | string value => isUtf8 value
  | array items => areText items
  | object members => membersAreText members

def areText : List Json → Bool
  | [] => true
  | item :: items => item.isText && areText items

def membersAreText : List (Bytes × Json) → Bool
  | [] => true
  | (name, value) :: members => isUtf8 name && value.isText && membersAreText members

end

theorem membersAreText_iff {members : List (Bytes × Json)} :
    membersAreText members = true ↔
      ∀ member ∈ members, isUtf8 member.1 = true ∧ member.2.isText = true := by
  induction members with
  | nil => simp [membersAreText]
  | cons member rest ih =>
      obtain ⟨name, value⟩ := member
      simp [membersAreText, ih]

/-! ## Libraries -/

/-- What reads and writes JSON. -/
structure Library where
  /-- The value that a text is, if it is the text of one. -/
  parse : Bytes → Option Json
  /-- The value that a text begins with, if it begins with one. -/
  parseFront : Bytes → Option Json
  /-- A value as a text on one line, or why it cannot be written. -/
  dump : Json → Except Bytes Bytes
  /-- The same over several lines. -/
  dumpIndented : Json → Except Bytes Bytes

/-- What is relied on of a library that has these values. -/
structure Library.Lawful (library : Library) (has : Json → Prop) : Prop where
  /-- What was read is a value that the library has, and its strings are UTF-8. -/
  parsed : ∀ text value, library.parse text = some value → has value ∧ value.isText = true
  /-- What stands in a value is one, too. -/
  member : ∀ members name value, has (object members) → (name, value) ∈ members → has value
  /-- A member can be set to a string. -/
  setMember : ∀ members name text, has (object members) →
    has (object (setMember name (string text) members))
  /-- A value is written just where all its strings are UTF-8. -/
  dumped : ∀ value, has value → ((∃ text, library.dump value = .ok text) ↔ value.isText = true)
  /-- What was written is read back. -/
  parse_dump : ∀ value text, has value → library.dump value = .ok text →
    library.parse text = some value

end Assay.Json
