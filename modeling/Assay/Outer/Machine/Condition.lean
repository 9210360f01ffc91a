/-
# Assay.Outer.Machine.Condition -- what `test` decides

A condition is a row of words: tests of one file or text, comparisons of two, `!`,
`-a`, `-o` and brackets.  A word alone holds when it is not empty.
-/
import Assay.Files.Tree
import Assay.Bytes.Decimal

namespace Assay.Outer.Machine

set_option autoImplicit false

open Bytes

/-- What files are looked at, and from where. -/
structure Outlook where
  files : FileTree
  directory : Bytes

/-- A test of one operand; none when there is no such test. -/
def unaryTest (outlook : Outlook) (operator operand : Bytes) : Option Bool :=
  let look := outlook.files.look outlook.directory operand
  if operator = ascii "-n" then some (!operand.isEmpty)
  else if operator = ascii "-z" then some operand.isEmpty
  else if operator = ascii "-e" then some (outlook.files.pathExists outlook.directory operand)
  else if operator = ascii "-f" then some (outlook.files.isRegular outlook.directory operand)
  else if operator = ascii "-d" then some (outlook.files.isDirectory outlook.directory operand)
  else if operator = ascii "-r" ∨ operator = ascii "-w" then
    some (outlook.files.pathExists outlook.directory operand)
  else if operator = ascii "-x" then
    some (outlook.files.isExecutable outlook.directory operand ||
      outlook.files.isDirectory outlook.directory operand)
  else if operator = ascii "-s" then
    some (match look with
      | .ok (.file content _) => !content.isEmpty
      | .ok .nullDevice => false
      | .ok _ => true
      | .error _ => false)
  else if [ascii "-t", ascii "-h", ascii "-L", ascii "-p", ascii "-S", ascii "-b", ascii "-u",
      ascii "-g", ascii "-k"].elem operator then some false
  else if operator = ascii "-c" then some (look.toOption == some Node.nullDevice)
  else none

/-- The number that an operand is as a whole. -/
def wholeNumber? (operand : Bytes) : Option Int :=
  match leadingInt? operand with
  | some (value, rest) => if (trim rest).isEmpty then some value else none
  | none => none

def isNumberTest (operator : Bytes) : Bool :=
  [ascii "-eq", ascii "-ne", ascii "-lt", ascii "-le", ascii "-gt", ascii "-ge"].elem operator

/-- The comparisons of two operands. -/
def isBinaryTest (operator : Bytes) : Bool :=
  [ascii "=", ascii "==", ascii "!=", ascii "<", ascii ">", ascii "-ef"].elem operator ||
    isNumberTest operator

/-- A comparison of two operands; none when they cannot be compared. -/
def binaryTest (outlook : Outlook) (left operator right : Bytes) : Option Bool :=
  if operator = ascii "=" ∨ operator = ascii "==" then some (left == right)
  else if operator = ascii "!=" then some (left != right)
  else if operator = ascii "<" then some (left < right)
  else if operator = ascii ">" then some (right < left)
  else if operator = ascii "-ef" then
    some (match outlook.files.resolve outlook.directory left,
        outlook.files.resolve outlook.directory right with
      | .ok a, .ok b => a == b
      | _, _ => false)
  else do
    let a ← wholeNumber? left
    let b ← wholeNumber? right
    if operator = ascii "-eq" then some (a == b)
    else if operator = ascii "-ne" then some (a != b)
    else if operator = ascii "-lt" then some (a < b)
    else if operator = ascii "-le" then some (a ≤ b)
    else if operator = ascii "-gt" then some (b < a)
    else some (b ≤ a)

mutual

/-- A test, a comparison, a bracketed condition or the opposite of one, and the words
that follow it. -/
def primary (outlook : Outlook) : Nat → List Bytes → Option (Bool × List Bytes)
  | 0, _ => none
  | _, [] => none
  | steps + 1, word :: rest =>
      match rest with
      | operator :: right :: after =>
          if isBinaryTest operator then
            (binaryTest outlook word operator right).map fun found => (found, after)
          else simple outlook steps word rest
      | _ => simple outlook steps word rest

/-- The conditions that do not start with a comparison. -/
def simple (outlook : Outlook) : Nat → Bytes → List Bytes → Option (Bool × List Bytes)
  | 0, _, _ => none
  | steps + 1, word, rest =>
      if word = ascii "!" ∧ !rest.isEmpty then
        (primary outlook steps rest).map fun found => (!found.1, found.2)
      else if word = ascii "(" ∧ !rest.isEmpty then do
        let (found, after) ← alternatives outlook steps rest
        match after with
        | [] => none
        | closing :: more => if closing = ascii ")" then some (found, more) else none
      else
        match rest with
        | operand :: after =>
            match unaryTest outlook word operand with
            | some found => some (found, after)
            | none => some (!word.isEmpty, rest)
        | [] => some (!word.isEmpty, [])

/-- Conditions joined by `-a`. -/
def conjunction (outlook : Outlook) : Nat → List Bytes → Option (Bool × List Bytes)
  | 0, _ => none
  | steps + 1, words => do
      let (found, after) ← primary outlook steps words
      match after with
      | joint :: more =>
          if joint = ascii "-a" then do
            let (other, last) ← conjunction outlook steps more
            some (found && other, last)
          else some (found, after)
      | [] => some (found, [])

/-- Conditions joined by `-o`. -/
def alternatives (outlook : Outlook) : Nat → List Bytes → Option (Bool × List Bytes)
  | 0, _ => none
  | steps + 1, words => do
      let (found, after) ← conjunction outlook steps words
      match after with
      | joint :: more =>
          if joint = ascii "-o" then do
            let (other, last) ← alternatives outlook steps more
            some (found || other, last)
          else some (found, after)
      | [] => some (found, [])

end

/-- The exit status of `test`: zero when the condition holds, one when it does not, two
when it is malformed. -/
def testStatus (outlook : Outlook) (words : List Bytes) : Nat :=
  if words.isEmpty then 1
  else
    match alternatives outlook (4 * words.length + 8) words with
    | some (found, []) => if found then 0 else 1
    | _ => 2

end Assay.Outer.Machine
