/-
# Assay.Outer.Machine.Arithmetic -- whole-number expressions of a script

Expressions have the usual operators in the usual order, over 64-bit numbers.  A
name stands for the number in the variable of that name.
-/
import Assay.Bytes.Decimal
import Assay.Outer.Machine.Word

namespace Assay.Outer.Machine

set_option autoImplicit false

open Bytes

/-- How many words of 64 bits there are. -/
def wordCount : Nat := 18446744073709551616

/-- The word that stands for a number. -/
def wordOf (value : Int) : Nat :=
  (value % wordCount).toNat

/-- Keep a number to 64 bits, as the machine's words wrap. -/
def wrapWord (value : Int) : Int :=
  Int.bmod value wordCount

def truth (value : Bool) : Int :=
  if value then 1 else 0

/-- A bitwise operation on the words of two numbers. -/
def onWords (operation : Nat → Nat → Nat) (a b : Int) : Int :=
  wrapWord (operation (wordOf a) (wordOf b))

/-- The operators between two operands, longer ones first, each with its rank. -/
def binaryOperators : List (Bytes × Nat) :=
  [(ascii "||", 1), (ascii "&&", 2), (ascii "==", 6), (ascii "!=", 6), (ascii "<=", 7),
    (ascii ">=", 7), (ascii "<<", 8), (ascii ">>", 8), (ascii "|", 3), (ascii "^", 4),
    (ascii "&", 5), (ascii "<", 7), (ascii ">", 7), (ascii "+", 9), (ascii "-", 9),
    (ascii "*", 10), (ascii "/", 10), (ascii "%", 10)]

/-- The value of an operator; none for a division by zero. -/
def applyOperator (operator : Bytes) (a b : Int) : Option Int :=
  if operator = ascii "||" then some (truth (a != 0 || b != 0))
  else if operator = ascii "&&" then some (truth (a != 0 && b != 0))
  else if operator = ascii "==" then some (truth (a == b))
  else if operator = ascii "!=" then some (truth (a != b))
  else if operator = ascii "<=" then some (truth (a ≤ b))
  else if operator = ascii ">=" then some (truth (b ≤ a))
  else if operator = ascii "<" then some (truth (a < b))
  else if operator = ascii ">" then some (truth (b < a))
  else if operator = ascii "<<" then some (wrapWord (a * (Nat.pow 2 (b % 64).toNat : Nat)))
  else if operator = ascii ">>" then some (a / (Nat.pow 2 (b % 64).toNat : Nat))
  else if operator = ascii "|" then
    some (onWords (· ||| ·) a b)
  else if operator = ascii "^" then
    some (onWords (· ^^^ ·) a b)
  else if operator = ascii "&" then
    some (onWords (· &&& ·) a b)
  else if operator = ascii "+" then some (wrapWord (a + b))
  else if operator = ascii "-" then some (wrapWord (a - b))
  else if operator = ascii "*" then some (wrapWord (a * b))
  else if b = 0 then none
  else if operator = ascii "/" then some (wrapWord (Int.tdiv a b))
  else some (Int.tmod a b)

/-- The value of digits in a base; none when one is no digit of it. -/
def digitsIn? (base : Nat) (digits : Bytes) : Option Nat :=
  digits.foldl
    (fun value digit =>
      let worth :=
        if isDigit digit then digit.toNat - 48
        else if isLetter digit then (lowerByte digit).toNat - 87
        else 99
      value.bind fun value => if worth < base then some (value * base + worth) else none)
    (some 0)

/-- The value of a numeral: decimal, octal after a zero, hexadecimal after `0x`. -/
def numeral? (text : Bytes) : Option Int :=
  let value :=
    if startsWith text (ascii "0x") || startsWith text (ascii "0X") then digitsIn? 16 (text.drop 2)
    else if text.head? = some 48 then digitsIn? 8 text
    else digitsIn? 10 text
  value.map fun value => wrapWord value

mutual

/-- The value of an operand, and what follows it. -/
def operand (value : Bytes → Int) : Nat → Bytes → Option (Int × Bytes)
  | 0, _ => none
  | steps + 1, text =>
      match text.dropWhile isBlank with
      | [] => none
      | b :: rest =>
          if b = 40 then do
            let (found, after) ← expression value steps 0 rest
            match after.dropWhile isBlank with
            | [] => none
            | c :: more => if c = 41 then some (found, more) else none
          else if b = 45 then
            (operand value steps rest).map fun found => (wrapWord (-found.1), found.2)
          else if b = 43 then operand value steps rest
          else if b = 33 then
            (operand value steps rest).map fun found => (truth (found.1 == 0), found.2)
          else if b = 126 then
            (operand value steps rest).map fun found => (-found.1 - 1, found.2)
          else if isDigit b then
            (numeral? ((b :: rest).takeWhile isAlphanumeric)).map fun found =>
              (found, (b :: rest).dropWhile isAlphanumeric)
          else if isNameStart b then
            some (value ((b :: rest).takeWhile isNameByte), (b :: rest).dropWhile isNameByte)
          else none

/-- The value of the operators of at least a rank, and what follows them. -/
def expression (value : Bytes → Int) : Nat → Nat → Bytes → Option (Int × Bytes)
  | 0, _, _ => none
  | steps + 1, rank, text => do
      let (found, after) ← operand value steps text
      operators value steps rank found after

/-- Go on with operators behind a value. -/
def operators (value : Bytes → Int) : Nat → Nat → Int → Bytes → Option (Int × Bytes)
  | 0, _, _, _ => none
  | steps + 1, rank, left, text =>
      let text := text.dropWhile isBlank
      match binaryOperators.find? fun operator => startsWith text operator.1 with
      | none => some (left, text)
      | some (operator, strength) =>
          if strength < rank then some (left, text)
          else do
            let (right, after) ← expression value steps (strength + 1) (text.drop operator.length)
            let found ← applyOperator operator left right
            operators value steps rank found after

end

/-- What an expression comes to: its value, and a variable that it sets. -/
structure Computed where
  value : Int
  assigned : Option Bytes

/-- The operators that may stand in front of the equals sign of an assignment. -/
def assigningOperators : List Bytes :=
  [[], ascii "+", ascii "-", ascii "*", ascii "/", ascii "%"]

/-- Compute an expression, `lookup` giving the texts of variables. -/
def compute? (lookup : Bytes → Bytes) (text : Bytes) : Option Computed := do
  let value := fun name => (numeral? (trim (lookup name))).getD
    ((leadingInt? (lookup name)).elim 0 (·.1))
  let text := trim text
  if text.isEmpty then some ⟨0, none⟩
  else
    let steps := 4 * text.length + 8
    let name := text.takeWhile isNameByte
    let behind := (text.drop name.length).dropWhile isBlank
    let assigning := assigningOperators.find? fun operator =>
      isNameStart (name.headD 0) && startsWith behind (operator ++ [equals]) &&
        (behind.drop (operator.length + 1)).head? != some equals
    match assigning with
    | some operator => do
        let (right, after) ← expression value steps 0 (behind.drop (operator.length + 1))
        if !(trim after).isEmpty then none
        else if operator.isEmpty then some ⟨right, some name⟩
        else some ⟨← applyOperator operator (value name) right, some name⟩
    | none => do
        let (found, after) ← expression value steps 0 text
        if (trim after).isEmpty then some ⟨found, none⟩ else none

end Assay.Outer.Machine
