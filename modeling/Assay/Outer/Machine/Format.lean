/-
# Assay.Outer.Machine.Format -- what `echo` and `printf` print

Both put backslash sequences into text.  `printf` reads its format again as long
as arguments are left; a missing argument counts as empty or zero.
-/
import Assay.Outer.Machine.Arithmetic

namespace Assay.Outer.Machine

set_option autoImplicit false

open Bytes

/-- Which flavour of a program is meant: the plain one of the standard shell, or the
one with more options. -/
inductive Flavour where
  | plain
  | extended
  deriving DecidableEq, Repr

def isOctal (b : UInt8) : Bool :=
  48 ≤ b && b ≤ 55

def octalValue (digits : Bytes) : UInt8 :=
  let value : Nat := digits.foldl (fun value digit => value * 8 + (digit.toNat - 48)) 0
  value.toUInt8

/-- The byte that a letter stands for behind a backslash. -/
def letterEscape? (b : UInt8) : Option UInt8 :=
  if b = backslash then some backslash
  else if b = 97 then some 7
  else if b = 98 then some 8
  else if b = 102 then some 12
  else if b = 110 then some 10
  else if b = 114 then some 13
  else if b = 116 then some 9
  else if b = 118 then some 11
  else none

/-- Text with its backslash sequences replaced, and whether it goes on: after `\c`
nothing more is printed.  An octal number has three digits, with a zero in front of
them when `zeroFirst`. -/
def unescape (zeroFirst : Bool) : Nat → Bytes → Bytes × Bool
  | 0, text => (text, true)
  | _, [] => ([], true)
  | steps + 1, b :: rest =>
      let onward (front after : Bytes) : Bytes × Bool :=
        let (text, more) := unescape zeroFirst steps after
        (front ++ text, more)
      if b = backslash then
        match rest with
        | [] => ([backslash], true)
        | c :: more =>
            if c = 99 then ([], false)
            else if isOctal c ∧ (!zeroFirst ∨ c = 48) then
              let digits := if zeroFirst then (more.take 3).takeWhile isOctal
                else ((c :: more).take 3).takeWhile isOctal
              onward [octalValue digits] (if zeroFirst then more.drop digits.length
                else (c :: more).drop digits.length)
            else
              match letterEscape? c with
              | some byte => onward [byte] more
              | none => onward [backslash, c] more
      else onward [b] rest

def isEchoOption (word : Bytes) : Bool :=
  word.head? == some 45 && 1 < word.length && word.tail.all fun b => b == 110 || b == 101 || b == 69

/-- What `echo` prints. -/
def echoText (flavour : Flavour) (arguments : List Bytes) : Bytes :=
  match flavour with
  | .plain =>
      let silent := arguments.head? == some (ascii "-n")
      let words := if silent then arguments.tail else arguments
      let text := join words [space]
      let (shown, more) := unescape true (text.length + 1) text
      if silent || !more then shown else shown ++ [newline]
  | .extended =>
      let options := (arguments.takeWhile isEchoOption).flatten
      let words := arguments.dropWhile isEchoOption
      let text := join words [space]
      let last := (options.filter fun b => b == 101 || b == 69).getLast?
      let (shown, more) := if last == some 101 then unescape true (text.length + 1) text else (text, true)
      if options.elem 110 || !more then shown else shown ++ [newline]

/-! ## Formats -/

/-- A conversion of a format. -/
structure Conversion where
  leftAligned : Bool
  zeroPadded : Bool
  signed : Bool
  width : Nat
  precision : Option Nat
  letter : UInt8

def isFlag (b : UInt8) : Bool :=
  b == 45 || b == 48 || b == 43 || b == 32 || b == 35

/-- Read a conversion behind its percent sign. -/
def readConversion (text : Bytes) : Option (Conversion × Bytes) :=
  let flags := text.takeWhile isFlag
  let rest := text.dropWhile isFlag
  let width := rest.takeWhile isDigit
  let rest := rest.dropWhile isDigit
  let (precision, rest) :=
    if rest.head? = some 46 then
      (some (digitsValue (rest.tail.takeWhile isDigit)), rest.tail.dropWhile isDigit)
    else (none, rest)
  match rest with
  | [] => none
  | letter :: after =>
      some (⟨flags.elem 45, flags.elem 48, flags.elem 43, digitsValue width, precision, letter⟩, after)

def pad (conversion : Conversion) (text : Bytes) : Bytes :=
  let missing := conversion.width - text.length
  if conversion.leftAligned then text ++ List.replicate missing space
  else List.replicate missing space ++ text

/-- The digits of a number in a base. -/
def digitsIn (base : Nat) (value : Nat) : Bytes :=
  (Nat.toDigits base value).map fun c => c.toNat.toUInt8

/-- The number that an argument gives: of a quote, the byte behind it. -/
def numberOf (argument : Bytes) : Int :=
  match argument with
  | quote :: b :: _ =>
      if quote = singleQuote ∨ quote = doubleQuote then b.toNat
      else (leadingInt? argument).elim 0 (·.1)
  | _ => (leadingInt? argument).elim 0 (·.1)

/-- Whether an argument is a number as a whole. -/
def isNumber (argument : Bytes) : Bool :=
  match argument with
  | [] => true
  | b :: _ =>
      b == singleQuote || b == doubleQuote || (leadingInt? argument).any fun found => found.2.isEmpty

def padNumber (conversion : Conversion) (negative : Bool) (digits : Bytes) : Bytes :=
  let digits := match conversion.precision with
    | some least => List.replicate (least - digits.length) 48 ++ digits
    | none => digits
  let sign : Bytes := if negative then [45] else if conversion.signed then [43] else []
  if conversion.zeroPadded && !conversion.leftAligned && conversion.precision.isNone then
    sign ++ List.replicate (conversion.width - digits.length - sign.length) 48 ++ digits
  else pad conversion (sign ++ digits)

/-- What a conversion makes of an argument; none for an unknown letter. -/
def convert (conversion : Conversion) (argument : Bytes) : Option Bytes :=
  let number := numberOf argument
  let letter := conversion.letter
  let cut := fun (text : Bytes) => match conversion.precision with
    | some most => text.take most
    | none => text
  if letter = 115 then some (pad conversion (cut argument))
  else if letter = 98 then
    some (pad conversion (cut (unescape true (argument.length + 1) argument).1))
  else if letter = 99 then some (pad conversion (argument.take 1))
  else if letter = 100 ∨ letter = 105 then
    some (padNumber conversion (number < 0) (ofNat number.natAbs))
  else if letter = 117 then some (padNumber conversion false (ofNat (wordOf number)))
  else if letter = 120 then some (padNumber conversion false (digitsIn 16 (wordOf number)))
  else if letter = 88 then
    some (padNumber conversion false (toUpper (digitsIn 16 (wordOf number))))
  else if letter = 111 then some (padNumber conversion false (digitsIn 8 (wordOf number)))
  else none

/-- What came of reading a format once. -/
structure Printed where
  text : Bytes
  left : List Bytes
  /-- Whether any argument was asked for. -/
  asked : Bool
  good : Bool
  /-- Whether printing goes on. -/
  more : Bool

/-- Read a format once, with the arguments that are left. -/
def printOnce : Nat → Bytes → List Bytes → Printed
  | 0, _, left => ⟨[], left, false, true, true⟩
  | _, [], left => ⟨[], left, false, true, true⟩
  | steps + 1, b :: rest, left =>
      let onward (front after : Bytes) (left : List Bytes) : Printed :=
        let found := printOnce steps after left
        { found with text := front ++ found.text }
      if b = 37 then
        if rest.head? = some 37 then onward [37] rest.tail left
        else
          match readConversion rest with
          | none => ⟨[], left, false, false, false⟩
          | some (conversion, after) =>
              let argument := left.headD []
              match convert conversion argument with
              | none => ⟨[], left, false, false, false⟩
              | some text =>
                  let numeric := !(ascii "sbc").elem conversion.letter
                  let found := printOnce steps after left.tail
                  { found with
                    text := text ++ found.text
                    asked := true
                    good := found.good && (!numeric || isNumber argument) }
      else if b = backslash then
        match rest with
        | [] => onward [backslash] [] left
        | c :: more =>
            if c = 99 then ⟨[], left, false, true, false⟩
            else if isOctal c then
              let digits := ((c :: more).take 3).takeWhile isOctal
              onward [octalValue digits] ((c :: more).drop digits.length) left
            else if c = doubleQuote then onward [doubleQuote] more left
            else
              match letterEscape? c with
              | some byte => onward [byte] more left
              | none => onward [backslash, c] more left
      else onward [b] rest left

/-- Read a format until no argument is left. -/
def printAll (format : Bytes) : Nat → List Bytes → Bytes × Bool
  | 0, _ => ([], true)
  | rounds + 1, arguments =>
      let found := printOnce (format.length + 1) format arguments
      if found.left.isEmpty || !found.asked || !found.more then (found.text, found.good)
      else
        let (text, good) := printAll format rounds found.left
        (found.text ++ text, found.good && good)

/-- What `printf` prints, and its exit status. -/
def printfText (arguments : List Bytes) : Bytes × Nat :=
  let arguments := if arguments.head? == some (ascii "--") then arguments.tail else arguments
  match arguments with
  | [] => ([], 2)
  | format :: rest =>
      let (text, good) := printAll format (rest.length + 1) rest
      (text, if good then 0 else 1)

end Assay.Outer.Machine
