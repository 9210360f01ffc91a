/-
# Assay.Bytes.Decimal -- numbers as decimal text

Whole numbers are written with no leading zero and a minus sign below zero.
`leadingInt?` reads the number at the start of a text and ignores what follows
it; `leadingInt32?` is that reading kept to 32 bits.  `fixedPoint` writes a
floating point number with a given count of decimal places, rounding its exact
value to the nearest such number and a tie to the even one.
-/
import Assay.Bytes.Basic

namespace Assay

set_option autoImplicit false

namespace Bytes

/-! ## Whole numbers -/

/-- The decimal digits of a natural number. -/
def ofNat (n : Nat) : Bytes :=
  (Nat.toDigits 10 n).map fun c => c.toNat.toUInt8

def ofInt : Int → Bytes
  | .ofNat n => ofNat n
  | .negSucc n => 45 :: ofNat (n + 1)

/-- The value of a run of decimal digits. -/
def digitsValue (digits : Bytes) : Nat :=
  digits.foldl (fun value digit => value * 10 + (digit.toNat - 48)) 0

/-- The number that `text` starts with, after any blanks, with an optional sign,
and what follows it.  `none` when there is no digit. -/
def leadingInt? (text : Bytes) : Option (Int × Bytes) :=
  let start := trimLeft text
  let unsigned := if start.head? = some 45 ∨ start.head? = some 43 then start.tail else start
  let digits := unsigned.takeWhile isDigit
  if digits.isEmpty then none
  else
    let value : Int := digitsValue digits
    some (if start.head? = some 45 then -value else value, unsigned.dropWhile isDigit)

def fitsInt32 (value : Int) : Bool :=
  -2147483648 ≤ value && value ≤ 2147483647

/-- The number that `text` starts with and what follows it, when the number fits
in 32 bits. -/
def leadingInt32? (text : Bytes) : Option (Int × Bytes) :=
  (leadingInt? text).filter fun found => fitsInt32 found.1

/-- Digits with zeros in front, up to a width. -/
def padLeft (width : Nat) (digits : Bytes) : Bytes :=
  List.replicate (width - digits.length) 48 ++ digits

end Bytes

/-! ## Floating point numbers -/

/-- What a 64-bit floating point number stands for: `mantissa * 2 ^ exponent`,
below zero when `negative`, or none of the numbers. -/
inductive BinaryValue where
  | finite (negative : Bool) (mantissa : Nat) (exponent : Int)
  | infinite (negative : Bool)
  | undefinedValue (negative : Bool)

namespace BinaryValue

/-- How many fractions of 52 bits there are. -/
def fractionCount : Nat := 4503599627370496

/-- Decode the 64-bit format: one sign bit, eleven exponent bits, 52 fraction bits. -/
def ofBits (bits : UInt64) : BinaryValue :=
  let raw := bits.toNat
  let negative := decide (9223372036854775808 ≤ raw)
  let biased : Nat := raw / fractionCount % 2048
  let fraction : Nat := raw % fractionCount
  if biased = 2047 then
    if fraction = 0 then .infinite negative else .undefinedValue negative
  else if biased = 0 then .finite negative fraction (-1074)
  else .finite negative (fractionCount + fraction) (Int.ofNat biased - 1075)

/-- The whole number nearest to `numerator / denominator`, the even one on a tie. -/
def roundHalfEven (numerator denominator : Nat) : Nat :=
  let quotient := numerator / denominator
  let remainder := numerator % denominator
  if 2 * remainder < denominator then quotient
  else if denominator < 2 * remainder then quotient + 1
  else if quotient % 2 = 0 then quotient
  else quotient + 1

/-- `scaled / 10 ^ places`, written with `places` decimal places. -/
def pointText (places scaled : Nat) : Bytes :=
  let whole := Bytes.ofNat (scaled / Nat.pow 10 places)
  if places = 0 then whole
  else whole ++ 46 :: Bytes.padLeft places (Bytes.ofNat (scaled % Nat.pow 10 places))

def signText (negative : Bool) (text : Bytes) : Bytes :=
  if negative then 45 :: text else text

def fixedText (places : Nat) : BinaryValue → Bytes
  | .infinite negative => signText negative (Bytes.ascii "inf")
  | .undefinedValue negative => signText negative (Bytes.ascii "nan")
  | .finite negative mantissa exponent =>
      signText negative <| pointText places <|
        roundHalfEven (mantissa * Nat.pow 2 exponent.toNat * Nat.pow 10 places)
          (Nat.pow 2 (-exponent).toNat)

end BinaryValue

/-- A floating point number with `places` decimal places. -/
def fixedPoint (places : Nat) (x : Float) : Bytes :=
  (BinaryValue.ofBits x.toBits).fixedText places

end Assay
