/-
# Assay.Json.Number -- numbers as floats
-/
import Assay.Json.Basic

namespace Assay.Json

set_option autoImplicit false

open Bytes

namespace Decimal

/-- The digits before the point, those behind it, and the exponent. -/
def parts (number : Decimal) : Bytes × Bytes × Int :=
  let unsigned := dropMinus number.text
  let whole := unsigned.takeWhile isDigit
  let rest := unsigned.dropWhile isDigit
  let pointed := rest.head? == some 46
  let fraction := if pointed then rest.tail.takeWhile isDigit else []
  let mark := if pointed then rest.tail.dropWhile isDigit else rest
  (whole, fraction, ((leadingInt? mark.tail).map (·.1)).getD 0)

/-- The nearest float. -/
def toFloat (number : Decimal) : Float :=
  let (whole, fraction, exponent) := number.parts
  let shift := exponent - (fraction.length : Int)
  let size := Float.ofScientific (digitsValue (whole ++ fraction)) (shift < 0) shift.natAbs
  if number.text.head? = some 45 then -size else size

end Decimal

/-- The float nearest to a number. -/
def float? : Json → Option Float
  | int value => some (Float.ofInt value)
  | decimal number => some number.toFloat
  | _ => none

end Assay.Json
