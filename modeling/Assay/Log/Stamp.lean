/-
# Assay.Log.Stamp -- the time of day, as log records show it
-/
import Assay.Bytes.Decimal

namespace Assay.Log

set_option autoImplicit false

open Bytes

/-- A day of the calendar. -/
structure Day where
  year : Nat
  month : Nat
  day : Nat
  deriving DecidableEq, Repr

/-- The day so many days after the first of January 1970.  Years are counted from the
first of March, so that the day that leap years add is the last one of its year, and
eras have 400 years, after which the calendar repeats itself. -/
def Day.ofCount (count : Nat) : Day :=
  let shifted := count + 719468
  let era := shifted / 146097
  let dayOfEra := shifted % 146097
  let yearOfEra :=
    (dayOfEra - dayOfEra / 1460 + dayOfEra / 36524 - dayOfEra / 146096) / 365
  let dayOfYear := dayOfEra - (365 * yearOfEra + yearOfEra / 4 - yearOfEra / 100)
  let monthOfYear := (5 * dayOfYear + 2) / 153
  let month := if monthOfYear < 10 then monthOfYear + 3 else monthOfYear - 9
  { year := yearOfEra + era * 400 + if month ≤ 2 then 1 else 0
    month
    day := dayOfYear - (153 * monthOfYear + 2) / 5 + 1 }

def twoDigits (n : Nat) : Bytes :=
  padLeft 2 (ofNat n)

/-- The date and the time, so many seconds after the beginning of the year 1970. -/
def stamp (seconds : Nat) : Bytes :=
  let day := Day.ofCount (seconds / 86400)
  let second := seconds % 86400
  padLeft 4 (ofNat day.year) ++ ascii "-" ++ twoDigits day.month ++ ascii "-" ++ twoDigits day.day ++
    [space] ++ twoDigits (second / 3600) ++ [colon] ++ twoDigits (second / 60 % 60) ++ [colon] ++
    twoDigits (second % 60)

end Assay.Log
