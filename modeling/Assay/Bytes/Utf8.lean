/-
# Assay.Bytes.Utf8 -- code points as bytes

`encodePoint` writes one code point as one to four bytes, and `isUtf8` tells
whether a byte string is made of such groups: no overlong form, no surrogate and
nothing above the last code point.
-/
import Assay.Bytes.Basic

namespace Assay.Bytes

set_option autoImplicit false

/-- A byte that goes on with a group of several bytes. -/
def continuation (bits : Nat) : UInt8 :=
  (128 + bits % 64).toUInt8

/-- The bytes of a code point. -/
def encodePoint (point : Nat) : Bytes :=
  if point < 0x80 then [point.toUInt8]
  else if point < 0x800 then [(0xC0 + point / 64).toUInt8, continuation point]
  else if point < 0x10000 then
    [(0xE0 + point / 4096).toUInt8, continuation (point / 64), continuation point]
  else
    [(0xF0 + point / 262144).toUInt8, continuation (point / 4096), continuation (point / 64),
      continuation point]

def isContinuation (b : UInt8) : Bool :=
  0x80 ≤ b && b ≤ 0xBF

/-- What the second byte of a group must be, by its first byte, and how many more
bytes follow that one. -/
def groupShape (lead : UInt8) : Option (UInt8 × UInt8 × Nat) :=
  if 0xC2 ≤ lead && lead ≤ 0xDF then some (0x80, 0xBF, 0)
  else if lead == 0xE0 then some (0xA0, 0xBF, 1)
  else if lead == 0xED then some (0x80, 0x9F, 1)
  else if 0xE1 ≤ lead && lead ≤ 0xEF then some (0x80, 0xBF, 1)
  else if lead == 0xF0 then some (0x90, 0xBF, 2)
  else if 0xF1 ≤ lead && lead ≤ 0xF3 then some (0x80, 0xBF, 2)
  else if lead == 0xF4 then some (0x80, 0x8F, 2)
  else none

/-- Whether the rest of a text is well formed, when it still owes `owed` plain
continuation bytes, or first one between two bounds. -/
def isUtf8From : Option (UInt8 × UInt8) → Nat → Bytes → Bool
  | bounds, owed, [] => bounds.isNone && owed == 0
  | some (least, greatest), owed, b :: rest =>
      least ≤ b && b ≤ greatest && isUtf8From none owed rest
  | none, owed + 1, b :: rest => isContinuation b && isUtf8From none owed rest
  | none, 0, b :: rest =>
      if b < 0x80 then isUtf8From none 0 rest
      else
        match groupShape b with
        | none => false
        | some (least, greatest, more) => isUtf8From (some (least, greatest)) more rest

def isUtf8 (text : Bytes) : Bool :=
  isUtf8From none 0 text

end Assay.Bytes
