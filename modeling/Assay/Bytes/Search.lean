/-
# Assay.Bytes.Search -- occurrences of one byte string in another

`cut?` finds the leftmost occurrence of a needle, `pieces` the stretches around
all leftmost, non-overlapping occurrences, and `replaceAll` joins those
stretches by another text, so that what was put in is never searched again.
-/
import Assay.Bytes.Basic

namespace Assay.Bytes

set_option autoImplicit false

/-- What stands before and after the leftmost occurrence of `needle`. -/
def cut? (needle : Bytes) : Bytes → Option (Bytes × Bytes)
  | [] => if needle.isEmpty then some ([], []) else none
  | b :: rest =>
      if needle.isPrefixOf (b :: rest) then some ([], (b :: rest).drop needle.length)
      else (cut? needle rest).map fun found => (b :: found.1, found.2)

def contains (text needle : Bytes) : Bool :=
  (cut? needle text).isSome

/-- How many bytes stand before the leftmost occurrence of `needle`. -/
def indexOf? (text needle : Bytes) : Option Nat :=
  (cut? needle text).map fun found => found.1.length

/-- The stretches around the leftmost non-overlapping occurrences of `needle`.
The first argument counts the bytes of an occurrence that are still to be
passed over. -/
def piecesFrom (needle : Bytes) : Nat → Bytes → List Bytes
  | _, [] => [[]]
  | skip + 1, _ :: rest => piecesFrom needle skip rest
  | 0, b :: rest =>
      if needle.isPrefixOf (b :: rest) then [] :: piecesFrom needle (needle.length - 1) rest
      else
        match piecesFrom needle 0 rest with
        | [] => [[b]]
        | piece :: more => (b :: piece) :: more

def pieces (needle text : Bytes) : List Bytes :=
  piecesFrom needle 0 text

/-- Put `replacement` in the place of each leftmost non-overlapping occurrence
of `needle`.  An empty needle occurs nowhere. -/
def replaceAll (text needle replacement : Bytes) : Bytes :=
  if needle.isEmpty then text else join (pieces needle text) replacement

end Assay.Bytes
