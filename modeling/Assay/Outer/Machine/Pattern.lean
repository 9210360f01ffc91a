/-
# Assay.Outer.Machine.Pattern -- patterns of names

In a pattern an unquoted `*` stands for any text, `?` for any byte and brackets for
one byte of a set; all else stands for itself.
-/
import Assay.Bytes.Basic

namespace Assay.Outer.Machine

set_option autoImplicit false

open Bytes

/-- A byte of a pattern, and whether it was quoted. -/
abbrev Mark := UInt8 × Bool

/-- The set between brackets, up to the one that closes it, and what follows that one. -/
def bracketSet : Nat → List Mark → Option (List Mark × List Mark)
  | 0, _ => none
  | _, [] => none
  | steps + 1, mark :: rest =>
      if mark.1 = 93 ∧ !mark.2 then some ([], rest)
      else (bracketSet steps rest).map fun found => (mark :: found.1, found.2)

/-- Whether a byte is in a set of bytes and ranges. -/
def inSet (b : UInt8) : Nat → List Mark → Bool
  | 0, _ => false
  | _, [] => false
  | steps + 1, low :: rest =>
      match rest with
      | dash :: high :: more =>
          if dash.1 = 45 ∧ !dash.2 then (low.1 ≤ b && b ≤ high.1) || inSet b steps more
          else low.1 == b || inSet b steps rest
      | _ => low.1 == b || inSet b steps rest

/-- Whether the whole of a text fits a pattern. -/
def fits : Nat → List Mark → Bytes → Bool
  | 0, _, _ => false
  | _, [], text => text.isEmpty
  | steps + 1, mark :: rest, text =>
      if mark.1 = 42 ∧ !mark.2 then
        fits steps rest text ||
          (match text with
          | [] => false
          | _ :: after => fits steps (mark :: rest) after)
      else
        match text with
        | [] => false
        | b :: after =>
            if mark.1 = 63 ∧ !mark.2 then fits steps rest after
            else if mark.1 = 91 ∧ !mark.2 then
              let negated := rest.head?.any fun next => !next.2 && (next.1 == 33 || next.1 == 94)
              let opening := if negated then rest.tail else rest
              let found : Option (List Mark × List Mark) :=
                match opening with
                | first :: more =>
                    (bracketSet steps more).map fun inside => (first :: inside.1, inside.2)
                | [] => none
              match found with
              | some (members, beyond) =>
                  (inSet b (members.length + 1) members != negated) && fits steps beyond after
              | none => b == 91 && fits steps rest after
            else mark.1 == b && fits steps rest after

def fitsPattern (pattern : List Mark) (text : Bytes) : Bool :=
  fits (pattern.length + text.length + 1) pattern text

/-- Whether a pattern stands for more than itself. -/
def isPattern (marks : List Mark) : Bool :=
  marks.any fun mark => !mark.2 && (mark.1 == 42 || mark.1 == 63 || mark.1 == 91)

def marksText (marks : List Mark) : Bytes :=
  marks.map (·.1)

end Assay.Outer.Machine
