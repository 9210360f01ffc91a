/-
# Assay.Bytes.Lines -- lines of a text

A line ends at a newline; what follows the last newline is a line when it is
not empty.  `lines` also takes one carriage return off the end of each line, so
that both line ends in use are read alike.
-/
import Assay.Bytes.Basic

namespace Assay.Bytes

set_option autoImplicit false

/-- The lines of a text, carriage returns kept. -/
def rawLines : Bytes → List Bytes
  | [] => []
  | b :: rest =>
      if b = newline then [] :: rawLines rest
      else
        match rawLines rest with
        | [] => [[b]]
        | line :: more => (b :: line) :: more

/-- A line without the one carriage return that may end it. -/
def dropReturn (line : Bytes) : Bytes :=
  if line.getLast? = some carriageReturn then line.dropLast else line

def lines (text : Bytes) : List Bytes :=
  (rawLines text).map dropReturn

/-- The first line of a text, empty for an empty text. -/
def firstLine (text : Bytes) : Bytes :=
  (rawLines text).headD []

end Assay.Bytes
