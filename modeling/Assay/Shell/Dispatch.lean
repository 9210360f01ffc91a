/-
# Assay.Shell.Dispatch -- which command lines need a shell

A command line is run directly, as a program with arguments, unless it holds
one of the shell's operators or changes directory; then it goes to the shell.
-/
import Assay.Bytes.Search

namespace Assay.Shell

set_option autoImplicit false

open Bytes

/-- How a command is started. -/
inductive Dispatch where
  | direct
  | shell
  deriving DecidableEq, Repr

def Dispatch.name : Dispatch → Bytes
  | .direct => ascii "direct"
  | .shell => ascii "shell"

/-- The operators that only a shell understands. -/
def operators : List Bytes :=
  [ascii "&&", ascii "||", ascii ";", ascii "|", ascii "$", ascii ">", ascii "<", ascii "\x60"]

/-- A word can begin at the start of the line or after a blank. -/
def beginsWord (before : Option UInt8) : Bool :=
  before.all isBlank

/-- A word can end at the end of the line or before a blank. -/
def endsWord (rest : Bytes) : Bool :=
  rest.head?.all isBlank

/-- Whether `cd` stands as a word of its own in the rest of the line, `before`
being the byte in front of it.  After a `cd` inside a longer word the search goes
on behind it. -/
def changesDirectory : Option UInt8 → Bytes → Bool
  | _, [] => false
  | _, [_] => false
  | before, b :: c :: rest =>
      if b = 99 ∧ c = 100 then
        (beginsWord before && endsWord rest) || changesDirectory (some c) rest
      else changesDirectory (some b) (c :: rest)

/-- How a command line is started. -/
def dispatch (line : Bytes) : Dispatch :=
  if operators.any (contains line) || changesDirectory none line then .shell else .direct

end Assay.Shell
