/-
# Assay.Programs -- what launched programs do

A launched program runs beside the caller: it writes to its two output streams,
changes files, and ends or is still there when the caller stops waiting for it.
`Programs` is any such behaviour; it may depend on all that was launched before.

A wait that the host itself refuses is no `Ending`: nobody else waits for a child of the
caller, so that there is a status to be had once the child has ended.
-/
import Assay.Host

namespace Assay

set_option autoImplicit false

open Bytes

/-- The two streams that a program writes to. -/
inductive Stream where
  | output
  | errors
  deriving DecidableEq, Repr

/-- How a program ended. -/
inductive Ending where
  /-- With a status as the host reports it for an ended child. -/
  | reaped (status : Int)
  /-- Not before the caller stopped waiting. -/
  | outlived
  deriving DecidableEq, Repr

/-- What a program did while it was waited for. -/
structure ChildRun where
  /-- What it wrote, in order. -/
  written : List (Stream × Bytes)
  /-- Whose turn it is, step by step, where each stream has a reader of its own.  When no
  turns are left the reader of the output goes on first. -/
  turns : List Stream
  ending : Ending
  /-- How long it was waited for, in seconds. -/
  seconds : Float

namespace ChildRun

/-- What it wrote to both streams, in order. -/
def merged (run : ChildRun) : Bytes :=
  run.written.flatMap (·.2)

/-- What it wrote to one stream. -/
def on (run : ChildRun) (stream : Stream) : Bytes :=
  (run.written.filter fun piece => piece.1 == stream).flatMap (·.2)

end ChildRun

/-- What a launched program does in a host when it is waited for at most so many
seconds, or until it ends when no limit is given: the reason why it could not be
launched, or its run; and the files after it. -/
abbrev Programs := Host → Launch → Option Int → Except Bytes ChildRun × FileTree

/-- The part of a status that says which signal ended the child. -/
def endingSignal (status : Nat) : Nat :=
  status % 128

/-- The exit code of a status: its own for a child that exited, 128 and the signal for
one that was killed, and any other status as it is. -/
def exitCode (status : Int) : Int :=
  let bits := (status % 4294967296).toNat
  let signal := endingSignal bits
  if signal = 0 then (bits / 256 % 256 : Nat)
  else if signal = 127 then status
  else 128 + (signal : Int)

/-- Launch a program and wait for it, at most so many seconds if a limit is given. -/
def launch (programs : Programs) (request : Launch) (limit : Option Int) :
    Act (Except Bytes ChildRun) :=
  modifyGet fun host =>
    let (run, files) := programs host request limit
    (run, { host with files := files, launches := request :: host.launches })

end Assay
