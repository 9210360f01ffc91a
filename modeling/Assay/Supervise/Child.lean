/-
# Assay.Supervise.Child -- the children that are supervised

A `Child` is anything that can be polled, waited for, terminated and killed.  Its
answers may depend on all that it was asked before and when, and a call may fail.
-/
import Assay.Bytes.Lines
import Assay.Environment
import Assay.Programs

namespace Assay.Supervise

set_option autoImplicit false

open Bytes

/-- What can be asked of a child. -/
inductive Call where
  /-- For its exit code, once it has exited. -/
  | poll
  /-- The same, waiting for it at most so many milliseconds. -/
  | await (limit : Nat)
  /-- To end. -/
  | terminate
  /-- To end, without being heard. -/
  | kill
  deriving DecidableEq, Repr

/-- A call at a time, in milliseconds. -/
structure Asked where
  time : Nat
  call : Call
  deriving DecidableEq, Repr

/-- What comes over a stream, and what goes wrong after it, if anything does. -/
structure Feed where
  text : Bytes
  failure : Option Bytes
  deriving DecidableEq, Repr

/-- The lines that can be read.  The last one need not be ended, unless reading fails there. -/
def Feed.lines (feed : Feed) : List Bytes :=
  match feed.failure with
  | none => rawLines feed.text
  | some _ => rawLines (feed.text.reverse.dropWhile (· != newline)).reverse

/-- Something that is supervised. -/
structure Child where
  pid : Int
  /-- Its output, when it can be read. -/
  output : Option Feed
  errors : Option Feed
  /-- What it answers to the first of these calls after all the others, the latest one
  being in front: its exit code once it is known, or what went wrong. -/
  reply : List Asked → Except Bytes (Option Int)

/-- What comes over one of the streams. -/
def Child.feed? (child : Child) : Stream → Option Feed
  | .output => child.output
  | .errors => child.errors

/-- Launches a child at a time, in milliseconds, by its command and the variables laid
over those of the host; answers why it could not. -/
abbrev Launcher := Nat → List Bytes → Environment → Act (Except Bytes Child)

/-- Acts on a state that may fail. -/
abbrev Supervised (σ : Type) := ExceptT Bytes (StateT σ Act)

end Assay.Supervise
