/-
# Assay.Exec.Readers -- reading two streams at once

A child writes to two streams, and each has a reader of its own.  A reader takes a line,
hands it on and, where that goes wrong, says so before it takes the next one.  The two
go on by turns, a step at a time and in any order; what went wrong first is kept.
-/
import Assay.Bytes.Lines
import Assay.Programs

namespace Assay.Exec

set_option autoImplicit false

open Bytes

/-- Takes a line as it is read; answers what went wrong with it, if anything did. -/
abbrev LineHandler := Bytes → Act (Option Bytes)

/-- A line as it is handed on: with the name of its stream, without the blanks at its end. -/
def taggedLine (stream : Stream) (line : Bytes) : Bytes :=
  (match stream with
    | .output => ascii "[STDOUT] "
    | .errors => ascii "[STDERR] ") ++ trimRight line

/-- What a reader does next. -/
inductive Errand where
  /-- Take the next line, if there is one. -/
  | take
  /-- Hand on the line that was taken. -/
  | handOn (line : Bytes)
  /-- Say what went wrong with it. -/
  | complain (text : Bytes)
  /-- Nothing more: there was no line left. -/
  | rest
  deriving DecidableEq, Repr

/-- A reader of one stream. -/
structure Reader where
  /-- The lines that are still to be taken. -/
  coming : List Bytes
  errand : Errand
  /-- What was read so far, each line ended. -/
  text : Bytes
  deriving DecidableEq, Repr

/-- How many steps a reader has before it at most. -/
def Reader.steps (reader : Reader) : Nat :=
  match reader.errand with
  | .take => 3 * reader.coming.length + 1
  | .handOn _ => 3 * reader.coming.length + 3
  | .complain _ => 3 * reader.coming.length + 2
  | .rest => 0

/-- Two readers that read at once. -/
structure Reading where
  output : Reader
  errors : Reader
  /-- What went wrong first with a line that was handed on; empty for nothing. -/
  fault : Bytes
  deriving DecidableEq, Repr

namespace Reading

def reader (reading : Reading) : Stream → Reader
  | .output => reading.output
  | .errors => reading.errors

def set (reading : Reading) (reader : Reader) : Stream → Reading
  | .output => { reading with output := reader }
  | .errors => { reading with errors := reader }

/-- The next step of the reader of a stream. -/
def step (handler : LineHandler) (reading : Reading) (stream : Stream) : Act Reading :=
  let reader := reading.reader stream
  match reader.errand with
  | .take =>
      match reader.coming with
      | [] => return reading.set { reader with errand := .rest } stream
      | line :: coming =>
          return reading.set ⟨coming, .handOn line, reader.text ++ line ++ [newline]⟩ stream
  | .handOn line => do
      match ← handler (taggedLine stream line) with
      | none => return reading.set { reader with errand := .take } stream
      | some text => return reading.set { reader with errand := .complain text } stream
  | .complain text => do
      let fault := if reading.fault.isEmpty then untilZero text else reading.fault
      return { reading.set { reader with errand := .take } stream with fault }
  | .rest => return reading

/-- Steps of the two readers in this order. -/
def goOn (handler : LineHandler) : Reading → List Stream → Act Reading
  | reading, [] => return reading
  | reading, stream :: rest => do goOn handler (← reading.step handler stream) rest

/-- Two readers before their first steps. -/
def start (run : ChildRun) : Reading :=
  let reader := fun stream => ⟨rawLines (run.on stream), .take, []⟩
  ⟨reader .output, reader .errors, []⟩

/-- The steps in which two readers read all that there is: these first, and then as many
as each has before it. -/
def schedule (reading : Reading) (turns : List Stream) : List Stream :=
  turns ++ List.replicate reading.output.steps .output ++
    List.replicate reading.errors.steps .errors

end Reading

/-- Read what a child wrote, to the end. -/
def readBoth (handler : LineHandler) (run : ChildRun) : Act Reading :=
  let reading := Reading.start run
  reading.goOn handler (reading.schedule run.turns)

end Assay.Exec
