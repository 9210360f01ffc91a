/-
# Assay.Test.Log -- reading a test log

A line of a test log reports a test when it starts with a status word, as in
`FAILED tests/a.py::b - reason`, or ends with one, as in `tests/a.py::b PASSED`.
The part of a log that counts is what stands between the two markers that the
evaluation script writes around the test output; a log that holds a marker of
failure reports nothing.
-/
import Assay.Test.Status
import Assay.Bytes.Search
import Assay.Bytes.Lines

namespace Assay.Test.Log

set_option autoImplicit false

open Bytes

/-! ## Markers -/

def applyFailed : Bytes := ascii ">>>>> Patch Apply Failed"
def applied : Bytes := ascii ">>>>> Applied Patch"
def resetFailed : Bytes := ascii ">>>>> Reset Failed"
def testsErrored : Bytes := ascii ">>>>> Tests Errored"
def testsTimedOut : Bytes := ascii ">>>>> Tests Timed Out"
def outputStart : Bytes := ascii ">>>>> Start Test Output"
def outputEnd : Bytes := ascii ">>>>> End Test Output"

/-- The markers of a log that reports nothing. -/
def failureMarkers : List Bytes :=
  [applyFailed, resetFailed, testsErrored, testsTimedOut]

def hasFailureMarker (log : Bytes) : Bool :=
  failureMarkers.any (contains log)

/-- The text from the first start marker to the first end marker, when they come in
this order, else the whole log. -/
def testOutput (log : Bytes) : Bytes :=
  match indexOf? log outputStart, indexOf? log outputEnd with
  | some first, some last =>
      if last < first then log
      else
        let opening := first + outputStart.length
        (log.drop opening).take (last - opening)
  | _, _ => log

/-! ## Lines -/

def startsWithStatus (line : Bytes) : Bool :=
  Status.all.any fun status => startsWith line status.word

def endsWithStatus (line : Bytes) : Bool :=
  Status.all.any fun status => endsWith line status.word

/-- A test with its status, when the word for it is one. -/
def reportOf (test word : Bytes) : Option (Bytes × Status) :=
  (Status.ofWord? word).map fun status => (test, status)

/-- What a line reports.  A status word in front decides how the line is read, also
when it is only the beginning of a longer word and the line then reports nothing. -/
def lineReport? (line : Bytes) : Option (Bytes × Status) :=
  let line := trim line
  match fields line with
  | first :: second :: more =>
      if startsWithStatus line then reportOf second first
      else if endsWithStatus line then reportOf first ((second :: more).getLastD second)
      else none
  | _ => none

/-- The statuses after one more line; the last report of a test counts. -/
def addLine (statuses : Statuses) (line : Bytes) : Statuses :=
  match lineReport? line with
  | some (test, status) => statuses.insert test status
  | none => statuses

/-- The statuses that the lines of a text report. -/
def statuses (text : Bytes) : Statuses :=
  (lines text).foldl addLine ∅

/-- The statuses that a whole log reports; none at all counts as no report. -/
def grade? (log : Bytes) : Option Statuses :=
  if hasFailureMarker log then none
  else
    let found := statuses (testOutput log)
    if found.isEmpty then none else some found

end Assay.Test.Log
