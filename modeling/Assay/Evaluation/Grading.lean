/-
# Assay.Evaluation.Grading -- expected against reported tests

A job lists the tests that should go from failing to passing, those that should
stay passing, and two lists that are only reported.  Grading sorts each list into
successes and failures, and the resolution is read off the first two.
-/
import Assay.Test.Status
import Assay.Bytes.Decimal

namespace Assay.Evaluation

set_option autoImplicit false

open Bytes Test

/-- The tests that a job is about, by what should become of them. -/
structure Expectations where
  failToPass : List Bytes
  passToPass : List Bytes
  failToFail : List Bytes
  passToFail : List Bytes
  deriving DecidableEq, Repr

instance : EmptyCollection Expectations :=
  ⟨⟨[], [], [], []⟩⟩

/-- What the log of a repository can be trusted to report. -/
inductive Reporting where
  /-- Passing and failing tests. -/
  | passAndFail
  /-- Only failing tests: a test that should stay passing is fine unless it fails. -/
  | failOnly
  deriving DecidableEq, Repr

/-- The repositories whose logs only report failing tests, in order. -/
def failOnlyRepositories : List Bytes :=
  [ascii "chartjs/Chart.js", ascii "markedjs/marked", ascii "processing/p5.js"]

def reportingOf (repository : Bytes) : Reporting :=
  if failOnlyRepositories.elem repository then .failOnly else .passAndFail

/-- A list of expected tests, sorted by how they went. -/
structure Bucket where
  success : List Bytes
  failure : List Bytes
  deriving DecidableEq, Repr

structure TestsReport where
  failToPass : Bucket
  passToPass : Bucket
  failToFail : Bucket
  passToFail : Bucket
  deriving DecidableEq, Repr

/-- Sort tests by a rule; each part keeps the order of the list. -/
def Bucket.sort (succeeds : Bytes → Bool) (tests : List Bytes) : Bucket :=
  ⟨tests.filter succeeds, tests.filter fun test => !succeeds test⟩

/-- Whether a test that should stay passing did. -/
def staysPassing (reporting : Reporting) (statuses : Statuses) (test : Bytes) : Bool :=
  match reporting with
  | .passAndFail => hasPassed statuses test
  | .failOnly => !hasFailed statuses test

def gradeTests (statuses : Statuses) (reporting : Reporting) (expected : Expectations) :
    TestsReport where
  failToPass := .sort (hasPassed statuses) expected.failToPass
  passToPass := .sort (staysPassing reporting statuses) expected.passToPass
  failToFail := .sort (hasPassed statuses) expected.failToFail
  passToFail := .sort (hasPassed statuses) expected.passToFail

/-! ## Resolution -/

/-- A fraction of tests, at most one. -/
structure Rate where
  passed : Nat
  total : Nat
  deriving DecidableEq, Repr

namespace Rate

def isWhole (rate : Rate) : Bool :=
  rate.passed == rate.total

def isPositive (rate : Rate) : Bool :=
  rate.passed != 0

def isPartial (rate : Rate) : Bool :=
  rate.isPositive && !rate.isWhole

/-- The rate as a number with six decimal places. -/
def text (rate : Rate) : Bytes :=
  fixedPoint 6 (Float.ofNat rate.passed / Float.ofNat rate.total)

end Rate

/-- The part of the tests that succeeded; of no tests, all did. -/
def Bucket.rate (bucket : Bucket) : Rate :=
  let total := bucket.success.length + bucket.failure.length
  if total = 0 then ⟨1, 1⟩ else ⟨bucket.success.length, total⟩

/-- How far a job is resolved. -/
inductive Resolution where
  | no
  | partially
  | fully
  deriving DecidableEq, Repr

def Resolution.name : Resolution → Bytes
  | .no => ascii "RESOLVED_NO"
  | .partially => ascii "RESOLVED_PARTIAL"
  | .fully => ascii "RESOLVED_FULL"

/-- Nothing may break; all, some or none of the rest may have been mended. -/
def TestsReport.resolution (report : TestsReport) : Resolution :=
  let mended := report.failToPass.rate
  let kept := report.passToPass.rate
  if mended.isWhole && kept.isWhole then .fully
  else if mended.isPartial && kept.isWhole then .partially
  else .no

end Assay.Evaluation
