/-
# Assay.Evaluation.Verdict -- what came of a job

A `Verdict` says whether there was a patch, whether it could be tested and whether
it resolves the job.  `Verdict.ofLog` reads it off the log of the test run.
-/
import Assay.Evaluation.Job
import Assay.Test.Log

namespace Assay.Evaluation

set_option autoImplicit false

open Bytes

/-- What came of a job.  A flag tells something only when the one before it holds. -/
structure Verdict where
  identifier : Bytes
  patchMissing : Bool
  patchExists : Bool
  patchApplied : Bool
  resolved : Bool
  tests : Option TestsReport
  deriving DecidableEq, Repr

namespace Verdict

/-- The verdict on a job without a patch. -/
def withoutPatch (identifier : Bytes) : Verdict :=
  ⟨identifier, true, false, false, false, none⟩

/-- The verdict on a patch that could not be tested. -/
def untested (identifier : Bytes) : Verdict :=
  ⟨identifier, false, true, false, false, none⟩

/-- The verdict on a patch whose tests reported these statuses. -/
def ofStatuses (job : Job) (statuses : Test.Statuses) (withTests : Bool) : Verdict :=
  let tests := gradeTests statuses (reportingOf job.repository) job.expected
  ⟨job.identifier, false, true, true, tests.resolution == .fully,
    if withTests then some tests else none⟩

/-- The verdict that a test log leads to; the log is none when there is no such file. -/
def ofLog (job : Job) (log : Option Bytes) (withTests : Bool) : Verdict :=
  match job.patch with
  | none => withoutPatch job.identifier
  | some _ =>
      match log.bind Test.Log.grade? with
      | none => untested job.identifier
      | some statuses => ofStatuses job statuses withTests

/-! ## The report -/

def bucketJson (bucket : Bucket) : Json :=
  .record [("failure", .ofStrings bucket.failure), ("success", .ofStrings bucket.success)]

def testsJson (tests : TestsReport) : Json :=
  .object [
    (TestList.failToFail.key, bucketJson tests.failToFail),
    (TestList.failToPass.key, bucketJson tests.failToPass),
    (TestList.passToFail.key, bucketJson tests.passToFail),
    (TestList.passToPass.key, bucketJson tests.passToPass)]

/-- The report on a job: one object under the name of the instance, the members in
the order of their names. -/
def toJson (verdict : Verdict) : Json :=
  let flags : List (String × Json) :=
    [("patch_exists", .bool verdict.patchExists),
      ("patch_is_None", .bool verdict.patchMissing),
      ("patch_successfully_applied", .bool verdict.patchApplied),
      ("resolved", .bool verdict.resolved)]
  let tests := match verdict.tests with
    | none => []
    | some tests => [("tests_status", testsJson tests)]
  .object [(verdict.identifier, .record (flags ++ tests))]

end Verdict

/-- The content of the test log at a path, when there is such a file. -/
def testLog? (host : Host) (path : Bytes) : Option Bytes :=
  if host.isRegular path then some (host.text path) else none

end Assay.Evaluation
