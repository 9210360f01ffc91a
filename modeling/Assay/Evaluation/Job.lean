/-
# Assay.Evaluation.Job -- what to evaluate, and how it is described

A `Job` names an instance of a repository, the patch to try on it, the script that
runs its tests and what the tests should then report.  It is described by a JSON
object; a list of tests in it may also be a string that holds the JSON of a list.
-/
import Assay.Evaluation.Grading
import Assay.Json.Library
import Assay.Host

namespace Assay.Evaluation

set_option autoImplicit false

open Bytes

/-- What to evaluate. -/
structure Job where
  identifier : Bytes
  repository : Bytes
  version : Bytes
  /-- The patch to try; none when the candidate has none. -/
  patch : Option Bytes
  /-- The text of the script, or the path of a script that is already there. -/
  script : Bytes
  testCommand : Bytes
  /-- Where to write the script; empty for the usual place. -/
  scriptPath : Bytes
  /-- The directory of the code under test. -/
  codeSpace : Bytes
  expected : Expectations
  deriving DecidableEq, Repr

/-- Where the code under test usually is. -/
def usualCodeSpace : Bytes := ascii "/testbed"

/-! ## Descriptors -/

/-- The four lists of a descriptor. -/
inductive TestList where
  | failToPass
  | passToPass
  | failToFail
  | passToFail
  deriving DecidableEq, Repr

def TestList.key : TestList → Bytes
  | .failToPass => ascii "FAIL_TO_PASS"
  | .passToPass => ascii "PASS_TO_PASS"
  | .failToFail => ascii "FAIL_TO_FAIL"
  | .passToFail => ascii "PASS_TO_FAIL"

/-- What is wrong with a descriptor. -/
inductive DescriptorError where
  | notObject
  | identifierMissing
  /-- A string that should hold the JSON of a list does not hold JSON. -/
  | listNotJson (list : TestList)
  /-- A list of tests is something else. -/
  | listNotTests (list : TestList)
  deriving DecidableEq, Repr

def DescriptorError.message : DescriptorError → Bytes
  | .notObject => ascii "job descriptor must be a JSON object"
  | .identifierMissing => ascii "job descriptor is missing instance_id"
  | .listNotJson list => list.key ++ ascii " is not valid JSON"
  | .listNotTests list => list.key ++ ascii " must be a list of test names"

/-- Why an evaluation cannot go on. -/
inductive EvaluationError where
  | descriptor (cause : DescriptorError)
  | descriptorMissing (path : Bytes)
  | descriptorNotJson (path : Bytes)
  | patchNotWritten (path : Bytes)
  | patchNotApplied
  deriving DecidableEq, Repr

def EvaluationError.message (fault : EvaluationError) : Bytes :=
  untilZero <| match fault with
    | .descriptor cause => cause.message
    | .descriptorMissing path => ascii "job descriptor not found: " ++ path
    | .descriptorNotJson path => ascii "job descriptor is not valid JSON: " ++ path
    | .patchNotWritten path => ascii "Failed to write patch file " ++ path
    | .patchNotApplied => ascii "Failed to apply patch to container, try again."

/-- A member that is a string, else the empty text. -/
def optionalText (descriptor : Json) (key : Bytes) : Bytes :=
  ((descriptor.get? key).bind Json.string?).getD []

/-- The tests that a value lists. -/
def testsOf (list : TestList) (value : Json) : Except DescriptorError (List Bytes) :=
  match value.array?.bind Json.allStrings? with
  | some tests => .ok tests
  | none => .error (.listNotTests list)

/-- The tests of one list; a list that is missing or null is empty. -/
def readTests (library : Json.Library) (descriptor : Json) (list : TestList) :
    Except DescriptorError (List Bytes) :=
  match descriptor.get? list.key with
  | none | some .null => .ok []
  | some (.string text) =>
      match library.parse text with
      | some value => testsOf list value
      | none => .error (.listNotJson list)
  | some value => testsOf list value

namespace Job

def identifierKey : Bytes := ascii "instance_id"
def patchKey : Bytes := ascii "model_patch"

/-- Read a descriptor. -/
def ofJson (library : Json.Library) (descriptor : Json) : Except DescriptorError Job :=
  match descriptor with
  | .object _ =>
      match (descriptor.get? identifierKey).bind Json.string? with
      | none => .error .identifierMissing
      | some identifier => do
          let failToPass ← readTests library descriptor .failToPass
          let passToPass ← readTests library descriptor .passToPass
          let failToFail ← readTests library descriptor .failToFail
          let passToFail ← readTests library descriptor .passToFail
          .ok {
            identifier
            repository := optionalText descriptor (ascii "repo")
            version := optionalText descriptor (ascii "version")
            patch := (descriptor.get? patchKey).bind Json.string?
            script := optionalText descriptor (ascii "script")
            testCommand := optionalText descriptor (ascii "test_cmd")
            scriptPath := []
            codeSpace := usualCodeSpace
            expected := ⟨failToPass, passToPass, failToFail, passToFail⟩ }
  | _ => .error .notObject

/-- Read a descriptor from a file. -/
def load (library : Json.Library) (host : Host) (path : Bytes) : Except EvaluationError Job :=
  if host.isRegular path then
    match library.parse (host.text path) with
    | none => .error (.descriptorNotJson path)
    | some descriptor => (ofJson library descriptor).mapError .descriptor
  else .error (.descriptorMissing path)

end Job

end Assay.Evaluation
