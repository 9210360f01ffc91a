/-
# Assay.Proofs.Buckets -- where the expected tests end up

Grading sorts each list of expected tests into a bucket of its own.  `Bucket.Sorts` says that
nothing is lost or made up on the way: each part of the bucket is the list without the tests of
the other part, in order and as often as they are listed.  What counts as a success is a status
that the table has for the test, and which statuses do is all that the two kinds of reporting
differ in (`staysPassing_eq_hasStatus`).

The resolution is read off two rates.  In terms of the buckets (`resolution_eq_fully_iff_failure`,
`resolution_eq_partially_iff`), nothing may have failed in the list of tests that should stay
passing, and in the list of tests that should be mended it matters whether none failed or only
some.
-/
import Assay.Evaluation.Grading
import Mathlib.Algebra.Order.Field.Basic
import Mathlib.Algebra.Order.Field.Rat
import Mathlib.Data.List.Perm.Basic

namespace Assay.Evaluation

set_option autoImplicit false

open Bytes Test

/-! ## Sorted lists -/

/-- The bucket holds the tests of a list, the good ones apart from the others, each part in
the order of the list and each test as often as it is listed. -/
structure Bucket.Sorts (bucket : Bucket) (tests : List Bytes) (good : Bytes → Bool) : Prop where
  success : bucket.success = tests.filter good
  failure : bucket.failure = tests.filter fun test => !good test
  count (test : Bytes) :
    bucket.success.count test + bucket.failure.count test = tests.count test
  apart : ∀ test ∈ bucket.success, test ∉ bucket.failure

theorem Bucket.sort_sorts (good : Bytes → Bool) (tests : List Bytes) :
    (Bucket.sort good tests).Sorts tests good where
  success := rfl
  failure := rfl
  count test := by
    rw [← List.count_append]
    exact (List.filter_append_perm good tests).count_eq test
  apart test succeeded failed := by
    have isGood : good test = true := (List.mem_filter.1 succeeded).2
    have isBad : (!good test) = true := (List.mem_filter.1 failed).2
    rw [isGood] at isBad
    cases isBad

/-! ## What counts as a success -/

/-- The table has one of these statuses for the test. -/
def hasStatus (statuses : Statuses) (wanted : List Status) (test : Bytes) : Bool :=
  match statuses.get? test with
  | some status => wanted.elem status
  | none => false

theorem hasStatus_iff {statuses : Statuses} {wanted : List Status} {test : Bytes} :
    hasStatus statuses wanted test = true ↔
      ∃ status ∈ wanted, statuses.get? test = some status := by
  unfold hasStatus
  cases statuses.get? test with
  | none => simp
  | some status => simp

/-- The statuses of a test that went well. -/
def passing : List Status :=
  [.passed, .expectedFailure]

/-- The statuses with which a test has stayed passing. -/
def lasting : Reporting → List Status
  | .passAndFail => passing
  | .failOnly => .skipped :: passing

theorem hasPassed_eq_hasStatus (statuses : Statuses) :
    hasPassed statuses = hasStatus statuses passing := by
  funext test
  unfold hasPassed hasStatus
  cases statuses.get? test with
  | none => rfl
  | some status => cases status <;> rfl

/-- A test has stayed passing when it passed, or was skipped where that is not told apart. -/
theorem staysPassing_eq_hasStatus (reporting : Reporting) (statuses : Statuses) :
    staysPassing reporting statuses = hasStatus statuses (lasting reporting) := by
  cases reporting with
  | passAndFail => exact hasPassed_eq_hasStatus statuses
  | failOnly =>
      funext test
      unfold staysPassing hasFailed hasStatus
      cases statuses.get? test with
      | none => rfl
      | some status => cases status <;> rfl

/-! ## Rates -/

namespace Bucket

variable {bucket : Bucket}

/-- A rate is whole when nothing failed; of no tests, nothing did. -/
theorem isWhole_rate_iff : bucket.rate.isWhole = true ↔ bucket.failure = [] := by
  rw [← List.length_eq_zero_iff]
  unfold rate
  by_cases none : bucket.success.length + bucket.failure.length = 0
  · simp only [none, if_true, Rate.isWhole, beq_self_eq_true, true_iff]
    omega
  · simp only [none, if_false, Rate.isWhole, beq_iff_eq]
    omega

theorem isPartial_rate_iff :
    bucket.rate.isPartial = true ↔ bucket.success ≠ [] ∧ bucket.failure ≠ [] := by
  rw [Rate.isPartial, Bool.and_eq_true, Bool.not_eq_true', Bool.eq_false_iff, ne_eq,
    isWhole_rate_iff]
  refine and_congr_left fun failed => ?_
  have notNone : ¬ bucket.success.length + bucket.failure.length = 0 := by
    have := List.length_pos_iff.2 failed
    omega
  unfold rate
  simp only [notNone, if_false, Rate.isPositive, bne_iff_ne, ne_eq, List.length_eq_zero_iff]

theorem isWhole_rate_sort_iff {succeeds : Bytes → Bool} {tests : List Bytes} :
    (sort succeeds tests).rate.isWhole = true ↔ ∀ test ∈ tests, succeeds test = true := by
  rw [isWhole_rate_iff]
  simp [sort, List.filter_eq_nil_iff]

/-- The part of the tests that succeeded, as an exact number; of no tests, all did. -/
def quotient (bucket : Bucket) : ℚ :=
  if bucket.success = [] ∧ bucket.failure = [] then 1
  else bucket.success.length / (bucket.success.length + bucket.failure.length)

theorem total_pos (some : ¬ (bucket.success = [] ∧ bucket.failure = [])) :
    (0 : ℚ) < bucket.success.length + bucket.failure.length := by
  rw [← List.length_eq_zero_iff, ← List.length_eq_zero_iff] at some
  norm_cast
  omega

theorem quotient_eq_one_iff : bucket.quotient = 1 ↔ bucket.failure = [] := by
  unfold quotient
  by_cases none : bucket.success = [] ∧ bucket.failure = []
  · rw [if_pos none]
    exact iff_of_true rfl none.2
  · have total := total_pos none
    rw [if_neg none, div_eq_one_iff_eq total.ne', ← List.length_eq_zero_iff]
    norm_cast
    omega

theorem quotient_between_iff :
    bucket.quotient < 1 ∧ 0 < bucket.quotient ↔ bucket.success ≠ [] ∧ bucket.failure ≠ [] := by
  unfold quotient
  by_cases none : bucket.success = [] ∧ bucket.failure = []
  · rw [if_pos none]
    simp [none]
  · have total := total_pos none
    rw [if_neg none, div_lt_one total, div_pos_iff_of_pos_right total, and_comm,
      ← List.length_pos_iff, ← List.length_pos_iff]
    norm_cast
    omega

end Bucket

/-! ## The resolution of a report -/

namespace TestsReport

variable {report : TestsReport}

theorem resolution_eq_fully_iff :
    report.resolution = .fully ↔
      report.failToPass.rate.isWhole = true ∧ report.passToPass.rate.isWhole = true := by
  unfold resolution
  dsimp only
  split
  · rename_i whole
    simpa using whole
  · rename_i notWhole
    simp only [Bool.and_eq_true] at notWhole
    split <;> simp [notWhole]

/-- A report is resolved when nothing failed that counts. -/
theorem resolution_eq_fully_iff_failure :
    report.resolution = .fully ↔
      report.failToPass.failure = [] ∧ report.passToPass.failure = [] := by
  rw [resolution_eq_fully_iff, Bucket.isWhole_rate_iff, Bucket.isWhole_rate_iff]

/-- A report is resolved in part when some tests were mended, others not, and none broke. -/
theorem resolution_eq_partially_iff :
    report.resolution = .partially ↔
      (report.failToPass.success ≠ [] ∧ report.failToPass.failure ≠ []) ∧
        report.passToPass.failure = [] := by
  rw [← Bucket.isPartial_rate_iff, ← Bucket.isWhole_rate_iff]
  unfold resolution
  dsimp only
  split
  · rename_i whole
    have notPartial : report.failToPass.rate.isPartial = false := by
      simp [Rate.isPartial, (Bool.and_eq_true_iff.1 whole).1]
    simp [notPartial]
  · split <;> simp_all

/-- The resolution is what the exact quotients of the first two buckets say. -/
theorem resolution_eq_quotients :
    report.resolution =
      if report.failToPass.quotient = 1 ∧ report.passToPass.quotient = 1 then .fully
      else if (report.failToPass.quotient < 1 ∧ 0 < report.failToPass.quotient) ∧
          report.passToPass.quotient = 1 then .partially
      else .no := by
  simp only [Bucket.quotient_eq_one_iff, Bucket.quotient_between_iff,
    ← resolution_eq_fully_iff_failure, ← resolution_eq_partially_iff]
  cases report.resolution <;> simp

/-- What a report says of the expected tests, and what its resolution comes from. -/
structure Accounts (report : TestsReport) (statuses : Statuses) (reporting : Reporting)
    (expected : Expectations) : Prop where
  failToPass : report.failToPass.Sorts expected.failToPass (hasStatus statuses passing)
  passToPass : report.passToPass.Sorts expected.passToPass (hasStatus statuses (lasting reporting))
  failToFail : report.failToFail.Sorts expected.failToFail (hasStatus statuses passing)
  passToFail : report.passToFail.Sorts expected.passToFail (hasStatus statuses passing)
  fully : report.resolution = .fully ↔
    report.failToPass.failure = [] ∧ report.passToPass.failure = []
  partially : report.resolution = .partially ↔
    (report.failToPass.success ≠ [] ∧ report.failToPass.failure ≠ []) ∧
      report.passToPass.failure = []
  no : report.resolution = .no ↔
    ¬ (report.failToPass.failure = [] ∧ report.passToPass.failure = []) ∧
      ¬ ((report.failToPass.success ≠ [] ∧ report.failToPass.failure ≠ []) ∧
        report.passToPass.failure = [])
  quotients : report.resolution =
    if report.failToPass.quotient = 1 ∧ report.passToPass.quotient = 1 then .fully
    else if (report.failToPass.quotient < 1 ∧ 0 < report.failToPass.quotient) ∧
        report.passToPass.quotient = 1 then .partially
    else .no

end TestsReport

/-- **Grading sorts each list into its own bucket**, and the resolution follows from what
failed of the first two; the other two lists have no say in it. -/
theorem gradeTests_accounts (statuses : Statuses) (reporting : Reporting)
    (expected : Expectations) :
    (gradeTests statuses reporting expected).Accounts statuses reporting expected ∧
      ∀ failToFail passToFail,
        (gradeTests statuses reporting { expected with failToFail, passToFail }).resolution =
          (gradeTests statuses reporting expected).resolution := by
  have byPassing (tests : List Bytes) :
      (Bucket.sort (hasPassed statuses) tests).Sorts tests (hasStatus statuses passing) := by
    rw [hasPassed_eq_hasStatus]
    exact Bucket.sort_sorts _ tests
  have byLasting : (Bucket.sort (staysPassing reporting statuses) expected.passToPass).Sorts
      expected.passToPass (hasStatus statuses (lasting reporting)) := by
    rw [staysPassing_eq_hasStatus]
    exact Bucket.sort_sorts _ expected.passToPass
  refine ⟨?_, fun failToFail passToFail => rfl⟩
  exact
    { failToPass := byPassing expected.failToPass
      passToPass := byLasting
      failToFail := byPassing expected.failToFail
      passToFail := byPassing expected.passToFail
      fully := TestsReport.resolution_eq_fully_iff_failure
      partially := TestsReport.resolution_eq_partially_iff
      no := by
        rw [← TestsReport.resolution_eq_fully_iff_failure,
          ← TestsReport.resolution_eq_partially_iff]
        cases (gradeTests statuses reporting expected).resolution <;> simp
      quotients := TestsReport.resolution_eq_quotients }

end Assay.Evaluation
