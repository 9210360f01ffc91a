/-
# Assay.Proofs.Mending -- a mended test does no harm

Resolutions are ordered: not at all, in part, in full.  A job is resolved no less when tests
that were reported otherwise, or not at all, are reported as passed, and no less by a log that
is only trusted for failing tests than by one that is trusted for both
(`resolution_monotone`).

Both come to the same: a test that counted as a success still does.  Of a bucket it matters
only whether it holds a failure and whether it holds a success (`Bucket.NoWorse`), and the
resolution grows with both (`resolution_le_of_noWorse`).
-/
import Assay.Proofs.Buckets
import Mathlib.Order.Lattice

namespace Assay.Evaluation

set_option autoImplicit false

open Bytes Test

/-! ## The order of resolutions -/

def Resolution.rank : Resolution → Nat
  | .no => 0
  | .partially => 1
  | .fully => 2

theorem Resolution.rank_injective : Function.Injective Resolution.rank := by
  intro one other same
  cases one <;> cases other <;> first | rfl | cases same

instance : LinearOrder Resolution :=
  LinearOrder.lift' Resolution.rank Resolution.rank_injective

/-- To be no further than another is to reach no stage that the other does not reach. -/
theorem Resolution.le_of_reaches {one other : Resolution}
    (partly : .partially ≤ one → .partially ≤ other) (whole : one = .fully → other = .fully) :
    one ≤ other := by
  cases one with
  | no => cases other <;> decide
  | partially => exact partly (le_refl _)
  | fully => rw [whole rfl]

/-! ## Buckets -/

/-- Where nothing failed in one bucket, nothing did in the other, and where something
succeeded, something did. -/
structure Bucket.NoWorse (one other : Bucket) : Prop where
  clean : one.failure = [] → other.failure = []
  succeeded : one.success ≠ [] → other.success ≠ []

theorem Bucket.sort_noWorse {good better : Bytes → Bool}
    (still : ∀ test, good test = true → better test = true) (tests : List Bytes) :
    (Bucket.sort good tests).NoWorse (Bucket.sort better tests) where
  clean none := by
    rw [← isWhole_rate_iff, isWhole_rate_sort_iff] at none ⊢
    intro test member
    exact still test (none test member)
  succeeded found := by
    obtain ⟨test, member⟩ := List.exists_mem_of_ne_nil _ found
    obtain ⟨listed, isGood⟩ := List.mem_filter.1 member
    have member : test ∈ tests.filter better := List.mem_filter.2 ⟨listed, still test isGood⟩
    exact List.ne_nil_of_mem member

theorem TestsReport.partially_le_resolution_iff {report : TestsReport} :
    .partially ≤ report.resolution ↔
      (report.failToPass.success ≠ [] ∨ report.failToPass.failure = []) ∧
        report.passToPass.failure = [] := by
  have atLeast : .partially ≤ report.resolution ↔
      report.resolution = .partially ∨ report.resolution = .fully := by
    cases report.resolution <;> decide
  rw [atLeast, resolution_eq_partially_iff, resolution_eq_fully_iff_failure]
  tauto

/-- The resolution grows with the buckets of the tests that count. -/
theorem resolution_le_of_noWorse {one other : TestsReport}
    (mended : one.failToPass.NoWorse other.failToPass)
    (kept : one.passToPass.NoWorse other.passToPass) : one.resolution ≤ other.resolution := by
  refine Resolution.le_of_reaches ?_ ?_
  · rw [TestsReport.partially_le_resolution_iff, TestsReport.partially_le_resolution_iff]
    rintro ⟨succeeded, clean⟩
    exact ⟨succeeded.imp mended.succeeded mended.clean, kept.clean clean⟩
  · rw [TestsReport.resolution_eq_fully_iff_failure, TestsReport.resolution_eq_fully_iff_failure]
    rintro ⟨noneLeft, clean⟩
    exact ⟨mended.clean noneLeft, kept.clean clean⟩

/-! ## Better tables, and a wider choice of statuses -/

/-- The tables differ in nothing but tests that passed in the second. -/
def Mended (before after : Statuses) : Prop :=
  ∀ test, after.get? test = before.get? test ∨ after.get? test = some .passed

theorem Mended.refl (statuses : Statuses) : Mended statuses statuses :=
  fun _ => .inl rfl

/-- One more test that passes, known before or not. -/
theorem Mended.insert {before after : Statuses} (mended : Mended before after) (test : Bytes) :
    Mended before (after.insert test .passed) := by
  intro other
  rw [KeyMap.get?_insert]
  split
  · exact .inr rfl
  · exact mended other

/-- A success stays one when the table is mended and the choice of statuses widened. -/
theorem Mended.hasStatus {before after : Statuses} (mended : Mended before after)
    {wanted wider : List Status} (wide : wanted ⊆ wider) (passes : .passed ∈ wider)
    (test : Bytes) (success : hasStatus before wanted test = true) :
    hasStatus after wider test = true := by
  rw [hasStatus_iff] at success ⊢
  obtain ⟨status, isWanted, found⟩ := success
  rcases mended test with same | passed
  · exact ⟨status, wide isWanted, same.trans found⟩
  · exact ⟨.passed, passes, passed⟩

theorem passed_mem_lasting (reporting : Reporting) : .passed ∈ lasting reporting := by
  cases reporting <;> decide

theorem Mended.resolution_le {before after : Statuses} (mended : Mended before after)
    {reporting laxer : Reporting} (wide : lasting reporting ⊆ lasting laxer)
    (expected : Expectations) :
    (gradeTests before reporting expected).resolution ≤
      (gradeTests after laxer expected).resolution := by
  have still : ∀ test, hasPassed before test = true → hasPassed after test = true := by
    rw [hasPassed_eq_hasStatus, hasPassed_eq_hasStatus]
    exact mended.hasStatus (List.Subset.refl passing) (by decide)
  have stays : ∀ test, staysPassing reporting before test = true →
      staysPassing laxer after test = true := by
    rw [staysPassing_eq_hasStatus, staysPassing_eq_hasStatus]
    exact mended.hasStatus wide (passed_mem_lasting laxer)
  exact resolution_le_of_noWorse (Bucket.sort_noWorse still expected.failToPass)
    (Bucket.sort_noWorse stays expected.passToPass)

/-- **No test that passes makes a job less resolved**, whether the table knew it or not; and a
log that is only trusted for failing tests resolves no less than one that is trusted for
both. -/
theorem resolution_monotone (expected : Expectations) :
    (∀ (reporting : Reporting) (before after : Statuses), Mended before after →
      (gradeTests before reporting expected).resolution ≤
        (gradeTests after reporting expected).resolution) ∧
      ∀ statuses : Statuses,
        (gradeTests statuses .passAndFail expected).resolution ≤
          (gradeTests statuses .failOnly expected).resolution := by
  refine ⟨fun reporting before after mended => ?_, fun statuses => ?_⟩
  · exact mended.resolution_le (List.Subset.refl _) expected
  · exact (Mended.refl statuses).resolution_le (by decide) expected

/-- Of two tests to be mended, one listed twice, and one that should stay passing. -/
def threeTests : Expectations where
  failToPass := [ascii "t1", ascii "t2", ascii "t1"]
  passToPass := [ascii "t3"]
  failToFail := [ascii "t2"]
  passToFail := []

def brokenTable : Statuses :=
  ((∅ : Statuses).insert (ascii "t1") .failed).insert (ascii "t3") .skipped

/-- One of the two passes, and a test that was not known before. -/
def halfMendedTable : Statuses :=
  (brokenTable.insert (ascii "t1") .passed).insert (ascii "t4") .passed

theorem halfMendedTable_resolves_more :
    Mended brokenTable halfMendedTable ∧
      (gradeTests brokenTable .failOnly threeTests).resolution = .no ∧
      (gradeTests halfMendedTable .failOnly threeTests).resolution = .partially ∧
      (gradeTests brokenTable .failOnly threeTests).resolution ≤
        (gradeTests halfMendedTable .failOnly threeTests).resolution := by
  have mended : Mended brokenTable halfMendedTable :=
    ((Mended.refl brokenTable).insert (ascii "t1")).insert (ascii "t4")
  exact ⟨mended, by decide +kernel, by decide +kernel,
    (resolution_monotone threeTests).1 .failOnly brokenTable halfMendedTable mended⟩

end Assay.Evaluation
