/-
# Assay.Proofs.Resolution -- when a job counts as resolved

The verdict on a job goes through a table of statuses, four sorted lists and two
rates.  `ofLog_resolved_iff` says what is left of that: every test that should pass
must have a last report that says so, in the text of the log that counts.
-/
import Assay.Evaluation.Verdict
import Assay.Proofs.Buckets
import Assay.Proofs.Reports

namespace Assay.Evaluation

set_option autoImplicit false

open Bytes Test Test.Log

/-! ## Single tests -/

theorem hasPassed_iff {statuses : Statuses} {test : Bytes} :
    hasPassed statuses test = true ↔
      ∃ status, statuses.get? test = some status ∧
        (status = .passed ∨ status = .expectedFailure) := by
  rw [hasPassed_eq_hasStatus, hasStatus_iff]
  simp only [passing, List.mem_cons, List.not_mem_nil, or_false, and_comm]

/-- A test stays passing when it passed, or was skipped where that is not told apart. -/
theorem staysPassing_iff {repository : Bytes} {statuses : Statuses} {test : Bytes} :
    staysPassing (reportingOf repository) statuses test = true ↔
      ∃ status, statuses.get? test = some status ∧
        (status = .passed ∨ status = .expectedFailure ∨
          status = .skipped ∧ repository ∈ failOnlyRepositories) := by
  have wanted (status : Status) : status ∈ lasting (reportingOf repository) ↔
      (status = .passed ∨ status = .expectedFailure ∨
        status = .skipped ∧ repository ∈ failOnlyRepositories) := by
    by_cases listed : repository ∈ failOnlyRepositories
    · have failOnly : reportingOf repository = .failOnly := if_pos (List.elem_iff.2 listed)
      rw [failOnly]
      cases status <;> simp [lasting, passing, listed]
    · have passAndFail : reportingOf repository = .passAndFail :=
        if_neg fun found => listed (List.elem_iff.1 found)
      rw [passAndFail]
      cases status <;> simp [lasting, passing, listed]
  rw [staysPassing_eq_hasStatus, hasStatus_iff]
  simp only [wanted, and_comm]

/-! ## The verdict -/

/-- The text reports something, and the last report on each test of the job is one
that the job can be content with. -/
structure Resolves (job : Job) (text : Bytes) : Prop where
  reported : ∃ line ∈ lines text, ∃ test status, Reports line test status
  mended : ∀ test ∈ job.expected.failToPass, ∃ status,
    LastReport (lines text) test status ∧ (status = .passed ∨ status = .expectedFailure)
  kept : ∀ test ∈ job.expected.passToPass, ∃ status,
    LastReport (lines text) test status ∧
      (status = .passed ∨ status = .expectedFailure ∨
        status = .skipped ∧ job.repository ∈ failOnlyRepositories)

theorem ofStatuses_resolved_iff {job : Job} {text : Bytes} {withTests : Bool}
    (reported : ∃ line ∈ lines text, ∃ test status, Reports line test status) :
    (Verdict.ofStatuses job (statuses text) withTests).resolved = true ↔ Resolves job text := by
  simp only [Verdict.ofStatuses, beq_iff_eq, TestsReport.resolution_eq_fully_iff, gradeTests,
    Bucket.isWhole_rate_sort_iff, hasPassed_iff, staysPassing_iff, get?_statuses_iff]
  constructor
  · rintro ⟨mended, kept⟩
    exact ⟨reported, mended, kept⟩
  · rintro ⟨-, mended, kept⟩
    exact ⟨mended, kept⟩

/-- **A job is resolved** when it has a patch and a test log, the log holds no marker
of failure, and the text of it that counts resolves the job. -/
theorem ofLog_resolved_iff (job : Job) (host : Host) (path : Bytes) (withTests : Bool) :
    (Verdict.ofLog job (testLog? host path) withTests).resolved = true ↔
      job.patch.isSome = true ∧ host.isRegular path = true ∧
        (∀ marker ∈ failureMarkers, ¬ marker <:+: host.text path) ∧
          ∃ text, Graded (host.text path) text ∧ Resolves job text := by
  unfold Verdict.ofLog testLog?
  cases patch : job.patch with
  | none => simp [Verdict.withoutPatch]
  | some patch =>
      dsimp only
      by_cases regular : host.isRegular path = true
      · rw [if_pos regular, Option.bind_some]
        cases answer : grade? (host.text path) with
        | none =>
            have unresolved : (Verdict.untested job.identifier).resolved = false := rfl
            simp only [unresolved]
            constructor
            · intro resolved
              cases resolved
            · rintro ⟨-, -, free, text, graded, resolves⟩
              have found := grade?_eq_some_iff.2 ⟨free, text, graded, rfl, resolves.reported⟩
              rw [answer] at found
              cases found
        | some found =>
            obtain ⟨free, text, graded, rfl, reported⟩ := grade?_eq_some_iff.1 answer
            rw [ofStatuses_resolved_iff reported]
            constructor
            · intro resolves
              exact ⟨rfl, regular, free, text, graded, resolves⟩
            · rintro ⟨-, -, -, other, otherGraded, resolves⟩
              rwa [graded_iff.1 otherGraded, ← graded_iff.1 graded] at resolves
      · rw [if_neg regular]
        simp [Verdict.untested, regular]

end Assay.Evaluation
