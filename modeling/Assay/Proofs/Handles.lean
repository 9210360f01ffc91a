/-
# Assay.Proofs.Handles -- a process is reaped once and not touched again

The number of a process is free for another one as soon as its status has been taken, and
there are three places at which a `Handle` may take it: a poll, each look of a wait, and the
poll before a signal.  All that a call can come to is said once (`Heeds`), with the looks at
which the process had not ended.  From that, a handle is `Settled` after any calls: it knows an
exit code just when the last thing that was done to the process was to take its status
(`answerAll_settled`).
-/
import Assay.Supervise.Process

namespace Assay.Supervise

set_option autoImplicit false

open Bytes

/-- The signal that a call is to send. -/
def Call.signal? : Call → Option Int
  | .terminate => some terminateSignal
  | .kill => some killSignal
  | _ => none

/-- The deed is to have sent this signal, or to have tried to. -/
inductive Deed.Sends (sent : Sent) : Deed → Prop
  | signalled : Sends sent (.signalled sent)
  | refused : Sends sent (.refused sent)

namespace Handle

variable {handle later : Handle} {asked : Asked} {fault : Option Bytes}

/-! ## Looks -/

/-- The times of looks with pauses between them. -/
def looksFrom (time : Nat) : Nat → List Nat
  | 0 => [time]
  | pauses + 1 => time :: looksFrom (time + lookPause) pauses

/-- The times at which a call may look whether the process has ended. -/
def looksOf (asked : Asked) : List Nat :=
  match asked.call with
  | .await limit => looksFrom asked.time (pausesFor limit)
  | _ => [asked.time]

/-- The handle with the status taken. -/
def taken (handle : Handle) (status : Int) : Handle :=
  { handle with exitCode := some (Assay.exitCode status), deeds := .reaped status :: handle.deeds }

/-- What looks come to: the first at which the process has ended takes the status. -/
inductive Looks (handle : Handle) (times : List Nat) : Handle → Prop
  | reaped (early : List Nat) (time : Nat) (late : List Nat) (status : Int)
      (order : times = early ++ time :: late)
      (runs : ∀ before ∈ early, handle.process.status? before handle.sent = none)
      (ended : handle.process.status? time handle.sent = some status) :
      Looks handle times (handle.taken status)
  | running (runs : ∀ time ∈ times, handle.process.status? time handle.sent = none) :
      Looks handle times handle

theorem look_looks (handle : Handle) (time : Nat) : handle.Looks [time] (handle.look time) := by
  rw [look]
  cases ended : handle.process.status? time handle.sent with
  | none => exact .running (by simpa using ended)
  | some status => exact .reaped [] time [] status rfl (fun _ member => nomatch member) ended

theorem lookOn_looks (untaken : handle.exitCode = none) (time pauses : Nat) :
    handle.Looks (looksFrom time pauses) (handle.lookOn time pauses) := by
  induction pauses generalizing time with
  | zero => exact look_looks handle time
  | succ pauses ih =>
      rw [lookOn, looksFrom, look]
      cases ended : handle.process.status? time handle.sent with
      | some status => exact .reaped [] time _ status rfl (fun _ member => nomatch member) ended
      | none =>
          dsimp only
          rw [if_neg (by simp [untaken])]
          -- the process runs at this look, whatever the later ones come to
          have here : ∀ {times : List Nat} {after : Handle}, handle.Looks times after →
              handle.Looks (time :: times) after := by
            rintro times after (⟨early, next, late, status, rfl, runs, found⟩ | runs)
            · exact .reaped (time :: early) next late status rfl
                (List.forall_mem_cons.2 ⟨ended, runs⟩) found
            · exact .running (List.forall_mem_cons.2 ⟨ended, runs⟩)
          exact here (ih (time + lookPause))

theorem reap_looks (untaken : handle.exitCode = none) (time : Nat) :
    handle.Looks [time] (handle.reap time) := by
  rw [reap, if_neg (by simp [untaken])]
  exact look_looks handle time

/-! ## Calls -/

/-- All that a call can come to, and what went wrong with it. -/
inductive Heeds (handle : Handle) (asked : Asked) : Handle → Option Bytes → Prop
  /-- The status was taken before. -/
  | known {code : Int} (isTaken : handle.exitCode = some code) : Heeds handle asked handle none
  /-- The status is taken at the first look at which the process has ended. -/
  | reaped (early : List Nat) (time : Nat) (late : List Nat) (status : Int)
      (untaken : handle.exitCode = none) (order : looksOf asked = early ++ time :: late)
      (runs : ∀ before ∈ early, handle.process.status? before handle.sent = none)
      (ended : handle.process.status? time handle.sent = some status) :
      Heeds handle asked (handle.taken status) none
  /-- The process runs, and no more was asked. -/
  | running (untaken : handle.exitCode = none)
      (runs : ∀ time ∈ looksOf asked, handle.process.status? time handle.sent = none)
      (still : asked.call.signal? = none) : Heeds handle asked handle none
  /-- The process runs, and a signal is sent. -/
  | signalled {number : Int} (untaken : handle.exitCode = none)
      (runs : handle.process.status? asked.time handle.sent = none)
      (signals : asked.call.signal? = some number)
      (allowed : handle.process.refuses? ⟨asked.time, number⟩ = none) :
      Heeds handle asked
        { handle with deeds := .signalled ⟨asked.time, number⟩ :: handle.deeds } none
  /-- The process runs, and the signal is refused. -/
  | refused {number : Int} {reason : Bytes} (untaken : handle.exitCode = none)
      (runs : handle.process.status? asked.time handle.sent = none)
      (signals : asked.call.signal? = some number)
      (denied : handle.process.refuses? ⟨asked.time, number⟩ = some reason) :
      Heeds handle asked
        { handle with deeds := .refused ⟨asked.time, number⟩ :: handle.deeds }
        (some (refusalText handle.process.pid reason))

/-- Looks alone. -/
theorem Looks.heeds (looks : handle.Looks (looksOf asked) later)
    (untaken : handle.exitCode = none) (still : asked.call.signal? = none) :
    handle.Heeds asked later none := by
  cases looks with
  | reaped early time late status order runs ended =>
      exact .reaped early time late status untaken order runs ended
  | running runs => exact .running untaken runs still

theorem signal_heeds {number : Int} (untaken : handle.exitCode = none)
    (once : looksOf asked = [asked.time]) (signals : asked.call.signal? = some number) :
    handle.Heeds asked (handle.signal ⟨asked.time, number⟩).1
      (handle.signal ⟨asked.time, number⟩).2 := by
  have looks := reap_looks untaken asked.time
  rw [signal]
  generalize handle.reap asked.time = polled at looks ⊢
  cases looks with
  | reaped early time late status order runs ended =>
      exact .reaped early time late status untaken (once.trans order) runs ended
  | running runs =>
      have stillRuns := runs asked.time List.mem_cons_self
      rw [if_neg (by simp [untaken])]
      cases refusal : handle.process.refuses? ⟨asked.time, number⟩ with
      | none => exact .signalled untaken stillRuns signals refusal
      | some reason => exact .refused untaken stillRuns signals refusal

/-- **What a call comes to.** -/
theorem heed_heeds (handle : Handle) (asked : Asked) :
    handle.Heeds asked (handle.answer asked) (handle.heed asked).2 := by
  obtain ⟨time, call⟩ := asked
  unfold answer
  cases isTaken : handle.exitCode with
  | some code =>
      have same : handle.heed ⟨time, call⟩ = (handle, none) := by
        cases call <;> simp [heed, reap, await, signal, isTaken]
      rw [same]
      exact .known isTaken
  | none =>
      cases call with
      | poll => exact (reap_looks isTaken time).heeds isTaken rfl
      | await limit =>
          have looks : handle.Looks (looksOf ⟨time, .await limit⟩) (handle.await time limit) := by
            rw [await, if_neg (by simp [isTaken])]
            exact lookOn_looks isTaken time (pausesFor limit)
          exact looks.heeds isTaken rfl
      | terminate => exact signal_heeds isTaken rfl rfl
      | kill => exact signal_heeds isTaken rfl rfl

/-- A call adds to what was done, at most one signal and only its own. -/
theorem Heeds.deeds (heeds : handle.Heeds asked later fault) :
    ∃ new : List Deed, later.deeds = new ++ handle.deeds ∧ new.length ≤ 1 ∧
      ∀ deed ∈ new, ∀ sent, deed.Sends sent →
        asked.call.signal? = some sent.signal ∧ sent.time = asked.time := by
  cases heeds with
  | known | running => exact ⟨[], rfl, Nat.zero_le 1, fun _ member => nomatch member⟩
  | reaped =>
      refine ⟨[_], rfl, Nat.le_refl 1, fun deed member sent sends => ?_⟩
      rw [List.mem_singleton.1 member] at sends
      cases sends
  | signalled untaken runs signals | refused untaken runs signals =>
      refine ⟨[_], rfl, Nat.le_refl 1, fun deed member sent sends => ?_⟩
      rw [List.mem_singleton.1 member] at sends
      cases sends
      exact ⟨signals, rfl⟩

/-! ## Any calls -/

/-- The exit code is known just when the status was taken, and nothing was done after that. -/
structure Settled (handle : Handle) : Prop where
  untaken : handle.exitCode = none → ∀ status, .reaped status ∉ handle.deeds
  taken : ∀ code, handle.exitCode = some code → ∃ status earlier,
    handle.deeds = .reaped status :: earlier ∧ code = Assay.exitCode status ∧
      ∀ other, .reaped other ∉ earlier

theorem settled_new (process : Process) : (new process).Settled where
  untaken _ _ member := nomatch member
  taken _ isTaken := nomatch isTaken

theorem Heeds.settled (heeds : handle.Heeds asked later fault) (settled : handle.Settled) :
    later.Settled := by
  cases heeds with
  | known | running => exact settled
  | reaped early time late status untaken =>
      refine ⟨nofun, ?_⟩
      rintro _ ⟨⟩
      exact ⟨status, handle.deeds, rfl, rfl, settled.untaken untaken⟩
  | signalled untaken | refused untaken =>
      refine ⟨fun _ status member => ?_, fun code isTaken => ?_⟩
      · rcases List.mem_cons.1 member with same | before
        · cases same
        · exact settled.untaken untaken status before
      · cases untaken.symm.trans isTaken

theorem answerAll_append (handle : Handle) (calls more : List Asked) :
    handle.answerAll (calls ++ more) = (handle.answerAll calls).answerAll more :=
  List.foldl_append

theorem settled_answerAll (settled : handle.Settled) (calls : List Asked) :
    (handle.answerAll calls).Settled := by
  induction calls generalizing handle with
  | nil => exact settled
  | cons asked rest ih => exact ih ((heed_heeds handle asked).settled settled)

/-- Once the exit code is known, nothing that is asked makes a difference. -/
theorem heed_of_taken {code : Int} (isTaken : handle.exitCode = some code) (asked : Asked) :
    handle.answer asked = handle ∧ (handle.heed asked).2 = none := by
  have heeds := heed_heeds handle asked
  generalize handle.answer asked = later, (handle.heed asked).2 = fault at heeds ⊢
  cases heeds with
  | known => exact ⟨rfl, rfl⟩
  | reaped _ _ _ _ untaken | running untaken | signalled untaken | refused untaken =>
      cases untaken.symm.trans isTaken

theorem answerAll_of_taken {code : Int} (isTaken : handle.exitCode = some code)
    (calls : List Asked) : handle.answerAll calls = handle := by
  induction calls with
  | nil => rfl
  | cons asked rest ih =>
      rw [answerAll, List.foldl_cons, (heed_of_taken isTaken asked).1]
      exact ih

theorem reply_of_taken {code : Int} (isTaken : handle.exitCode = some code) (asked : Asked) :
    handle.reply asked = .ok (some code) := by
  obtain ⟨same, fine⟩ := heed_of_taken isTaken asked
  rw [reply, fine, same, isTaken]

/-- A call that answers an exit code leaves it known. -/
theorem exitCode_of_reply {code : Int} (replied : handle.reply asked = .ok (some code)) :
    (handle.answer asked).exitCode = some code := by
  rw [reply] at replied
  cases fault : (handle.heed asked).2 with
  | none =>
      rw [fault] at replied
      exact Except.ok.inj replied
  | some reason =>
      rw [fault] at replied
      cases replied

/-- What was done to a process whose handle is settled. -/
theorem Settled.of_reaped (settled : handle.Settled) {after earlier : List Deed} {status : Int}
    (done : handle.deeds = after ++ .reaped status :: earlier) :
    after = [] ∧ (∀ other, .reaped other ∉ earlier) ∧
      handle.exitCode = some (Assay.exitCode status) := by
  cases isTaken : handle.exitCode with
  | none =>
      refine absurd ?_ (settled.untaken isTaken status)
      rw [done]
      exact List.mem_append_right _ List.mem_cons_self
  | some code =>
      obtain ⟨last, before, first, rfl, once⟩ := settled.taken code isTaken
      rw [first] at done
      cases after with
      | nil =>
          obtain ⟨same, rest⟩ := List.cons.inj done
          cases same
          exact ⟨rfl, rest ▸ once, rfl⟩
      | cons deed after =>
          obtain ⟨-, rest⟩ := List.cons.inj done
          refine absurd ?_ (once status)
          rw [rest]
          exact List.mem_append_right _ List.mem_cons_self

/-- **A process is reaped at most once, and after that nothing is done to it.**  The exit code
is that of the status which was taken, every later call answers it, and a call sends at most its
own signal; what a call comes to is said by `Heeds`. -/
theorem answerAll_settled (process : Process) (output errors : Bytes) (calls : List Asked) :
    let handle := (new process).answerAll calls
    (∀ after status earlier, handle.deeds = after ++ .reaped status :: earlier →
      after = [] ∧ (∀ other, .reaped other ∉ earlier) ∧
        handle.exitCode = some (Assay.exitCode status)) ∧
    (∀ code, handle.exitCode = some code →
      (∃ status earlier, handle.deeds = .reaped status :: earlier ∧
        code = Assay.exitCode status) ∧
      ∀ more asked, (handle.answerAll more).deeds = handle.deeds ∧
        (handle.answerAll more).reply asked = .ok (some code)) ∧
    ∀ asked, handle.Heeds asked (handle.answer asked) (handle.heed asked).2 ∧
      (∃ new : List Deed, (handle.answer asked).deeds = new ++ handle.deeds ∧ new.length ≤ 1 ∧
        ∀ deed ∈ new, ∀ sent, deed.Sends sent →
          asked.call.signal? = some sent.signal ∧ sent.time = asked.time) ∧
      (Child.ofProcess process output errors).reply (asked :: calls.reverse) =
        handle.reply asked ∧
      ∀ code, handle.reply asked = .ok (some code) → ∀ more next,
        ((new process).answerAll (calls ++ asked :: more)).reply next = .ok (some code) := by
  intro handle
  have settled : handle.Settled := settled_answerAll (settled_new process) calls
  refine ⟨fun after status earlier => settled.of_reaped, fun code isTaken => ⟨?_, ?_⟩,
    fun asked => ⟨heed_heeds handle asked, (heed_heeds handle asked).deeds, ?_, ?_⟩⟩
  · obtain ⟨status, earlier, done, isCode, -⟩ := settled.taken code isTaken
    exact ⟨status, earlier, done, isCode⟩
  · intro more asked
    rw [answerAll_of_taken isTaken]
    exact ⟨rfl, reply_of_taken isTaken asked⟩
  · change ((new process).answerAll calls.reverse.reverse).reply asked = _
    rw [List.reverse_reverse]
  · intro code replied more next
    have isTaken := exitCode_of_reply replied
    rw [answerAll_append]
    change (((handle.answer asked).answerAll more).reply next) = _
    rw [answerAll_of_taken isTaken]
    exact reply_of_taken isTaken next

/-- A process that ends by itself after 30 ms, whatever it is sent. -/
def deafProcess : Process where
  pid := 1000
  status? time _ := if 30 ≤ time then some 768 else none
  refuses? _ := none

/-- Asked to end, it goes on, and its status is taken at the second look of a wait; it is not
killed after that. -/
theorem deafProcess_settled :
    let handle := (new deafProcess).answerAll [⟨0, .poll⟩, ⟨5, .terminate⟩, ⟨10, .await 20⟩]
    handle.deeds = [.reaped 768, .signalled ⟨5, 15⟩] ∧
      (handle.answerAll [⟨40, .kill⟩]).deeds = handle.deeds ∧
      (handle.answerAll [⟨40, .kill⟩]).reply ⟨50, .poll⟩ = .ok (some 3) :=
  have later := (answerAll_settled deafProcess [] []
    [⟨0, .poll⟩, ⟨5, .terminate⟩, ⟨10, .await 20⟩]).2.1 3 (by decide)
  ⟨by decide, later.2 [⟨40, .kill⟩] ⟨50, .poll⟩⟩

end Handle

end Assay.Supervise
