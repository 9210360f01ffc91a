/-
# Assay.Proofs.Execution -- what is reported of every request

Executing a request always comes to a result, and the result tells what came of the
request (`Accounted`): one reserved code stands for a request that could not be prepared
or launched, the other for one that outlived its deadline, and all others are codes of
ended children, since a status as hosts report it decodes to one of 256 codes
(`exitCode_of_isReported`).  How the request was run is reported in all cases alike.

Whatever happens in between, the log gets one record that the execution begins and one
that it ends, in this order (`execute_accounted`).
-/
import Assay.Proofs.Records
import Assay.Proofs.Unfinished

namespace Assay

set_option autoImplicit false

open Bytes

/-! ## Statuses -/

/-- A status as the host reports it for a child that exited, or that a signal killed. -/
inductive IsReported : Int → Prop
  | exited (code : Nat) (small : code < 256) : IsReported (256 * code)
  | killed (signal : Nat) (real : 1 ≤ signal ∧ signal ≤ 64) (dumped : Bool) :
      IsReported (signal + if dumped then 128 else 0)

/-- Every ended child has a status as the host reports it. -/
def Programs.Report (programs : Programs) : Prop :=
  ∀ host request limit run files status, programs host request limit = (.ok run, files) →
    run.ending = .reaped status → IsReported status

/-- The status of a child that exited is decoded to its code. -/
theorem exitCode_exited {code : Nat} (small : code < 256) : exitCode (256 * code) = code := by
  have bits : ((256 * code : Int) % 4294967296).toNat = 256 * code := by omega
  unfold exitCode endingSignal
  simp only [bits]
  rw [if_pos (by omega)]
  omega

/-- The status of a child that was killed is decoded to a code that names the signal. -/
theorem exitCode_killed {signal : Nat} (real : 1 ≤ signal ∧ signal ≤ 64) (dumped : Bool) :
    exitCode (signal + if dumped then 128 else 0) = 128 + signal := by
  have bits :
      (((signal : Int) + if dumped then 128 else 0) % 4294967296).toNat % 128 = signal := by
    cases dumped <;> simp <;> omega
  unfold exitCode endingSignal
  simp only [bits]
  rw [if_neg (by omega), if_neg (by omega)]

/-- A reported status is decoded to a code of its own range. -/
theorem exitCode_of_isReported {status : Int} (reported : IsReported status) :
    0 ≤ exitCode status ∧ exitCode status ≤ 255 := by
  cases reported with
  | exited code small =>
      rw [exitCode_exited small]
      omega
  | killed signal real dumped =>
      rw [exitCode_killed real dumped]
      omega

namespace Exec

/-! ## How a request is run -/

theorem invoke_mode {host : Host} {searchPath : Bytes} {words : List Bytes}
    {invocation : Invocation} (invoked : invoke host searchPath words = .ok invocation) :
    invocation.mode = .direct := by
  cases words with
  | nil => cases invoked
  | cons name arguments =>
      rw [invoke] at invoked
      split at invoked
      · cases invoked
        rfl
      · cases invoked

/-- What is prepared is run as the request says. -/
theorem prepare_mode {host : Host} {request : Request} {searchPath : Bytes}
    {invocation : Invocation} (prepared : prepare host request searchPath = .ok invocation) :
    invocation.mode = request.mode := by
  unfold prepare at prepared
  unfold Request.mode
  split at prepared
  · rename_i noWords
    rw [if_pos noWords]
    unfold invokeLine at prepared
    split at prepared
    · rename_i shell
      cases prepared
      exact shell.symm
    · rename_i direct
      rw [direct]
      split at prepared
      · cases prepared
      · exact invoke_mode prepared
  · rename_i someWords
    rw [if_neg someWords]
    exact invoke_mode prepared

/-- A run is one of the programs, launched as the request says. -/
theorem launchRequest_ends (programs : Programs) (executor : Executor) (request : Request)
    (directory : Bytes) (limit : Int) (host : Host) :
    Ensures (launchRequest programs executor request directory limit) host fun launched _ =>
      ∀ mode run, launched = .ok (mode, run) → mode = request.mode ∧
        ∃ launch files, programs host launch (some limit) = (.ok run, files) := by
  unfold launchRequest
  refine Ensures.get_bind ?_
  dsimp only
  split
  · exact Ensures.pure (by simp)
  · rename_i invocation prepared
    have launches : ∀ launched, Ensures (launch programs launched (some limit)) host fun run _ =>
        ∃ files, programs host launched (some limit) = (run, files) :=
      fun _ => ⟨_, rfl⟩
    refine Ensures.bind (launches _) ?_
    rintro (reason | run) after ⟨files, ran⟩
    · exact Ensures.pure (by simp)
    · refine Ensures.pure ?_
      rintro _ _ ⟨⟩
      exact ⟨prepare_mode prepared, _, files, ran⟩

/-- What is reported of a request that was launched, or could not be. -/
structure Accounted (request : Request) (launched : Except StartError (Shell.Dispatch × ChildRun))
    (result : Result) : Prop where
  /-- It could not be prepared or launched. -/
  failed : result.code = notStarted ↔ ∃ fault, launched = .error fault
  explained : ∀ fault, launched = .error fault →
    result.output = [] ∧ result.errors = ascii "Execution error: " ++ fault.message
  /-- It did not end before its deadline. -/
  late : result.code = timedOut ↔
    ∃ mode run, launched = .ok (mode, run) ∧ run.ending = .outlived
  /-- It ended. -/
  ended : result.code ≠ notStarted → result.code ≠ timedOut → 0 ≤ result.code ∧ result.code ≤ 255
  mode : result.mode = request.mode

/-! ## The result of a run -/

/-- The code and the mode of a run, however its output is taken. -/
structure TellsRun (mode : Shell.Dispatch) (run : ChildRun) (result : Result) : Prop where
  code : result.code = match run.ending with
    | .outlived => timedOut
    | .reaped status => exitCode status
  mode : result.mode = mode

theorem TellsRun.of_outlived {mode : Shell.Dispatch} {run : ChildRun}
    (outlived : run.ending = .outlived) {result : Result} (code : result.code = timedOut)
    (same : result.mode = mode) : TellsRun mode run result :=
  ⟨by rw [code, outlived], same⟩

theorem TellsRun.of_reaped {mode : Shell.Dispatch} {run : ChildRun} {status : Int}
    (reaped : run.ending = .reaped status) {result : Result} (code : result.code = exitCode status)
    (same : result.mode = mode) : TellsRun mode run result :=
  ⟨by rw [code, reaped], same⟩

theorem captured_tells (request : Request) (mode : Shell.Dispatch) (limit : Int) (run : ChildRun)
    (host : Host) :
    Ensures (captured request mode limit run) host fun result _ => TellsRun mode run result := by
  unfold captured
  dsimp only
  cases ending : run.ending with
  | outlived =>
      split
      · exact Ensures.bind_any fun _ _ => Ensures.pure (.of_outlived ending rfl rfl)
      · exact Ensures.pure (.of_outlived ending rfl rfl)
  | reaped status =>
      split
      · exact Ensures.bind_any fun _ _ => Ensures.pure (.of_reaped ending rfl rfl)
      · exact Ensures.pure (.of_reaped ending rfl rfl)

theorem streamed_tells (handler : LineHandler) (mode : Shell.Dispatch) (limit : Int)
    (run : ChildRun) (host : Host) :
    Ensures (streamed handler mode limit run) host fun result _ => TellsRun mode run result := by
  unfold streamed
  refine Ensures.bind_any fun reading after => ?_
  dsimp only
  cases ending : run.ending with
  | outlived =>
      split
      · exact Ensures.bind_any fun _ _ => Ensures.pure (.of_outlived ending rfl rfl)
      · exact Ensures.pure (.of_outlived ending rfl rfl)
  | reaped status =>
      split
      · exact Ensures.bind_any fun _ _ => Ensures.pure (.of_reaped ending rfl rfl)
      · exact Ensures.pure (.of_reaped ending rfl rfl)

/-- A run accounts for its request. -/
theorem TellsRun.accounted {request : Request} {mode : Shell.Dispatch} {run : ChildRun}
    {result : Result} (tells : TellsRun mode run result) (same : mode = request.mode)
    (reported : ∀ status, run.ending = .reaped status → IsReported status) :
    Accounted request (.ok (mode, run)) result := by
  obtain ⟨code, isMode⟩ := tells
  cases ending : run.ending with
  | outlived =>
      rw [ending] at code
      have notFailed : timedOut ≠ notStarted := by decide
      refine ⟨by simp [code, notFailed], fun _ => by simp, ?_, ?_, isMode.trans same⟩
      · exact ⟨fun _ => ⟨mode, run, rfl, ending⟩, fun _ => code⟩
      · exact fun _ other => absurd code other
  | reaped status =>
      rw [ending] at code
      obtain ⟨low, high⟩ := exitCode_of_isReported (reported status ending)
      have notFailed : exitCode status ≠ notStarted := by unfold notStarted; omega
      have notLate : exitCode status ≠ timedOut := by unfold timedOut; omega
      refine ⟨by simp [code, notFailed], fun _ => by simp, ?_, ?_, isMode.trans same⟩
      · constructor
        · exact fun late => absurd (code.symm.trans late) notLate
        · rintro ⟨_, _, ⟨⟩, outlived⟩
          rw [ending] at outlived
          cases outlived
      · intro _ _
        rw [code]
        exact ⟨low, high⟩

/-- What is concluded accounts for the request. -/
theorem conclude_accounted {request : Request} (limit : Int)
    {launched : Except StartError (Shell.Dispatch × ChildRun)}
    (told : ∀ mode run, launched = .ok (mode, run) → mode = request.mode ∧
      ∀ status, run.ending = .reaped status → IsReported status) (host : Host) :
    Ensures (conclude request limit launched) host fun result _ =>
      Accounted request launched result := by
  cases launched with
  | error fault =>
      refine Ensures.bind_any fun _ _ => Ensures.bind_any fun _ _ => Ensures.pure ?_
      have notLate : notStarted ≠ timedOut := by decide
      refine ⟨by simp, ?_, by simp [notLate], fun other => absurd rfl other, rfl⟩
      rintro _ ⟨⟩
      exact ⟨rfl, rfl⟩
  | ok launched =>
      obtain ⟨mode, run⟩ := launched
      obtain ⟨same, reported⟩ := told mode run rfl
      unfold conclude
      dsimp only
      cases request.onLine with
      | none =>
          refine Ensures.bind (captured_tells request mode limit run host) ?_
          intro result _ tells
          exact Ensures.bind_any fun _ _ => Ensures.pure (tells.accounted same reported)
      | some handler =>
          refine Ensures.bind (streamed_tells handler mode limit run host) ?_
          intro result _ tells
          exact Ensures.bind_any fun _ _ => Ensures.pure (tells.accounted same reported)

/-! ## Records -/

def beginBanner : Bytes := ascii "[exec] ++++++++Begin executing command++++++++"
def endBanner : Bytes := ascii "[exec] ++++++++End executing command++++++++"

/-- The record says neither that an execution begins nor that one ends. -/
def NoBanner (record : Log.Record) : Prop :=
  record.message ≠ beginBanner ∧ record.message ≠ endBanner

/-- Where the banners have a plus sign, other records of an execution have a letter. -/
theorem noBanner_of_letter {level : Log.Level} (letter : UInt8) (isLetter : letter ≠ 43)
    (rest : Bytes) : NoBanner ⟨level, ascii "[exec] " ++ letter :: rest⟩ := by
  constructor
  · intro same
    have told : some letter = some 43 := congrArg (fun text : Bytes => text[7]?) same
    exact isLetter (Option.some.inj told)
  · intro same
    have told : some letter = some 43 := congrArg (fun text : Bytes => text[7]?) same
    exact isLetter (Option.some.inj told)

/-- The handler of a request only logs, and it logs only such records. -/
def Request.Says (request : Request) (name : Bytes) (said : Log.Record → Prop) : Prop :=
  ∀ handler ∈ request.onLine, ∀ text, Log.Logs name said (handler text)

section

variable {name : Bytes} {allowed : Log.Record → Prop}

theorem logs_step {handler : LineHandler} (logs : ∀ text, Log.Logs name allowed (handler text))
    (reading : Reading) (stream : Stream) :
    Log.Logs name allowed (reading.step handler stream) := by
  unfold Reading.step
  dsimp only
  split
  · split <;> exact Log.Logs.pure _
  · refine (logs _).bind fun fault => ?_
    cases fault <;> exact Log.Logs.pure _
  · exact Log.Logs.pure _
  · exact Log.Logs.pure _

theorem logs_goOn {handler : LineHandler} (logs : ∀ text, Log.Logs name allowed (handler text))
    (reading : Reading) (turns : List Stream) :
    Log.Logs name allowed (reading.goOn handler turns) := by
  induction turns generalizing reading with
  | nil => exact Log.Logs.pure reading
  | cons stream rest ih => exact (logs_step logs reading stream).bind ih

theorem logs_captured (request : Request) (mode : Shell.Dispatch) (limit : Int) (run : ChildRun) :
    Log.Logs name allowed (captured request mode limit run) :=
  Log.Logs.quiet (keeps_captured (fun _ _ => rfl) request mode limit run)

variable (others : ∀ record, NoBanner record → allowed record)

include others

theorem logs_streamed {handler : LineHandler}
    (logs : ∀ text, Log.Logs name allowed (handler text)) (mode : Shell.Dispatch) (limit : Int)
    (run : ChildRun) : Log.Logs name allowed (streamed handler mode limit run) := by
  unfold streamed
  refine (logs_goOn logs _ _).bind fun reading => ?_
  have complains : ∀ text, Log.Logs name allowed
      (Log.warn (ascii "[exec] line callback failed: " ++ text)) :=
    fun text => Log.logs_log (others _ (noBanner_of_letter 108 (by decide) _))
  dsimp only
  split
  · refine (complains _).bind fun _ => ?_
    cases run.ending <;> exact Log.Logs.pure _
  · cases run.ending <;> exact Log.Logs.pure _

theorem logs_attempt (programs : Programs) (executor : Executor) {request : Request}
    (spoken : request.Says name allowed) (directory : Bytes) (limit : Int) :
    Log.Logs name allowed (attempt programs executor request directory limit) := by
  unfold attempt
  refine Log.Logs.bind (Log.Logs.quiet fun _ => rfl) fun host => ?_
  dsimp only
  split
  · exact Log.Logs.pure _
  · refine Log.Logs.bind (Log.Logs.quiet fun _ => rfl) fun launched => ?_
    cases launched with
    | error reason => exact Log.Logs.pure _
    | ok run =>
        dsimp only
        split
        · rename_i handler isHandler
          have logs := spoken handler isHandler
          exact (logs_streamed others logs _ _ _).bind fun _ => Log.Logs.pure _
        · exact (logs_captured _ _ _ _).bind fun _ => Log.Logs.pure _

end

namespace Executor

/-- What is done for a request between the two banners. -/
def perform (programs : Programs) (executor : Executor) (request : Request) : Act Result := do
  Log.info (ascii "[exec] Command:" ++ request.description ++ ascii " Workdir: " ++
    executor.directoryOf request ++ ascii ", Timeout: " ++ ofInt (executor.limitOf request) ++
    ascii "s")
  match ← attempt programs executor request (executor.directoryOf request)
      (executor.limitOf request) with
  | .ok result => return result
  | .error fault => do
      Log.error (ascii "[exec] Execution failed after " ++ Result.secondsText 0 ++ ascii "s: " ++
        fault.message)
      return ⟨notStarted, [], ascii "Execution error: " ++ fault.message, 0, request.mode⟩

theorem execute_eq_perform (programs : Programs) (executor : Executor) (request : Request) :
    executor.execute programs request = (do
      Log.info beginBanner
      let result ← executor.perform programs request
      Log.info endBanner
      return result) := by
  unfold execute perform
  simp only [bind_assoc]
  refine bind_congr fun _ => bind_congr fun _ => bind_congr fun answer => ?_
  cases answer with
  | ok result => rfl
  | error fault =>
      simp only [bind_assoc, pure_bind]
      rfl

/-- Between the banners there is what the handler says, and no other banner. -/
theorem logs_perform (programs : Programs) (executor : Executor) {request : Request} {name : Bytes}
    {said : Log.Record → Prop} (spoken : request.Says name said) :
    Log.Logs name (fun record => NoBanner record ∨ said record)
      (executor.perform programs request) := by
  have also : request.Says name fun record => NoBanner record ∨ said record :=
    fun handler isHandler text => (spoken handler isHandler text).mono fun _ => Or.inr
  unfold perform
  refine (Log.logs_log (Or.inl ?_)).bind fun _ => ?_
  · simp only [List.append_assoc]
    exact noBanner_of_letter 67 (by decide) _
  · refine (logs_attempt (fun _ => Or.inl) programs executor also _ _).bind fun answer => ?_
    cases answer with
    | ok result => exact Log.Logs.pure result
    | error fault =>
        refine (Log.logs_log (Or.inl ?_)).bind fun _ => Log.Logs.pure _
        simp only [List.append_assoc]
        exact noBanner_of_letter 69 (by decide) _

end Executor

/-- **Executing a request comes to a result that accounts for it, between two banners**:
no other is logged but by the handler of the request itself. -/
theorem execute_accounted {programs : Programs} (report : programs.Report) (executor : Executor)
    (request : Request) (host : Host) :
    Ensures (executor.execute programs request) host fun result after =>
      Accounted request ((executor.start programs request).run host).1 result ∧
        ∀ name said, request.Says name said →
          ∃ between, (∀ record ∈ between, NoBanner record ∨ said record) ∧
            Log.Wrote name ([⟨.info, beginBanner⟩] ++ between ++ [⟨.info, endBanner⟩])
              host after := by
  constructor
  · have told : ∀ mode run, ((executor.start programs request).run host).1 = .ok (mode, run) →
        mode = request.mode ∧ ∀ status, run.ending = .reaped status → IsReported status := by
      intro mode run started
      obtain ⟨same, launch, files, ran⟩ := launchRequest_ends programs executor request
        (executor.directoryOf request) (executor.limitOf request)
        ((executor.announce request).run host).2 mode run started
      exact ⟨same, fun status => report _ _ _ run files status ran⟩
    rw [Executor.execute_eq_start]
    exact conclude_accounted _ told _
  · intro name said spoken
    rw [Executor.execute_eq_perform]
    have begun : Log.Wrote name [⟨.info, beginBanner⟩] host ((Log.info beginBanner).run host).2 :=
      Log.wrote_log .info beginBanner host
    obtain ⟨between, records, performed⟩ :=
      executor.logs_perform programs spoken ((Log.info beginBanner).run host).2
    refine ⟨between, records, (begun.trans performed).trans ?_⟩
    exact Log.wrote_log .info endBanner _

/-! ## A child that was killed -/

/-- Programs that complain and are killed, with a dump. -/
def dyingPrograms : Programs := fun host _ _ =>
  (.ok ⟨[(.errors, ascii "dying\n")], [], .reaped 137, 0⟩, host.files)

/-- A request whose lines are logged. -/
def loggedRequest : Request where
  words := [ascii "/bin/true"]
  onLine := some fun text => do
    Log.info (ascii "child: " ++ text)
    return none

def loggingHost : Host :=
  { Host.bare with logger := .standard }

theorem loggedRequest_accounted :
    dyingPrograms.Report ∧ loggedRequest.Says errorStream NoBanner ∧
      Ensures (Executor.execute dyingPrograms ⟨60, ascii "/", ∅⟩ loggedRequest) loggingHost
        fun result after =>
          result.code = 137 ∧ result.mode = .direct ∧
            (after.stream errorStream).length = 4 ∧
            ∃ between, (∀ record ∈ between, NoBanner record) ∧
              Log.Wrote errorStream ([⟨.info, beginBanner⟩] ++ between ++ [⟨.info, endBanner⟩])
                loggingHost after := by
  have report : dyingPrograms.Report := by
    rintro host request limit run files status ran reaped
    cases ran
    cases reaped
    exact .killed 9 (by decide) true
  have spoken : loggedRequest.Says errorStream NoBanner := by
    rintro _ ⟨⟩ text
    refine Log.Logs.bind (Log.logs_log ?_) fun _ => Log.Logs.pure _
    constructor <;>
    · intro same
      have told : some (99 : UInt8) = some 91 := congrArg List.head? same
      exact absurd told (by decide)
  obtain ⟨accounted, records⟩ :=
    execute_accounted report ⟨60, ascii "/", ∅⟩ loggedRequest loggingHost
  obtain ⟨between, quiet, wrote⟩ := records errorStream NoBanner spoken
  refine ⟨report, spoken, by decide +kernel, accounted.mode, by decide +kernel, between, ?_, wrote⟩
  exact fun record member => (quiet record member).elim id id

end Exec

end Assay
