/-
# Assay.Proofs.Streaming -- what two readers hand on

A step of a reader takes a line, hands it on, or goes on behind what went wrong with it.  Whichever
it is, the text that there will be in the end stays the same, and so do the lines that were handed
on together with those that are still to be (`Reader.Advances`).  The steps of the other reader
change nothing of that, so it holds for any steps of the two in any order, and behind their
schedule both are at rest (`readBoth_ends`).

To execute a request whose lines are handed on is therefore to start it, to call the handler with
all lines, those of either stream in order, and to answer a result that depends neither on the
order in which the readers go on nor on what the handler answers (`execute_streams`).
-/
import Assay.Proofs.Execution
import Assay.Proofs.Lines

namespace Assay

set_option autoImplicit false

open Bytes

/-- Programs that do the same, but for whose turn it is to read what they write. -/
def Programs.turned (programs : Programs) (turns : Host → Launch → Option Int → List Stream) :
    Programs :=
  fun host request limit =>
    let (run, files) := programs host request limit
    (run.map fun run => { run with turns := turns host request limit }, files)

theorem launch_turned (programs : Programs) (turns : Host → Launch → Option Int → List Stream)
    (request : Launch) (limit : Option Int) (host : Host) :
    (launch (programs.turned turns) request limit).run host =
      let (run, after) := (launch programs request limit).run host
      (run.map fun run => { run with turns := turns host request limit }, after) :=
  rfl

namespace Exec

/-! ## Calls of the handler -/

/-- Call a handler with lines in this order, whatever it answers. -/
def handOver (handler : LineHandler) : List (Stream × Bytes) → Act Unit
  | [] => return ()
  | (stream, line) :: rest => do
      let _ ← handler (taggedLine stream line)
      handOver handler rest

theorem handOver_append (handler : LineHandler) (first second : List (Stream × Bytes))
    (host : Host) :
    (handOver handler (first ++ second)).run host =
      (handOver handler second).run ((handOver handler first).run host).2 := by
  induction first generalizing host with
  | nil => rfl
  | cons piece rest ih => exact ih _

/-- The lines of one stream among those of both. -/
def linesOf (stream : Stream) (order : List (Stream × Bytes)) : List Bytes :=
  (order.filter fun piece => piece.1 == stream).map (·.2)

theorem linesOf_append (stream : Stream) (first second : List (Stream × Bytes)) :
    linesOf stream (first ++ second) = linesOf stream first ++ linesOf stream second := by
  rw [linesOf, List.filter_append, List.map_append]
  rfl

theorem linesOf_self (stream : Stream) (lines : List Bytes) :
    linesOf stream (lines.map fun line => (stream, line)) = lines := by
  simp [linesOf, List.filter_map, Function.comp_def]

theorem linesOf_other {stream other : Stream} (different : stream ≠ other) (lines : List Bytes) :
    linesOf other (lines.map fun line => (stream, line)) = [] := by
  simp [linesOf, different]

/-! ## One reader -/

namespace Reader

variable {reader between later : Reader}

/-- The lines that are still to be handed on. -/
def left (reader : Reader) : List Bytes :=
  match reader.errand with
  | .handOn line => line :: reader.coming
  | _ => reader.coming

/-- The text when all lines are taken. -/
def whole (reader : Reader) : Bytes :=
  reader.text ++ reader.coming.flatMap fun line => line ++ [newline]

/-- A reader takes a rest only when no lines are left. -/
def Sound (reader : Reader) : Prop :=
  reader.errand = .rest → reader.coming = []

/-- A reader hands on these lines in at least so many steps. -/
structure Advances (reader : Reader) (lines : List Bytes) (count : Nat) (later : Reader) :
    Prop where
  whole : later.whole = reader.whole
  left : lines ++ later.left = reader.left
  steps : later.steps ≤ reader.steps - count
  sound : reader.Sound → later.Sound

theorem Advances.refl (reader : Reader) : reader.Advances [] 0 reader :=
  ⟨rfl, rfl, Nat.le_refl _, id⟩

theorem Advances.trans {lines more : List Bytes} {count further : Nat}
    (first : reader.Advances lines count between) (second : between.Advances more further later) :
    reader.Advances (lines ++ more) (count + further) later where
  whole := second.whole.trans first.whole
  left := by rw [List.append_assoc, second.left, first.left]
  steps := by
    have firstSteps := first.steps
    have secondSteps := second.steps
    omega
  sound := fun sound => second.sound (first.sound sound)

/-- A reader that has no more steps before it has handed on all lines. -/
theorem Advances.done {lines : List Bytes} {count : Nat}
    (advances : reader.Advances lines count later) (sound : reader.Sound)
    (enough : reader.steps ≤ count) :
    lines = reader.left ∧ later.text = reader.whole := by
  have none : later.steps = 0 := by
    have steps := advances.steps
    omega
  have resting : later.errand = .rest := by
    unfold Reader.steps at none
    split at none
    · omega
    · omega
    · omega
    · assumption
  have nothing : later.coming = [] := advances.sound sound resting
  have left := advances.left
  have whole := advances.whole
  rw [Reader.left, resting, nothing, List.append_nil] at left
  rw [Reader.whole, nothing, List.flatMap_nil, List.append_nil] at whole
  exact ⟨left, whole⟩

section

variable (coming : List Bytes) (line text fault : Bytes)

theorem advances_end : (⟨[], .take, text⟩ : Reader).Advances [] 1 ⟨[], .rest, text⟩ :=
  ⟨rfl, rfl, Nat.le_refl _, fun _ _ => rfl⟩

theorem advances_take :
    (⟨line :: coming, .take, text⟩ : Reader).Advances [] 1
      ⟨coming, .handOn line, text ++ line ++ [newline]⟩ := by
  refine ⟨?_, rfl, ?_, nofun⟩
  · simp [Reader.whole]
  · simp only [Reader.steps, List.length_cons]
    omega

/-- A line is handed on, whatever comes of that. -/
theorem advances_handOn (answer : Option Bytes) :
    (⟨coming, .handOn line, text⟩ : Reader).Advances [line] 1
      ⟨coming, answer.elim .take .complain, text⟩ := by
  cases answer with
  | none => exact ⟨rfl, rfl, by simp only [Reader.steps, Option.elim]; omega, nofun⟩
  | some fault => exact ⟨rfl, rfl, by simp only [Reader.steps, Option.elim]; omega, nofun⟩

theorem advances_complain :
    (⟨coming, .complain fault, text⟩ : Reader).Advances [] 1 ⟨coming, .take, text⟩ :=
  ⟨rfl, rfl, by simp only [Reader.steps]; omega, nofun⟩

theorem advances_rest :
    (⟨coming, .rest, text⟩ : Reader).Advances [] 1 ⟨coming, .rest, text⟩ :=
  ⟨rfl, rfl, Nat.zero_le _, id⟩

end

end Reader

/-! ## Both of them -/

namespace Reading

variable {handler : LineHandler} {reading : Reading}

theorem reader_set_self (reading : Reading) (reader : Reader) (stream : Stream) :
    (reading.set reader stream).reader stream = reader := by
  cases stream <;> rfl

theorem reader_set_other (reading : Reading) (reader : Reader) {stream other : Stream}
    (different : stream ≠ other) :
    (reading.set reader stream).reader other = reading.reader other := by
  cases stream <;> cases other
  · exact absurd rfl different
  · rfl
  · rfl
  · exact absurd rfl different

/-- What went wrong is nothing to the readers. -/
theorem reader_faulty (reading : Reading) (fault : Bytes) (stream : Stream) :
    reader ⟨reading.output, reading.errors, fault⟩ stream = reading.reader stream := by
  cases stream <;> rfl

/-- The readers go on by these turns, and meanwhile lines are handed over in this order. -/
structure Advances (handler : LineHandler) (reading : Reading) (host : Host)
    (turns : List Stream) (order : List (Stream × Bytes)) (later : Reading) (after : Host) :
    Prop where
  handed : after = ((handOver handler order).run host).2
  reader : ∀ stream, (reading.reader stream).Advances (linesOf stream order) (turns.count stream)
    (later.reader stream)

theorem Advances.refl (handler : LineHandler) (reading : Reading) (host : Host) :
    reading.Advances handler host [] [] reading host :=
  ⟨rfl, fun _ => .refl _⟩

theorem Advances.trans {between later : Reading} {host met after : Host}
    {turns further : List Stream} {order more : List (Stream × Bytes)}
    (first : reading.Advances handler host turns order between met)
    (second : between.Advances handler met further more later after) :
    reading.Advances handler host (turns ++ further) (order ++ more) later after where
  handed := by rw [handOver_append, ← first.handed, second.handed]
  reader := fun stream => by
    rw [linesOf_append, List.count_append]
    exact (first.reader stream).trans (second.reader stream)

/-- A step of one reader is none of the other. -/
theorem Advances.of_step {host : Host} {stream : Stream} {later : Reading} (lines : List Bytes)
    (own : (reading.reader stream).Advances lines 1 (later.reader stream))
    (others : ∀ other, stream ≠ other → later.reader other = reading.reader other) :
    reading.Advances handler host [stream] (lines.map fun line => (stream, line)) later
      ((handOver handler (lines.map fun line => (stream, line))).run host).2 := by
  refine ⟨rfl, fun other => ?_⟩
  by_cases same : stream = other
  · subst same
    rw [linesOf_self, List.count_singleton_self]
    exact own
  · rw [linesOf_other same, List.count_singleton, if_neg (by simpa using same), others other same]
    exact .refl _

theorem Advances.of_set {host : Host} {stream : Stream} {reader : Reader} (lines : List Bytes)
    (own : (reading.reader stream).Advances lines 1 reader) :
    reading.Advances handler host [stream] (lines.map fun line => (stream, line))
      (reading.set reader stream)
      ((handOver handler (lines.map fun line => (stream, line))).run host).2 :=
  .of_step lines (by rwa [reader_set_self]) fun _ => reader_set_other reading reader

/-- **One step** of either reader. -/
theorem step_advances (handler : LineHandler) (reading : Reading) (stream : Stream) (host : Host) :
    Ensures (reading.step handler stream) host fun later after =>
      ∃ order, reading.Advances handler host [stream] order later after := by
  unfold step
  dsimp only
  rcases isReader : reading.reader stream with ⟨coming, errand, text⟩
  cases errand with
  | take =>
      cases coming with
      | nil =>
          refine Ensures.pure ⟨_, Advances.of_set [] ?_⟩
          rw [isReader]
          exact Reader.advances_end text
      | cons line rest =>
          refine Ensures.pure ⟨_, Advances.of_set [] ?_⟩
          rw [isReader]
          exact Reader.advances_take rest line text
  | handOn line =>
      refine Ensures.bind_run ?_
      have own := Reader.advances_handOn coming line text
        ((handler (taggedLine stream line)).run host).1
      rw [← isReader] at own
      generalize ((handler (taggedLine stream line)).run host).1 = answer at own ⊢
      cases answer with
      | none => exact Ensures.pure ⟨_, Advances.of_set [line] own⟩
      | some fault => exact Ensures.pure ⟨_, Advances.of_set [line] own⟩
  | complain fault =>
      refine Ensures.pure ⟨_, Advances.of_step [] ?_ fun other different => ?_⟩
      · rw [reader_faulty (reading.set _ stream), reader_set_self, isReader]
        exact Reader.advances_complain coming text fault
      · rw [reader_faulty (reading.set _ stream), reader_set_other reading _ different]
  | rest =>
      refine Ensures.pure ⟨_, Advances.of_step [] ?_ fun _ _ => rfl⟩
      rw [isReader]
      exact Reader.advances_rest coming text

/-- **Steps of both readers**, in any order. -/
theorem goOn_advances (handler : LineHandler) (reading : Reading) (turns : List Stream)
    (host : Host) :
    Ensures (reading.goOn handler turns) host fun later after =>
      ∃ order, reading.Advances handler host turns order later after := by
  induction turns generalizing reading host with
  | nil => exact Ensures.pure ⟨[], .refl handler reading host⟩
  | cons stream rest ih =>
      refine Ensures.bind (step_advances handler reading stream host) ?_
      rintro between met ⟨order, first⟩
      refine (ih between met).mono ?_
      rintro later after ⟨more, second⟩
      exact ⟨order ++ more, first.trans second⟩

theorem reader_start (run : ChildRun) (stream : Stream) :
    (start run).reader stream = ⟨rawLines (run.on stream), .take, []⟩ := by
  cases stream <;> rfl

/-- The schedule has as many turns for each reader as it has steps before it. -/
theorem steps_le_count_schedule (reading : Reading) (turns : List Stream) (stream : Stream) :
    (reading.reader stream).steps ≤ (reading.schedule turns).count stream := by
  unfold schedule
  rw [List.count_append, List.count_append]
  cases stream with
  | output =>
      rw [List.count_replicate_self]
      exact Nat.le_trans (Nat.le_add_left _ _) (Nat.le_add_right _ _)
  | errors =>
      rw [List.count_replicate_self]
      exact Nat.le_add_left _ _

end Reading

/-- **Two readers hand on all lines**, those of either stream in order, and read all that there
is. -/
theorem readBoth_ends (handler : LineHandler) (run : ChildRun) (host : Host) :
    Ensures (readBoth handler run) host fun reading after => ∃ order,
      (∀ stream, linesOf stream order = rawLines (run.on stream)) ∧
        after = ((handOver handler order).run host).2 ∧
        ∀ stream, (reading.reader stream).text = closeLine (run.on stream) := by
  unfold readBoth
  refine (Reading.goOn_advances handler _ _ host).mono ?_
  rintro later after ⟨order, advances⟩
  have done : ∀ stream, linesOf stream order = rawLines (run.on stream) ∧
      (later.reader stream).text = closeLine (run.on stream) := by
    intro stream
    have enough := Reading.steps_le_count_schedule (.start run) run.turns stream
    have own := advances.reader stream
    rw [Reading.reader_start] at own enough
    obtain ⟨lines, text⟩ := own.done nofun enough
    rw [Reader.whole, List.nil_append, flatMap_rawLines] at text
    exact ⟨lines, text⟩
  exact ⟨order, fun stream => (done stream).1, advances.handed, fun stream => (done stream).2⟩

/-! ## The result -/

/-- Say in the log what went wrong first, if anything did. -/
def reportFault (fault : Bytes) : Act Unit :=
  if fault.isEmpty then return ()
  else Log.warn (ascii "[exec] line callback failed: " ++ fault)

/-- The result of a run that ended and whose lines were handed on. -/
def streamedResult (mode : Shell.Dispatch) (run : ChildRun) (status : Int) : Result :=
  ⟨exitCode status, closeLine (run.on .output), closeLine (run.on .errors), run.seconds, mode⟩

theorem streamed_eq (handler : LineHandler) (mode : Shell.Dispatch) (limit : Int) {run : ChildRun}
    {status : Int} (ended : run.ending = .reaped status) :
    streamed handler mode limit run = (do
      let reading ← readBoth handler run
      reportFault reading.fault
      return ⟨exitCode status, reading.output.text, reading.errors.text, run.seconds, mode⟩) := by
  unfold streamed reportFault
  refine bind_congr fun reading => ?_
  rw [ended]
  by_cases quiet : reading.fault.isEmpty = true
  · simp [quiet]
  · simp [quiet]

theorem streamed_run (handler : LineHandler) (mode : Shell.Dispatch) (limit : Int) {run : ChildRun}
    {status : Int} (ended : run.ending = .reaped status) (host : Host) :
    ∃ order fault, (∀ stream, linesOf stream order = rawLines (run.on stream)) ∧
      (streamed handler mode limit run).run host = (do
        handOver handler order
        reportFault fault
        return streamedResult mode run status : Act Result).run host := by
  obtain ⟨order, lines, handed, text⟩ := readBoth_ends handler run host
  let reading := ((readBoth handler run).run host).1
  have output : reading.output.text = closeLine (run.on .output) := text .output
  have errors : reading.errors.text = closeLine (run.on .errors) := text .errors
  refine ⟨order, reading.fault, lines, ?_⟩
  rw [streamed_eq handler mode limit ended, streamedResult, ← output, ← errors]
  let report : Act Result := do
    reportFault reading.fault
    return ⟨exitCode status, reading.output.text, reading.errors.text, run.seconds, mode⟩
  -- both go on in the same host
  exact congrArg report.run handed

/-! ## A whole execution -/

namespace Executor

variable {programs : Programs} {executor : Executor} {request : Request} {host : Host}
  {mode : Shell.Dispatch} {run : ChildRun} {status : Int}

/-- Whose turn it will be is nothing to the start of a request. -/
theorem launchRequest_turned (turns : Host → Launch → Option Int → List Stream)
    {directory : Bytes} {limit : Int}
    (launched : ((launchRequest programs executor request directory limit).run host).1 =
      .ok (mode, run)) :
    ∃ order, ((launchRequest (programs.turned turns) executor request directory limit).run host).1 =
      .ok (mode, { run with turns := order }) := by
  unfold launchRequest at launched ⊢
  simp only [StateT.run_bind, StateT.run_get, pure_bind] at launched ⊢
  generalize Environment.build host.environ [some executor.environment, some request.environment]
    true = environment at launched ⊢
  cases prepared : prepare host request environment.searchPath with
  | error fault =>
      rw [prepared] at launched
      cases launched
  | ok invocation =>
      rw [prepared] at launched
      dsimp only at launched ⊢
      generalize ({ program := invocation.program, arguments := invocation.arguments
                    environ := environment.toEntries, directory
                    input := request.input.getD [] } : Launch) = asked at launched ⊢
      rw [act_run_bind] at launched ⊢
      rw [launch_turned]
      generalize (launch programs asked (some limit)).run host = ended at launched ⊢
      obtain ⟨reason | ran, after⟩ := ended
      · cases launched
      · cases launched
        exact ⟨_, rfl⟩

theorem start_turned (turns : Host → Launch → Option Int → List Stream)
    (started : ((executor.start programs request).run host).1 = .ok (mode, run)) :
    ∃ order, ((executor.start (programs.turned turns) request).run host).1 =
      .ok (mode, { run with turns := order }) := by
  unfold start at started ⊢
  rw [act_run_bind] at started ⊢
  exact launchRequest_turned turns started

/-- Between its start and its end an execution hands on the lines. -/
theorem execute_hands_on {handler : LineHandler} (streams : request.onLine = some handler)
    (started : ((executor.start programs request).run host).1 = .ok (mode, run))
    (ended : run.ending = .reaped status) :
    ∃ order fault, (∀ stream, linesOf stream order = rawLines (run.on stream)) ∧
      (executor.execute programs request).run host = (do
        let _ ← executor.start programs request
        handOver handler order
        reportFault fault
        Log.info endBanner
        return streamedResult mode run status : Act Result).run host := by
  obtain ⟨order, fault, lines, streamed⟩ := streamed_run handler mode (executor.limitOf request)
    ended ((executor.start programs request).run host).2
  refine ⟨order, fault, lines, ?_⟩
  have concludes : conclude request (executor.limitOf request) (.ok (mode, run)) = (do
      let result ← Exec.streamed handler mode (executor.limitOf request) run
      Log.info endBanner
      return result) := by
    unfold conclude
    rw [streams]
    rfl
  rw [execute_eq_start, act_run_bind, started, concludes, act_run_bind, streamed]
  rfl

/-- **What comes of a request whose lines are handed on**, when its child ends.  The handler is
called with all lines, those of either stream in order, and the result has what was written to
each, with its last line ended.  That is so whatever the handler answers, and whoever's turn it
was to read. -/
theorem execute_streams {handler : LineHandler} (streams : request.onLine = some handler)
    (started : ((executor.start programs request).run host).1 = .ok (mode, run))
    (ended : run.ending = .reaped status) :
    (∃ order fault, (∀ stream, linesOf stream order = rawLines (run.on stream)) ∧
      (executor.execute programs request).run host = (do
        let _ ← executor.start programs request
        handOver handler order
        reportFault fault
        Log.info endBanner
        return streamedResult mode run status : Act Result).run host) ∧
      ∀ turns other,
        ((executor.execute (programs.turned turns)
          { request with onLine := some other }).run host).1 = streamedResult mode run status := by
  refine ⟨execute_hands_on streams started ended, fun turns other => ?_⟩
  obtain ⟨later, turned⟩ := start_turned turns started
  obtain ⟨order, fault, -, executes⟩ :=
    @execute_hands_on (programs.turned turns) executor { request with onLine := some other } host
      mode { run with turns := later } status other rfl turned ended
  rw [executes]
  rfl

end Executor

/-! ## Two streams at once -/

/-- A child that writes to both streams, and does not end its last line of output. -/
def chattingRun : ChildRun where
  written := [(.output, ascii "a \r\n\nb"), (.errors, ascii "c\n"), (.output, ascii "c")]
  turns := [.errors, .output, .output, .errors]
  ending := .reaped 256
  seconds := 0

def chattingPrograms : Programs :=
  fun host _ _ => (.ok chattingRun, host.files)

/-- A handler that writes down what it is given, and then fails. -/
def chattingHandler : LineHandler := fun text => do
  emit (ascii "lines") text
  return some text

def chattingRequest : Request where
  words := [ascii "/bin/true"]
  onLine := some chattingHandler

theorem chattingRequest_streams :
    let executor : Executor := ⟨60, ascii "/", ∅⟩
    let result : Result := ⟨1, ascii "a \r\n\nbc\n", ascii "c\n", 0, .direct⟩
    (∃ order fault,
      linesOf .output order = [ascii "a \r", [], ascii "bc"] ∧ linesOf .errors order = [ascii "c"] ∧
        (executor.execute chattingPrograms chattingRequest).run .bare = (do
          let _ ← executor.start chattingPrograms chattingRequest
          handOver chattingHandler order
          reportFault fault
          Log.info endBanner
          return result : Act Result).run .bare) ∧
      ((executor.execute (chattingPrograms.turned fun _ _ _ => [.output])
        { chattingRequest with onLine := some fun _ => return none }).run .bare).1 = result := by
  intro executor result
  have started : ((executor.start chattingPrograms chattingRequest).run .bare).1 =
      .ok (.direct, chattingRun) := rfl
  obtain ⟨⟨order, fault, lines, executes⟩, same⟩ := Executor.execute_streams rfl started rfl
  exact ⟨⟨order, fault, lines .output, lines .errors, executes⟩, same _ _⟩

end Exec

end Assay
