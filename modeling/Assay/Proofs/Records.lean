/-
# Assay.Proofs.Records -- what an act logs

`Wrote name records host after` says that between two hosts these records were logged, as
far as the stream of a name shows it: each stands in it as often as the log has that
stream for a sink, and not at all when it is below the threshold; what decides that is
the same in both hosts.  `Logs name allowed act` says of an act that it logs records of
one kind only.  Both compose along the steps of an act, and `Log.log` logs the record it
is given (`wrote_log`).
-/
import Assay.Proofs.Acts

namespace Assay

set_option autoImplicit false

open Bytes

/-- What was written to a stream. -/
def Host.stream (host : Host) (name : Bytes) : List Bytes :=
  (host.streams.get? name).getD []

namespace Log

/-- A record, as the log is given it. -/
structure Record where
  level : Level
  message : Bytes
  deriving DecidableEq, Repr

/-- How often records go to a stream. -/
def Logger.copies (logger : Logger) (name : Bytes) : Nat :=
  logger.sinks.count (.stream name)

/-- What a stream gets of a record. -/
def Record.pieces (record : Record) (host : Host) (name : Bytes) : List Bytes :=
  if record.level.rank < host.logger.threshold.rank then []
  else List.replicate (host.logger.copies name) (recordText host.now record.level record.message)

/-- Between the hosts these records were logged, and nothing else was written to the
stream. -/
structure Wrote (name : Bytes) (records : List Record) (host after : Host) : Prop where
  stream : after.stream name =
    host.stream name ++ records.flatMap fun record => record.pieces host name
  now : after.now = host.now
  threshold : after.logger.threshold = host.logger.threshold
  copies : after.logger.copies name = host.logger.copies name

/-- The act logs records of this kind, and writes nothing else to the stream. -/
def Logs {α : Type} (name : Bytes) (allowed : Record → Prop) (act : Act α) : Prop :=
  ∀ host, ∃ records, (∀ record ∈ records, allowed record) ∧ Wrote name records host (act.run host).2

variable {name : Bytes}

/-! ## Composition -/

theorem Wrote.nothing {host after : Host} (stream : after.stream name = host.stream name)
    (now : after.now = host.now) (logger : after.logger = host.logger) :
    Wrote name [] host after where
  stream := by simp [stream]
  now := now
  threshold := by rw [logger]
  copies := by rw [logger]

/-- What is logged first comes first. -/
theorem Wrote.trans {host between after : Host} {first second : List Record}
    (start : Wrote name first host between) (rest : Wrote name second between after) :
    Wrote name (first ++ second) host after where
  stream := by
    have same : ∀ record : Record, record.pieces between name = record.pieces host name := by
      intro record
      rw [Record.pieces, Record.pieces, start.now, start.threshold, start.copies]
    rw [rest.stream, start.stream, List.flatMap_append, List.append_assoc]
    simp only [same]
  now := rest.now.trans start.now
  threshold := rest.threshold.trans start.threshold
  copies := rest.copies.trans start.copies

section

variable {α β : Type} {allowed : Record → Prop}

theorem Logs.pure (a : α) : Logs name allowed (pure a : Act α) :=
  fun _ => ⟨[], by simp, .nothing rfl rfl rfl⟩

theorem Logs.bind {act : Act α} {next : α → Act β} (first : Logs name allowed act)
    (second : ∀ a, Logs name allowed (next a)) : Logs name allowed (act >>= next) := by
  intro host
  obtain ⟨early, earlyAllowed, started⟩ := first host
  obtain ⟨late, lateAllowed, ended⟩ := second (act.run host).1 (act.run host).2
  refine ⟨early ++ late, ?_, started.trans ended⟩
  intro record member
  rcases List.mem_append.1 member with isEarly | isLate
  · exact earlyAllowed record isEarly
  · exact lateAllowed record isLate

/-- An act that keeps streams, log and time logs nothing. -/
theorem Logs.quiet {act : Act α}
    (keeps : Keeps (fun host => (host.streams, host.now, host.logger)) act) :
    Logs name allowed act := by
  intro host
  have same := keeps host
  simp only [Prod.mk.injEq] at same
  obtain ⟨streams, now, logger⟩ := same
  exact ⟨[], by simp, .nothing (by rw [Host.stream, streams, Host.stream]) now logger⟩

theorem Logs.mono {act : Act α} {weaker : Record → Prop} (logs : Logs name allowed act)
    (follows : ∀ record, allowed record → weaker record) : Logs name weaker act := by
  intro host
  obtain ⟨records, are, wrote⟩ := logs host
  exact ⟨records, fun record member => follows record (are record member), wrote⟩

end

/-! ## Logging -/

theorem stream_insert (host : Host) (name other : Bytes) (pieces : List Bytes) :
    Host.stream { host with streams := host.streams.insert other pieces } name =
      if other = name then pieces else host.stream name := by
  rw [Host.stream, KeyMap.get?_insert]
  split <;> rfl

theorem run_modifyGet {α : Type} (change : Host → α × Host) (host : Host) :
    (modifyGet change : Act α).run host = change host :=
  rfl

/-- One sink gets the text once, and is of the same kind afterwards. -/
theorem writeTo_ends (name text : Bytes) (sink : Sink) (host : Host) :
    Ensures (writeTo text sink) host fun later after =>
      after.stream name = host.stream name ++ (if sink = .stream name then [text] else []) ∧
        (later = .stream name ↔ sink = .stream name) ∧
        after.now = host.now ∧ after.logger = host.logger := by
  cases sink with
  | stream other =>
      refine ⟨?_, Iff.rfl, rfl, rfl⟩
      refine (stream_insert host name other _).trans ?_
      by_cases same : other = name
      · rw [if_pos same, if_pos (by rw [same]), same]
        rfl
      · rw [if_neg same, if_neg (by simpa using same), List.append_nil]
  | file location place =>
      -- a file has no part in the streams, written or not
      have wrote : ∃ place' files, (writeTo text (.file location place)).run host =
          (.file location place', { host with files := files }) := by
        unfold writeTo
        rw [run_modifyGet]
        dsimp only
        split
        · exact ⟨_, _, rfl⟩
        · exact ⟨_, host.files, rfl⟩
      obtain ⟨place', files, ran⟩ := wrote
      rw [Ensures, ran]
      simp [Host.stream]

/-- Every sink gets the text once. -/
theorem writeToAll_ends (name text : Bytes) (sinks : List Sink) (host : Host) :
    Ensures (writeToAll text sinks) host fun later after =>
      after.stream name = host.stream name ++ List.replicate (sinks.count (.stream name)) text ∧
        later.count (.stream name) = sinks.count (.stream name) ∧
        after.now = host.now ∧ after.logger = host.logger := by
  induction sinks generalizing host with
  | nil => exact Ensures.pure ⟨by simp, rfl, rfl, rfl⟩
  | cons sink rest ih =>
      refine Ensures.bind (writeTo_ends name text sink host) ?_
      rintro sink' between ⟨wrote, kind, now, logger⟩
      refine Ensures.bind (ih between) ?_
      rintro rest' after ⟨wroteRest, counts, now', logger'⟩
      refine Ensures.pure ⟨?_, ?_, now'.trans now, logger'.trans logger⟩
      · rw [wroteRest, wrote, List.append_assoc, List.count_cons]
        by_cases same : sink = .stream name
        · simp [same, List.replicate_succ]
        · simp [same]
      · rw [List.count_cons, List.count_cons, counts]
        by_cases same : sink = .stream name
        · simp [same, kind.2 same]
        · simp [same, mt kind.1 same]

/-- **The log gets the record that it is given**, and nothing else. -/
theorem wrote_log (level : Level) (message : Bytes) (host : Host) :
    Wrote name [⟨level, message⟩] host ((log level message).run host).2 := by
  suffices ends : Ensures (log level message) host fun _ => Wrote name [⟨level, message⟩] host from
    ends
  unfold log
  refine Ensures.get_bind ?_
  split
  · rename_i below
    exact Ensures.pure ⟨by simp [Record.pieces, below], rfl, rfl, rfl⟩
  · rename_i above
    refine Ensures.bind
      (writeToAll_ends name (recordText host.now level message) host.logger.sinks host) ?_
    rintro sinks between ⟨wrote, counts, now, logger⟩
    have stream : between.stream name = host.stream name ++
        [⟨level, message⟩].flatMap fun record : Record => record.pieces host name := by
      simpa [Record.pieces, above, Logger.copies] using wrote
    have threshold : between.logger.threshold = host.logger.threshold := by rw [logger]
    exact ⟨stream, now, threshold, counts⟩

theorem logs_log {allowed : Record → Prop} {level : Level} {message : Bytes}
    (isAllowed : allowed ⟨level, message⟩) : Logs name allowed (log level message) :=
  fun host => ⟨[⟨level, message⟩], by simpa using isAllowed, wrote_log level message host⟩

end Log

end Assay
