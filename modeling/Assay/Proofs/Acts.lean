/-
# Assay.Proofs.Acts -- what acts do to the host

`Ensures act host post` says how an act that begins in a host ends: with an answer
and a host as `post` has them.  Most acts change little of the host: `Keeps view act`
says that what `view` shows of it is the same afterwards.  Both compose along the
steps of an act.  Logging keeps all but the files, the streams and the sinks
(`keeps_log`).
-/
import Assay.Host

namespace Assay

set_option autoImplicit false

/-- A host without files, variables, sinks or history. -/
def Host.bare : Host where
  files := .bare false
  directory := []
  environ := []
  shutdown := 0
  now := []
  seed := 0
  logger := ⟨.error, []⟩
  streams := ∅
  launches := []

/-- The same on a storage that is full: a file can be made, and nothing put into it. -/
def Host.full : Host :=
  { Host.bare with files := { FileTree.bare false with storing := fun _ _ => ⟨0, true⟩ } }

/-- The act, begun in this host, answers and leaves the host as `post` says. -/
def Ensures {α : Type} (act : Act α) (host : Host) (post : α → Host → Prop) : Prop :=
  post (act.run host).1 (act.run host).2

/-- What `view` shows of the host is the same after the act. -/
def Keeps {α β : Type} (view : Host → β) (act : Act α) : Prop :=
  ∀ host, view (act.run host).2 = view host

section

variable {α β γ : Type} {view : Host → β}

theorem Ensures.pure {a : α} {host : Host} {post : α → Host → Prop} (here : post a host) :
    Ensures (pure a) host post :=
  here

theorem Ensures.mono {act : Act α} {host : Host} {post weaker : α → Host → Prop}
    (ends : Ensures act host post) (follows : ∀ a after, post a after → weaker a after) :
    Ensures act host weaker :=
  follows _ _ ends

theorem Ensures.bind {act : Act α} {next : α → Act γ} {host : Host} {between : α → Host → Prop}
    {post : γ → Host → Prop} (first : Ensures act host between)
    (second : ∀ a after, between a after → Ensures (next a) after post) :
    Ensures (act >>= next) host post :=
  second _ _ first

/-- What comes next begins where the first act ends. -/
theorem Ensures.bind_run {act : Act α} {next : α → Act γ} {host : Host}
    {post : γ → Host → Prop} (rest : Ensures (next (act.run host).1) (act.run host).2 post) :
    Ensures (act >>= next) host post :=
  rest

/-- What the first act answers and where it ends does not matter. -/
theorem Ensures.bind_any {act : Act α} {next : α → Act γ} {host : Host} {post : γ → Host → Prop}
    (second : ∀ a after, Ensures (next a) after post) : Ensures (act >>= next) host post :=
  second _ _

/-- What comes next is done with the answer and in the host of the first act. -/
theorem act_run_bind (act : Act α) (next : α → Act γ) (host : Host) :
    (act >>= next).run host = (next (act.run host).1).run (act.run host).2 :=
  rfl

theorem Ensures.get_bind {next : Host → Act γ} {host : Host} {post : γ → Host → Prop}
    (rest : Ensures (next host) host post) : Ensures (get >>= next) host post :=
  rest

theorem Keeps.pure (a : α) : Keeps view (pure a : Act α) :=
  fun _ => rfl

theorem Keeps.bind {act : Act α} {next : α → Act γ} (first : Keeps view act)
    (second : ∀ a, Keeps view (next a)) : Keeps view (act >>= next) := by
  intro host
  exact (second (act.run host).1 (act.run host).2).trans (first host)

theorem Keeps.ensures {act : Act α} (keeps : Keeps view act) (host : Host) :
    Ensures act host fun _ after => view after = view host :=
  keeps host

theorem keeps_modifyGet {change : Host → α × Host}
    (same : ∀ host, view (change host).2 = view host) :
    Keeps view (modifyGet change : Act α) :=
  same

/-! ## Acts on a state that may fail -/

theorem ok_of_toOption_eq_some {ε α : Type} {answer : Except ε α} {a : α}
    (some' : answer.toOption = some a) : answer = .ok a := by
  cases answer with
  | error fault => cases some'
  | ok b =>
      cases some'
      rfl

/-- What comes next begins with the state and in the host that the first part leaves, unless
that failed. -/
theorem run_failing_bind {ε σ : Type} (first : ExceptT ε (StateT σ Act) α)
    (next : α → ExceptT ε (StateT σ Act) β) (state : σ) (host : Host) :
    ((first >>= next).run.run state).run host =
      match (first.run.run state).run host with
      | ((.ok a, later), after) => ((next a).run.run later).run after
      | ((.error fault, later), after) => ((.error fault, later), after) := by
  rw [ExceptT.run_bind, StateT.run_bind, StateT.run_bind]
  rcases (first.run.run state).run host with ⟨⟨a | a, later⟩, after⟩ <;> rfl

/-! ## Logging -/

namespace Log

variable (stable : ∀ (host : Host) files logger streams,
  view { host with files := files, logger := logger, streams := streams } = view host)

include stable

theorem keeps_writeTo (text : Bytes) (sink : Sink) : Keeps view (writeTo text sink) := by
  cases sink with
  | stream name =>
      refine Keeps.bind (keeps_modifyGet fun host => ?_) fun _ => Keeps.pure _
      exact stable host host.files host.logger _
  | file location place =>
      refine keeps_modifyGet fun host => ?_
      dsimp only
      split
      · rename_i files _
        exact stable host files host.logger host.streams
      · rfl

theorem keeps_writeToAll (text : Bytes) (sinks : List Sink) :
    Keeps view (writeToAll text sinks) := by
  induction sinks with
  | nil => exact Keeps.pure []
  | cons sink rest ih =>
      refine Keeps.bind (keeps_writeTo stable text sink) fun sink => ?_
      exact Keeps.bind ih fun sinks => Keeps.pure _

/-- Logging keeps all but the files, the sinks and the streams. -/
theorem keeps_log (level : Level) (message : Bytes) : Keeps view (log level message) := by
  refine Keeps.bind (keeps_modifyGet fun _ => rfl) fun host => ?_
  split
  · exact Keeps.pure ()
  · refine Keeps.bind (keeps_writeToAll stable _ _) fun sinks => keeps_modifyGet fun host => ?_
    exact stable host host.files _ host.streams

end Log

end

end Assay
