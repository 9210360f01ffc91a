/-
# Assay.Proofs.Requests -- one request does not see another

A rewarder is asked to evaluate one patch after the other, and keeps a dataset meanwhile that
it reads in the way of a store: who asks such a store for a member that is not there has it
made (`Json.reach`).  It asks for none that it has not seen before, so the dataset stays as it
is (`lookUp_run`), and serving a request is evaluating with the dataset at hand (`serve_run`).
Nothing is asked here of the library that reads and writes JSON; a descriptor that it does not
write ends the request, and leaves no trace either.

`descriptorFor_eq_error_iff` says what is refused, and why.  Both meet in `serveAll_isolated`:
a refused request leaves no trace, and what is sent for any other is made of the entry of its
instance and its own patch, whatever was asked before and happened in between.
-/
import Assay.Proofs.Descriptors

namespace Assay

set_option autoImplicit false

open Bytes

/-- Ask a store for a member as one who would have it made: one that was not there is null,
and there from then on.  A value that cannot hold members is left alone. -/
def Json.reach (key : Bytes) : StateM Json Json := fun store =>
  match store.get? key, store with
  | some value, _ => (value, store)
  | none, .object members => (.null, .object (setMember key .null members))
  | none, .null => (.null, .object [(key, .null)])
  | none, _ => (.null, store)

/-- A member that is there is answered, and nothing is made. -/
theorem Json.reach_run {store value : Json} {key : Bytes} (found : store.get? key = some value) :
    (reach key).run store = (value, store) := by
  change Json.reach key store = _
  unfold Json.reach
  rw [found]

namespace Evaluation

open Exec (Outcome)

variable (library : Json.Library)

/-! ## What is refused -/

/-- The details of an entry, as an object or as the text of one. -/
inductive Details (entry : Json) (members : List (Bytes × Json)) : Prop
  | object (found : entry.get? detailsKey = some (.object members)) (some' : members ≠ [])
  | text (text : Bytes) (found : entry.get? detailsKey = some (.string text)) (some' : text ≠ [])
      (reads : library.parse text = some (.object members))

/-- Why a dataset has nothing to evaluate for an instance. -/
inductive Refuses (dataset : Json) (identifier : Bytes) : RewardError → Prop
  | missing (missing : dataset.get? identifier = none) : Refuses dataset identifier .unknownInstance
  | null (null : dataset.get? identifier = some .null) : Refuses dataset identifier .unknownInstance
  | notObject {entry : Json} (listed : dataset.get? identifier = some entry)
      (notNull : entry ≠ .null) (notObject : ∀ members, entry ≠ .object members) :
      Refuses dataset identifier .detailsEmpty
  | empty {entry : Json} (listed : dataset.get? identifier = some entry) (notNull : entry ≠ .null)
      (empty : entry.get? detailsKey ∈ [none, some .null, some (.string []), some (.object [])]) :
      Refuses dataset identifier .detailsEmpty
  | undecoded {entry raw : Json} (listed : dataset.get? identifier = some entry)
      (found : entry.get? detailsKey = some raw)
      (notEmpty : raw ∉ [Json.null, .string [], .object []])
      (notObject : ∀ members, raw ≠ .object members)
      (notText : ∀ text, raw = .string text → ∀ members, library.parse text ≠ some (.object members)) :
      Refuses dataset identifier .detailsNotObject

variable {library}

theorem detailsOf_eq_ok_iff_details {entry : Json} {members : List (Bytes × Json)} :
    detailsOf library entry = .ok members ↔ Details library entry members := by
  rw [detailsOf_eq_ok_iff]
  constructor
  · rintro (⟨found, some'⟩ | ⟨text, found, some', reads⟩)
    · exact .object found some'
    · exact .text text found some' reads
  · rintro (⟨found, some'⟩ | ⟨text, found, some', reads⟩)
    · exact .inl ⟨found, some'⟩
    · exact .inr ⟨text, found, some', reads⟩

theorem detailsOf_eq_error_iff {entry : Json} {cause : RewardError} :
    detailsOf library entry = .error cause ↔
      (cause = .detailsEmpty ∧
        entry.get? detailsKey ∈ [none, some .null, some (.string []), some (.object [])]) ∨
      (cause = .detailsNotObject ∧ ∃ raw, entry.get? detailsKey = some raw ∧
        raw ∉ [Json.null, .string [], .object []] ∧ (∀ members, raw ≠ .object members) ∧
        ∀ text, raw = .string text → ∀ members, library.parse text ≠ some (.object members)) := by
  unfold detailsOf
  cases entry.get? detailsKey with
  | none => simp [eq_comm]
  | some details =>
      cases details with
      | null => simp [eq_comm]
      | object inner => cases inner <;> simp [eq_comm]
      | string text =>
          cases text with
          | nil => simp [eq_comm]
          | cons b rest =>
              cases read : library.parse (b :: rest) with
              | none => simp [read, @eq_comm _ _ cause]
              | some value => cases value <;> simp [read, @eq_comm _ _ cause]
      | _ => simp [eq_comm]

section

variable {dataset : Json} {identifier patch : Bytes}

/-- An entry that is not null is read for its details. -/
theorem descriptorFor_of_listed {entry : Json} (listed : dataset.get? identifier = some entry)
    (notNull : entry ≠ .null) :
    descriptorFor library dataset identifier patch =
      (detailsOf library entry).map (withPatch · patch) := by
  rw [descriptorFor, listed]
  cases entry with
  | null => exact absurd rfl notNull
  | _ =>
      dsimp only
      cases detailsOf library _ <;> rfl

theorem refuses_iff_of_unlisted {cause : RewardError}
    (unlisted : dataset.get? identifier = none ∨ dataset.get? identifier = some .null) :
    Refuses library dataset identifier cause ↔ cause = .unknownInstance := by
  constructor
  · intro refuses
    have notListed : ∀ entry, dataset.get? identifier = some entry → entry = .null := by
      intro entry listed
      rcases unlisted with missing | null
      · cases missing.symm.trans listed
      · exact Option.some.inj (listed.symm.trans null)
    cases refuses with
    | missing => rfl
    | null => rfl
    | notObject listed notNull => exact absurd (notListed _ listed) notNull
    | empty listed notNull => exact absurd (notListed _ listed) notNull
    | undecoded listed found =>
        rw [notListed _ listed] at found
        cases found
  · rintro rfl
    rcases unlisted with missing | null
    · exact .missing missing
    · exact .null null

theorem refuses_iff_of_listed {entry : Json} {cause : RewardError}
    (listed : dataset.get? identifier = some entry) (notNull : entry ≠ .null) :
    Refuses library dataset identifier cause ↔ detailsOf library entry = .error cause := by
  rw [detailsOf_eq_error_iff]
  constructor
  · intro refuses
    cases refuses with
    | missing missing => cases listed.symm.trans missing
    | null null => exact absurd (Option.some.inj (listed.symm.trans null)) notNull
    | notObject found _ notObject =>
        cases listed.symm.trans found
        refine .inl ⟨rfl, ?_⟩
        cases entry with
        | object members => exact absurd rfl (notObject members)
        | _ => exact List.mem_cons_self
    | empty found _ empty =>
        cases listed.symm.trans found
        exact .inl ⟨rfl, empty⟩
    | undecoded found raw notEmpty notObject notText =>
        cases listed.symm.trans found
        exact .inr ⟨rfl, _, raw, notEmpty, notObject, notText⟩
  · rintro (⟨rfl, empty⟩ | ⟨rfl, raw, found, notEmpty, notObject, notText⟩)
    · exact .empty listed notNull empty
    · exact .undecoded listed found notEmpty notObject notText

/-- **What is refused, and why.**  The patch plays no part in it. -/
theorem descriptorFor_eq_error_iff {cause : RewardError} :
    descriptorFor library dataset identifier patch = .error cause ↔
      Refuses library dataset identifier cause := by
  by_cases isListed : ∃ entry, dataset.get? identifier = some entry ∧ entry ≠ .null
  · obtain ⟨entry, listed, notNull⟩ := isListed
    rw [descriptorFor_of_listed listed notNull, refuses_iff_of_listed listed notNull]
    cases detailsOf library entry <;> simp [Except.map]
  · have unlisted : dataset.get? identifier = none ∨ dataset.get? identifier = some .null := by
      cases listed : dataset.get? identifier with
      | none => exact .inl rfl
      | some entry =>
          have isNull := by_contra fun notNull => isListed ⟨entry, listed, notNull⟩
          exact .inr (congrArg some isNull)
    have unknown : descriptorFor library dataset identifier patch = .error .unknownInstance := by
      rcases unlisted with missing | null
      · rw [descriptorFor, missing]
      · rw [descriptorFor, null]
    rw [refuses_iff_of_unlisted unlisted, unknown]
    exact ⟨fun same => (Except.error.inj same).symm, fun same => congrArg Except.error same.symm⟩

/-- An instance that is not refused has an entry with details, and these and the patch are all
that its descriptor is made of. -/
theorem descriptorFor_eq_ok_iff {descriptor : Json} :
    descriptorFor library dataset identifier patch = .ok descriptor ↔
      ∃ entry members, dataset.get? identifier = some entry ∧ Details library entry members ∧
        descriptor = withPatch members patch := by
  constructor
  · intro made
    cases listed : dataset.get? identifier with
    | none =>
        rw [descriptorFor, listed] at made
        cases made
    | some entry =>
        by_cases null : entry = .null
        · rw [null] at listed
          rw [descriptorFor, listed] at made
          cases made
        · rw [descriptorFor_of_listed listed null] at made
          cases details : detailsOf library entry with
          | error cause =>
              rw [details] at made
              cases made
          | ok members =>
              rw [details] at made
              cases made
              exact ⟨entry, members, rfl, detailsOf_eq_ok_iff_details.1 details, rfl⟩
  · rintro ⟨entry, members, listed, details, rfl⟩
    exact descriptorFor_of_detailsOf listed (detailsOf_eq_ok_iff_details.2 details) patch

/-! ## A dataset that is a store -/

/-- Look an instance up in a dataset from which members are reached. -/
def lookUp (library : Json.Library) (identifier patch : Bytes) :
    StateM Json (Except RewardError Json) := do
  if ((← get).get? identifier).isNone then return .error .unknownInstance
  if (← Json.reach identifier).isNull then return .error .unknownInstance
  let entry ← Json.reach identifier
  return (detailsOf library entry).map (withPatch · patch)

/-- No member is made: the one that is reached is there. -/
theorem lookUp_run (dataset : Json) (identifier patch : Bytes) :
    (lookUp library identifier patch).run dataset =
      (descriptorFor library dataset identifier patch, dataset) := by
  unfold lookUp
  rw [StateT.run_bind]
  change (if (dataset.get? identifier).isNone = true then _ else _ : StateM Json _).run dataset = _
  cases listed : dataset.get? identifier with
  | none =>
      rw [descriptorFor, listed]
      rfl
  | some entry =>
      rw [if_neg (by simp), StateT.run_bind, Json.reach_run listed]
      change (if entry.isNull = true then _ else _ : StateM Json _).run dataset = _
      by_cases null : entry = .null
      · subst null
        rw [descriptorFor, listed]
        rfl
      · have notNull : entry.isNull = false := by
          cases entry with
          | null => exact absurd rfl null
          | _ => rfl
        rw [notNull, if_neg Bool.false_ne_true, StateT.run_bind, Json.reach_run listed,
          descriptorFor_of_listed listed null]
        rfl

end

/-- The details of an entry are those of no other kind: an entry has one at most. -/
theorem Details.unique {entry : Json} {members others : List (Bytes × Json)}
    (details : Details library entry members) (again : Details library entry others) :
    members = others :=
  Except.ok.inj ((detailsOf_eq_ok_iff_details.2 details).symm.trans
    (detailsOf_eq_ok_iff_details.2 again))

/-! ## One request -/

/-- What a service is asked for. -/
structure Request where
  identifier : Bytes
  patch : Bytes
  timeout : Int

variable (library) (programs : Programs)

/-- What is left of an evaluation when its instance was looked up. -/
def Rewarder.send (rewarder : Rewarder) (request : Request) :
    Except RewardError Json → Act (Except Fault Outcome)
  | .error cause => return .ok (.failure cause.message)
  | .ok descriptor =>
      rewarder.sendDescriptor library programs request.identifier request.timeout descriptor

/-- Evaluate as a service whose dataset is a store. -/
def Rewarder.serve (request : Request) : StateT Rewarder Act (Except Fault Outcome) := do
  let rewarder ← get
  let (found, dataset) := (lookUp library request.identifier request.patch).run rewarder.dataset
  set { rewarder with dataset }
  rewarder.send library programs request found

theorem evaluate_eq_send (rewarder : Rewarder) (request : Request) :
    rewarder.evaluate library programs request.identifier request.patch request.timeout =
      rewarder.send library programs request
        (descriptorFor library rewarder.dataset request.identifier request.patch) := by
  unfold Rewarder.evaluate
  cases descriptorFor library rewarder.dataset request.identifier request.patch <;> rfl

/-- Serving a request is evaluating, and the service is as it was. -/
theorem serve_run (rewarder : Rewarder) (request : Request) :
    (Rewarder.serve library programs request).run rewarder =
      (fun answer => (answer, rewarder)) <$>
        rewarder.evaluate library programs request.identifier request.patch request.timeout := by
  rw [evaluate_eq_send]
  change ((rewarder.send library programs request
    ((lookUp library request.identifier request.patch).run rewarder.dataset).1) >>= fun answer =>
      pure (answer, { rewarder with
        dataset := ((lookUp library request.identifier request.patch).run rewarder.dataset).2 })) = _
  rw [lookUp_run]
  exact bind_pure_comp _ _

/-! ## One after the other -/

/-- A request and what becomes of the host and the container before it is served. -/
structure Visit where
  meanwhile : Container.Client → Act Container.Client
  request : Request

/-- A request that was served: by whom, on which host, with which answer, and what was left. -/
structure Served where
  request : Request
  service : Rewarder
  before : Host
  answer : Except Fault Outcome
  later : Rewarder
  after : Host

/-- Serve one request in the service and on the host of its time. -/
def Rewarder.visit (visit : Visit) : StateT Rewarder Act Served := do
  let client ← visit.meanwhile (← get).client
  modify fun rewarder => { rewarder with client }
  let service ← get
  let before ← getThe Host
  let answer ← Rewarder.serve library programs visit.request
  return ⟨visit.request, service, before, answer, ← get, ← getThe Host⟩

/-- Serve one request after the other. -/
def Rewarder.serveAll (visits : List Visit) : StateT Rewarder Act (List Served) :=
  visits.mapM (Rewarder.visit library programs)

namespace Served

/-- This descriptor was sent.  Where it cannot be written as JSON it ended the request, and the
host is as it was; else its text was written and the evaluator was run on it, or it could not be
written. -/
def Sends (served : Served) (descriptor : Json) : Prop :=
  match library.dump descriptor with
  | .error reason => served.answer = .error (.other reason) ∧ served.after = served.before
  | .ok text =>
      let sent := (writeFile served.service.descriptorPath text).run served.before
      (served.answer, served.after) =
          (if sent.1 then
            (served.service.runEvaluator programs served.request.identifier
              served.request.timeout).run sent.2
          else
            (.ok (.failure (RewardError.descriptorNotWritten served.service.descriptorPath).message),
              sent.2)) ∧
        (sent.1 = true → sent.2.Holds served.service.descriptorPath
          (sent.2.kept served.service.descriptorPath text))

/-- What was served has nothing to do with what was served before. -/
structure Isolated (rewarder : Rewarder) (served : Served) : Prop where
  /-- It was met by the service of the beginning, whatever container it has now. -/
  kept : served.service = { rewarder with client := served.service.client }
  /-- It leaves the service as it was. -/
  unchanged : served.later = served.service
  /-- What is refused is answered with its cause, and the host is as it was: no file is
  written and no program launched. -/
  refused : ∀ cause, Refuses library rewarder.dataset served.request.identifier cause →
    served.answer = .ok ⟨1, [], cause.message⟩ ∧ served.after = served.before
  /-- For anything else the details of its entry are sent with its own patch. -/
  sent : ∀ entry members, rewarder.dataset.get? served.request.identifier = some entry →
    Details library entry members →
      served.Sends library programs (withPatch members served.request.patch)

end Served

/-- An instance is refused for a cause, or has an entry with details. -/
theorem refuses_or_details (dataset : Json) (identifier : Bytes) :
    (∃ cause, Refuses library dataset identifier cause) ∨
      ∃ entry members, dataset.get? identifier = some entry ∧ Details library entry members := by
  cases found : descriptorFor library dataset identifier [] with
  | error cause => exact .inl ⟨cause, descriptorFor_eq_error_iff.1 found⟩
  | ok descriptor =>
      obtain ⟨entry, members, listed, details, -⟩ := descriptorFor_eq_ok_iff.1 found
      exact .inr ⟨entry, members, listed, details⟩

/-- What is refused leaves the host as it is. -/
theorem evaluate_run_of_refuses (rewarder : Rewarder) (request : Request) {cause : RewardError}
    (refuses : Refuses library rewarder.dataset request.identifier cause) (host : Host) :
    (rewarder.evaluate library programs request.identifier request.patch request.timeout).run host =
      (.ok ⟨1, [], cause.message⟩, host) := by
  rw [evaluate_eq_send, descriptorFor_eq_error_iff.2 refuses]
  rfl

/-- What is evaluated by the service is isolated, whatever its container. -/
theorem evaluate_isolated (rewarder : Rewarder) (client : Container.Client) (request : Request)
    (before : Host) :
    let service : Rewarder := { rewarder with client }
    let done := (service.evaluate library programs request.identifier request.patch request.timeout).run
      before
    Served.Isolated library programs rewarder ⟨request, service, before, done.1, service, done.2⟩ := by
  refine ⟨rfl, rfl, ?_, ?_⟩
  · intro cause refuses
    have left := evaluate_run_of_refuses library programs { rewarder with client } request refuses before
    exact ⟨congrArg Prod.fst left, congrArg Prod.snd left⟩
  · intro entry members listed details
    have course := Rewarder.evaluate_of_detailsOf programs { rewarder with client } request.patch
      request.timeout listed (detailsOf_eq_ok_iff_details.2 details)
    rw [Served.Sends, course, Rewarder.sendDescriptor]
    cases library.dump (withPatch members request.patch) with
    | error reason => exact ⟨rfl, rfl⟩
    | ok text => exact ⟨Rewarder.sendText_run .., writeFile_holds⟩

theorem visit_run (rewarder : Rewarder) (visit : Visit) (host : Host) :
    ((Rewarder.visit library programs visit).run rewarder).run host =
      (let met := (visit.meanwhile rewarder.client).run host
      let service : Rewarder := { rewarder with client := met.1 }
      let done := (service.evaluate library programs visit.request.identifier visit.request.patch
        visit.request.timeout).run met.2
      ((⟨visit.request, service, met.2, done.1, service, done.2⟩, service), done.2)) := by
  have served := fun service before => congrArg (StateT.run · before)
    (serve_run library programs service visit.request)
  simp only [StateT.run_map] at served
  rw [Rewarder.visit]
  simp only [getThe, MonadStateOf.get, StateT.run_bind, served]
  rfl

/-- One visit: the service keeps all but its container. -/
theorem visit_isolated (rewarder : Rewarder) (visit : Visit) (host : Host) :
    ∃ served client after,
      ((Rewarder.visit library programs visit).run rewarder).run host =
        ((served, { rewarder with client }), after) ∧
      served.request = visit.request ∧ served.Isolated library programs rewarder :=
  ⟨_, _, _, visit_run library programs rewarder visit host, rfl,
    evaluate_isolated library programs rewarder _ visit.request _⟩

/-- Another container makes no difference. -/
theorem Served.Isolated.of_client {rewarder : Rewarder} {client : Container.Client}
    {served : Served} (isolated : served.Isolated library programs { rewarder with client }) :
    served.Isolated library programs rewarder :=
  ⟨isolated.kept, isolated.unchanged, isolated.refused, isolated.sent⟩

theorem serveAll_run (rewarder : Rewarder) (visits : List Visit) (host : Host) :
    ∃ served client after,
      ((Rewarder.serveAll library programs visits).run rewarder).run host =
        ((served, { rewarder with client }), after) ∧
      served.map (·.request) = visits.map (·.request) ∧
      ∀ one ∈ served, one.Isolated library programs rewarder := by
  induction visits generalizing rewarder host with
  | nil => exact ⟨[], rewarder.client, host, rfl, rfl, fun _ member => nomatch member⟩
  | cons visit visits ih =>
      obtain ⟨first, client, between, met, asked, isolated⟩ :=
        visit_isolated library programs rewarder visit host
      obtain ⟨rest, client', after, ran, askedRest, isolatedRest⟩ :=
        ih { rewarder with client } between
      rw [Rewarder.serveAll] at ran
      refine ⟨first :: rest, client', after, ?_, ?_, ?_⟩
      · rw [Rewarder.serveAll, List.mapM_cons]
        simp only [StateT.run_bind, met]
        change (((visits.mapM (Rewarder.visit library programs)).run { rewarder with client }).run
          between >>= fun done => pure ((first :: done.1.1, done.1.2), done.2) : Id _) = _
        rw [ran]
        rfl
      · rw [List.map_cons, List.map_cons, asked, askedRest]
      · intro one member
        rcases List.mem_cons.1 member with rfl | later
        · exact isolated
        · exact (isolatedRest one later).of_client

/-- **One request does not see another.**  Whatever happens to the host and the container in
between, and however often the same is asked for, each of the requests is served as the only one
would be: what is refused is answered with its cause and leaves no trace, and anything else is
sent with the details of its entry and its own patch, so that the same request sends the same
again.  The dataset is in the end what it was. -/
theorem serveAll_isolated (rewarder : Rewarder) (visits : List Visit)
    (host : Host) :
    ∃ served client after,
      ((Rewarder.serveAll library programs visits).run rewarder).run host =
        ((served, { rewarder with client }), after) ∧
      served.map (·.request) = visits.map (·.request) ∧
      ∀ one ∈ served, one.Isolated library programs rewarder ∧
        ((∃ cause, Refuses library rewarder.dataset one.request.identifier cause) ∨
          ∃ descriptor, one.Sends library programs descriptor ∧
            ∀ again ∈ served, again.request.identifier = one.request.identifier →
              again.request.patch = one.request.patch → again.Sends library programs descriptor) := by
  obtain ⟨served, client, after, ran, asked, isolated⟩ :=
    serveAll_run library programs rewarder visits host
  refine ⟨served, client, after, ran, asked, fun one member => ⟨isolated one member, ?_⟩⟩
  rcases refuses_or_details library rewarder.dataset one.request.identifier with
    refused | ⟨entry, members, listed, details⟩
  · exact .inl refused
  · refine .inr ⟨_, (isolated one member).sent entry members listed details, ?_⟩
    intro again repeated sameInstance samePatch
    rw [← sameInstance] at listed
    rw [← samePatch]
    exact (isolated again repeated).sent entry members listed details

/-- An instance that is unknown is refused in between and leaves the host as it was; one that is
known is sent the same before and after. -/
theorem smallRewarder_isolated :
    let known : Visit := ⟨pure, ⟨ascii "i-1", ascii "new", 30⟩⟩
    let unknown : Visit := ⟨pure, ⟨ascii "i-2", ascii "new", 30⟩⟩
    let programs : Programs := fun host _ _ => (.error [], host.files)
    ∃ first second third later last,
      ((Rewarder.serveAll Json.plain programs [known, unknown, known]).run smallRewarder).run Host.bare =
        (([first, second, third], later), last) ∧
      later.dataset = smallRewarder.dataset ∧
      second.answer = .ok ⟨1, [], ascii "instance_id is not founded!"⟩ ∧
      second.after = second.before ∧
      ∃ descriptor, first.Sends Json.plain programs descriptor ∧
        third.Sends Json.plain programs descriptor := by
  intro known unknown programs
  obtain ⟨served, client, last, ran, asked, isolated⟩ :=
    serveAll_isolated Json.plain programs smallRewarder [known, unknown, known] Host.bare
  obtain ⟨first, rest, rfl, askedFirst, asked⟩ := List.map_eq_cons_iff.1 asked
  obtain ⟨second, rest, rfl, askedSecond, asked⟩ := List.map_eq_cons_iff.1 asked
  obtain ⟨third, rest, rfl, askedThird, asked⟩ := List.map_eq_cons_iff.1 asked
  obtain rfl := List.map_eq_nil_iff.1 asked
  have secondIsolated := (isolated second (by simp)).1
  have refused := secondIsolated.refused .unknownInstance (by
    rw [askedSecond]
    exact .missing rfl)
  have detailed : Details Json.plain
      (.record [("details", .string (Json.object smallDetails).print)]) smallDetails :=
    .text _ rfl (by decide +kernel)
      (Json.plain_lawful.parse_dump (.object smallDetails) _ trivial (by decide +kernel))
  have sent := (isolated first (by simp)).1.sent _ _ (by rw [askedFirst]; rfl) detailed
  have again := (isolated third (by simp)).1.sent _ _ (by rw [askedThird]; rfl) detailed
  rw [askedFirst] at sent
  rw [askedThird] at again
  exact ⟨first, second, third, _, last, ran, rfl, refused.1, refused.2, _, sent, again⟩

end Evaluation

end Assay
