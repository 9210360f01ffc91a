/-
# Assay.Proofs.Descriptors -- the descriptor that is sent is the one that is read

Two parts of the library meet in one file.  `Rewarder.evaluate` takes the details of
an instance, puts a patch into them and writes them; `Job.load` reads the file and
makes a job of it, or says what is wrong.  Neither knows the other.

A member that is set is found, and no other member is touched (`get?_setMember`);
`Job.ofJson` reads the patch in one place only, so that setting it changes the job
there or leaves the same error (`ofJson_setMember`).  That a text is read back as what was
written is a law of the library that reads and writes JSON (`Json.Library.Lawful`), and both
facts meet in `evaluate_descriptor_loads`.

The service believes what it is told of the writing.  What the storage does not keep of the
descriptor is not there to be read, and the evaluator is run all the same
(`fullStorage_unread`).
-/
import Assay.Evaluation.Reward
import Assay.Proofs.Files
import Assay.Proofs.Launches
import Assay.Proofs.Printing

namespace Assay.Json

set_option autoImplicit false

open Bytes

/-! ## Members -/

variable {key other : Bytes} {value : Json} {members : List (Bytes × Json)}

theorem findMember_filter_ne (different : other ≠ key) (members : List (Bytes × Json)) :
    findMember other (members.filter fun member => member.1 != key) = findMember other members := by
  induction members with
  | nil => rfl
  | cons member rest ih =>
      by_cases dropped : member.1 = key
      · have notOther : member.1 ≠ other := fun same => different (same.symm.trans dropped)
        rw [List.filter_cons_of_neg (by simp [dropped]), ih, findMember, if_neg notOther,
          Option.or_none]
      · rw [List.filter_cons_of_pos (by simp [dropped]), findMember, ih, findMember]

theorem findMember_eq_none (free : ∀ member ∈ members, member.1 ≠ key) :
    findMember key members = none := by
  induction members with
  | nil => rfl
  | cons member rest ih =>
      rw [findMember, ih fun other inRest => free other (List.mem_cons_of_mem _ inRest),
        if_neg (free member List.mem_cons_self), Option.or_none]

/-- Where no member has the name, one can be put in at any place. -/
theorem findMember_insertEntry (other : Bytes) (value : Json)
    (free : ∀ member ∈ members, member.1 ≠ key) :
    findMember other (KeyMap.insertEntry key value members) =
      if other = key then some value else findMember other members := by
  induction members with
  | nil => simp [KeyMap.insertEntry, findMember, eq_comm]
  | cons member rest ih =>
      have notHere := free member List.mem_cons_self
      have ih := ih fun other inRest => free other (List.mem_cons_of_mem _ inRest)
      simp only [KeyMap.insertEntry, if_neg (Ne.symm notHere)]
      split
      · rw [findMember]
        by_cases same : other = key
        · rw [same, findMember_eq_none free, if_pos rfl, Option.none_or]
        · rw [if_neg (Ne.symm same), if_neg same, Option.or_none]
      · rw [findMember, ih, findMember]
        by_cases same : other = key
        · rw [if_pos same, if_pos same, Option.some_or]
        · rw [if_neg same, if_neg same]

theorem filter_ne_free (key : Bytes) (members : List (Bytes × Json)) :
    ∀ member ∈ members.filter (fun member => member.1 != key), member.1 ≠ key := by
  simp

/-- What was set is found, and all else is as it was. -/
theorem get?_setMember (key other : Bytes) (value : Json) (members : List (Bytes × Json)) :
    (object (setMember key value members)).get? other =
      if other = key then some value else (object members).get? other := by
  change findMember other (setMember key value members) =
    if other = key then some value else findMember other members
  rw [setMember, findMember_insertEntry other value (filter_ne_free key members)]
  by_cases same : other = key
  · rw [if_pos same, if_pos same]
  · rw [if_neg same, if_neg same, findMember_filter_ne same]

/-- A string that is set must be UTF-8, and so must all that it does not replace. -/
theorem isText_setMember (named : isUtf8 key = true) (text : Bytes)
    (members : List (Bytes × Json)) :
    (object (setMember key (string text) members)).isText = true ↔
      isUtf8 text = true ∧
        ∀ member ∈ members, member.1 ≠ key → isUtf8 member.1 = true ∧ member.2.isText = true := by
  have among := fun member => (KeyMap.insertEntry_perm (string text)
    (filter_ne_free key members)).mem_iff (a := member)
  rw [isText, membersAreText_iff, setMember]
  simp only [among, List.forall_mem_cons, List.mem_filter, bne_iff_ne, isText, named, true_and,
    and_imp]

theorem mem_of_findMember (found : findMember key members = some value) : (key, value) ∈ members := by
  induction members with
  | nil => cases found
  | cons member rest ih =>
      rw [findMember, Option.or_eq_some_iff] at found
      rcases found with inRest | ⟨-, here⟩
      · exact List.mem_cons_of_mem _ (ih inRest)
      · split at here
        · rename_i named
          cases here
          exact named ▸ List.mem_cons_self
        · cases here

/-- What a library has it has with all that stands in it. -/
theorem Library.Lawful.get? {library : Library} {has : Json → Prop} (lawful : library.Lawful has)
    {whole : Json} (held : has whole) (found : whole.get? key = some value) : has value := by
  cases whole with
  | object members => exact lawful.member members key value held (mem_of_findMember found)
  | _ => cases found

end Assay.Json

namespace Assay.Evaluation

set_option autoImplicit false

open Bytes
open Exec (Outcome)

variable {library : Json.Library}

/-! ## What a job is read from -/

theorem readTests_setMember (list : TestList) (value : Json) (members : List (Bytes × Json)) :
    readTests library (.object (Json.setMember Job.patchKey value members)) list =
      readTests library (.object members) list := by
  have notPatch : list.key ≠ Job.patchKey := by
    cases list <;> decide
  rw [readTests, readTests, Json.get?_setMember, if_neg notPatch]

theorem optionalText_setMember {key : Bytes} (notPatch : key ≠ Job.patchKey) (value : Json)
    (members : List (Bytes × Json)) :
    optionalText (.object (Json.setMember Job.patchKey value members)) key =
      optionalText (.object members) key := by
  rw [optionalText, optionalText, Json.get?_setMember, if_neg notPatch]

/-- With another patch in it a descriptor is read as the same job with that patch, or
refused for the same reason. -/
theorem ofJson_setMember (patch : Bytes) (members : List (Bytes × Json)) :
    Job.ofJson library (.object (Json.setMember Job.patchKey (.string patch) members)) =
      (Job.ofJson library (.object members)).map fun job => { job with patch := some patch } := by
  unfold Job.ofJson
  simp only [readTests_setMember]
  rw [Json.get?_setMember, if_neg (by decide), Json.get?_setMember, if_pos rfl,
    optionalText_setMember (by decide), optionalText_setMember (by decide),
    optionalText_setMember (by decide), optionalText_setMember (by decide)]
  cases ((Json.object members).get? Job.identifierKey).bind Json.string? with
  | none => rfl
  | some identifier =>
      cases readTests library (.object members) .failToPass with
      | error cause => rfl
      | ok failToPass =>
          cases readTests library (.object members) .passToPass with
          | error cause => rfl
          | ok passToPass =>
              cases readTests library (.object members) .failToFail with
              | error cause => rfl
              | ok failToFail => cases readTests library (.object members) .passToFail <;> rfl

/-- The details of an entry are an object that has members, or a text, not the empty one, that
is read as an object. -/
theorem detailsOf_eq_ok_iff {entry : Json} {members : List (Bytes × Json)} :
    detailsOf library entry = .ok members ↔
      (entry.get? detailsKey = some (.object members) ∧ members ≠ []) ∨
        ∃ text, entry.get? detailsKey = some (.string text) ∧ text ≠ [] ∧
          library.parse text = some (.object members) := by
  unfold detailsOf
  cases entry.get? detailsKey with
  | none => simp
  | some details =>
      cases details with
      | object inner => cases inner <;> simp +contextual [eq_comm]
      | string text =>
          cases text with
          | nil => simp
          | cons b rest =>
              cases read : library.parse (b :: rest) with
              | none => simp [read]
              | some value => cases value <;> simp [read]
      | _ => simp

/-- An entry with details is in the dataset as it is. -/
theorem descriptorFor_of_detailsOf {dataset entry : Json} {identifier : Bytes}
    {members : List (Bytes × Json)} (listed : dataset.get? identifier = some entry)
    (details : detailsOf library entry = .ok members) (patch : Bytes) :
    descriptorFor library dataset identifier patch =
      .ok (.object (Json.setMember Job.patchKey (.string patch) members)) := by
  rw [descriptorFor, listed]
  cases entry with
  | null => cases details
  | _ => simp only [details, bind, Except.bind, pure, Except.pure]

/-- The library that has a dataset has the details in it, also those it reads from a text. -/
theorem has_detailsOf {has : Json → Prop} (lawful : library.Lawful has) {dataset entry : Json}
    {identifier : Bytes} {members : List (Bytes × Json)} (held : has dataset)
    (listed : dataset.get? identifier = some entry)
    (details : detailsOf library entry = .ok members) : has (.object members) := by
  rcases detailsOf_eq_ok_iff.1 details with ⟨found, -⟩ | ⟨text, -, -, read⟩
  · exact lawful.get? (lawful.get? held listed) found
  · exact (lawful.parsed text _ read).1

/-! ## One file, written and read -/

/-- The details with a patch in the place of theirs. -/
def withPatch (members : List (Bytes × Json)) (patch : Bytes) : Json :=
  .object (Json.setMember Job.patchKey (.string patch) members)

/-- What is left of an evaluation when its descriptor is written. -/
def Rewarder.runEvaluator (programs : Programs) (rewarder : Rewarder) (identifier : Bytes)
    (timeout : Int) : Act (Except Fault Outcome) := do
  Log.info (ascii "[reward] Evaluating " ++ identifier ++ ascii " with timeout " ++ ofInt timeout ++
    ascii "s")
  return (← rewarder.client.execute programs rewarder.evaluatorCommand rewarder.evaluatorDirectory
    (some timeout)).mapError .notReady

/-- What is left of an evaluation when it has the text of its descriptor. -/
def Rewarder.sendText (programs : Programs) (rewarder : Rewarder) (identifier : Bytes)
    (timeout : Int) (text : Bytes) : Act (Except Fault Outcome) := do
  if !(← writeFile rewarder.descriptorPath text) then
    return .ok (.failure (RewardError.descriptorNotWritten rewarder.descriptorPath).message)
  rewarder.runEvaluator programs identifier timeout

/-- What is left of an evaluation when it has its descriptor. -/
def Rewarder.sendDescriptor (library : Json.Library) (programs : Programs) (rewarder : Rewarder)
    (identifier : Bytes) (timeout : Int) (descriptor : Json) : Act (Except Fault Outcome) :=
  match library.dump descriptor with
  | .error reason => pure (.error (.other reason))
  | .ok text => rewarder.sendText programs identifier timeout text

theorem Rewarder.sendText_run (programs : Programs) (rewarder : Rewarder) (identifier : Bytes)
    (timeout : Int) (text : Bytes) (host : Host) :
    let sent := (writeFile rewarder.descriptorPath text).run host
    (rewarder.sendText programs identifier timeout text).run host =
      if sent.1 then (rewarder.runEvaluator programs identifier timeout).run sent.2
      else (.ok (.failure (RewardError.descriptorNotWritten rewarder.descriptorPath).message),
        sent.2) := by
  intro sent
  rcases ran : sent with ⟨told, after⟩
  rw [Rewarder.sendText, StateT.run_bind, show (writeFile _ _).run host = (told, after) from ran]
  cases told <;> rfl

/-- An evaluation with details sends these with the patch in them. -/
theorem Rewarder.evaluate_of_detailsOf (programs : Programs) (rewarder : Rewarder)
    {identifier : Bytes} (patch : Bytes) (timeout : Int) {entry : Json}
    {members : List (Bytes × Json)} (listed : rewarder.dataset.get? identifier = some entry)
    (details : detailsOf library entry = .ok members) :
    rewarder.evaluate library programs identifier patch timeout =
      rewarder.sendDescriptor library programs identifier timeout (withPatch members patch) := by
  rw [Rewarder.evaluate, descriptorFor_of_detailsOf listed details]
  rfl

/-- A file that holds the text of a descriptor for a patch is loaded as the job of the
details with that patch, or refused as the details are. -/
theorem load_withPatch {has : Json → Prop} (lawful : library.Lawful has) {reader : Host}
    {place patch text : Bytes} {members : List (Bytes × Json)} (held : has (.object members))
    (dumped : library.dump (withPatch members patch) = .ok text)
    (regular : reader.isRegular place = true) (holds : reader.text place = text) :
    Job.load library reader place =
      ((Job.ofJson library (.object members)).map fun job =>
        { job with patch := some patch }).mapError .descriptor := by
  have heldWith : has (withPatch members patch) := lawful.setMember members _ patch held
  rw [Job.load, if_pos regular, holds, lawful.parse_dump _ _ heldWith dumped]
  dsimp only
  rw [withPatch, ofJson_setMember]

/-- **What the service sends is what the evaluator reads.**  For any library that has the
dataset, the details of an instance can be written with a patch in them just where the patch
and all that it does not replace is UTF-8; where they cannot, nothing is written and nothing
run.  Their text is the first thing written, and the evaluator is run only when the service was
told that it is there; the file then holds as much of it as the storage kept.  Whoever loads a
file with that text gets the job of the details with the patch in the place of theirs, or the
error of the details. -/
theorem evaluate_descriptor_loads {has : Json → Prop} (lawful : library.Lawful has)
    (programs : Programs) (rewarder : Rewarder) (identifier patch : Bytes) (timeout : Int)
    {entry : Json} {members : List (Bytes × Json)} (held : has rewarder.dataset)
    (listed : rewarder.dataset.get? identifier = some entry)
    (details : detailsOf library entry = .ok members) :
    ((∃ text, library.dump (withPatch members patch) = .ok text) ↔
      isUtf8 patch = true ∧ ∀ member ∈ members, member.1 ≠ Job.patchKey →
        isUtf8 member.1 = true ∧ member.2.isText = true) ∧
    (∀ reason, library.dump (withPatch members patch) = .error reason → ∀ host : Host,
      (rewarder.evaluate library programs identifier patch timeout).run host =
        (.error (.other reason), host)) ∧
    ∀ text, library.dump (withPatch members patch) = .ok text →
      (∀ host : Host,
        let sent := (writeFile rewarder.descriptorPath text).run host
        (rewarder.evaluate library programs identifier patch timeout).run host =
            (if sent.1 then (rewarder.runEvaluator programs identifier timeout).run sent.2
            else (.ok (.failure (RewardError.descriptorNotWritten rewarder.descriptorPath).message),
              sent.2)) ∧
          (sent.1 = true → sent.2.Holds rewarder.descriptorPath
            (sent.2.kept rewarder.descriptorPath text))) ∧
      ∀ (reader : Host) (place : Bytes), reader.isRegular place = true →
        reader.text place = text →
          Job.load library reader place =
            ((Job.ofJson library (.object members)).map fun job =>
              { job with patch := some patch }).mapError .descriptor := by
  have heldDetails : has (.object members) := has_detailsOf lawful held listed details
  have course := rewarder.evaluate_of_detailsOf programs patch timeout listed details
  refine ⟨?dumped, fun reason refused host => ?refused, fun text dumped =>
    ⟨fun host => ⟨?written, writeFile_holds⟩, fun reader place => load_withPatch lawful heldDetails
      dumped⟩⟩
  case dumped =>
    have heldWith : has (withPatch members patch) := lawful.setMember members _ patch heldDetails
    rw [lawful.dumped _ heldWith, withPatch, Json.isText_setMember (by decide)]
  case refused =>
    rw [course, Rewarder.sendDescriptor, refused]
    rfl
  case written =>
    rw [course, Rewarder.sendDescriptor, dumped]
    exact rewarder.sendText_run programs identifier timeout text host

/-- Details that hold a patch already. -/
def smallDetails : List (Bytes × Json) :=
  [(TestList.failToPass.key, .string (ascii "[\"t\"]")), (Job.identifierKey, .string (ascii "i-1")),
    (Job.patchKey, .string (ascii "old"))]

/-- A service with one instance, whose details are a text. -/
def smallRewarder : Rewarder where
  sharePath := ascii "share"
  evaluatorSource := ascii "eval"
  evaluatorCommand := ascii "./run"
  client := .new {}
  dataset := .record [("i-1", .record [("details", .string (Json.object smallDetails).print)])]

/-- The text of the small details with another patch in them. -/
def smallText : Bytes :=
  (withPatch smallDetails (ascii "new")).print

theorem smallText_dumped :
    Json.plain.dump (withPatch smallDetails (ascii "new")) = .ok smallText := by
  decide +kernel

theorem smallRewarder_details :
    ∃ entry, smallRewarder.dataset.get? (ascii "i-1") = some entry ∧
      detailsOf Json.plain entry = .ok smallDetails :=
  ⟨.record [("details", .string (Json.object smallDetails).print)], rfl,
    detailsOf_eq_ok_iff.2 (Or.inr ⟨_, rfl, by decide +kernel,
      Json.plain_lawful.parse_dump (.object smallDetails) _ trivial (by decide +kernel)⟩)⟩

theorem smallDetails_load_with_patch :
    (∃ entry, smallRewarder.dataset.get? (ascii "i-1") = some entry ∧
      detailsOf Json.plain entry = .ok smallDetails) ∧
    Json.plain.dump (withPatch smallDetails (ascii "new")) = .ok smallText ∧
    let sent := (writeFile smallRewarder.descriptorPath smallText).run Host.bare
    sent.1 = true ∧
      Job.load Json.plain sent.2 smallRewarder.descriptorPath =
        ((Job.ofJson Json.plain (.object smallDetails)).map fun job =>
          { job with patch := some (ascii "new") }).mapError .descriptor := by
  obtain ⟨entry, listed, details⟩ := smallRewarder_details
  have sends := evaluate_descriptor_loads Json.plain_lawful
    (fun host _ _ => (.error [], host.files)) smallRewarder (ascii "i-1") (ascii "new") 30 trivial
    listed details
  obtain ⟨-, loads⟩ := sends.2.2 smallText smallText_dumped
  exact ⟨smallRewarder_details, smallText_dumped, by decide +kernel,
    loads _ smallRewarder.descriptorPath (by decide +kernel) (by decide +kernel)⟩

/-- On a full storage the evaluator is run all the same, while the descriptor has no text. -/
theorem fullStorage_unread :
    let sent := (writeFile smallRewarder.descriptorPath smallText).run Host.full
    (∀ programs : Programs,
      (smallRewarder.evaluate Json.plain programs (ascii "i-1") (ascii "new") 30).run Host.full =
        (smallRewarder.runEvaluator programs (ascii "i-1") 30).run sent.2) ∧
      sent.2.text smallRewarder.descriptorPath = [] ∧
      (Job.load Json.plain sent.2 smallRewarder.descriptorPath).toOption.isSome = false ∧
      (Job.ofJson Json.plain (.object smallDetails)).toOption.isSome = true := by
  intro sent
  have told : sent.1 = true := by decide +kernel
  refine ⟨fun programs => ?_, by decide +kernel, by decide +kernel, by decide +kernel⟩
  obtain ⟨entry, listed, details⟩ := smallRewarder_details
  rw [smallRewarder.evaluate_of_detailsOf programs (ascii "new") 30 listed details,
    Rewarder.sendDescriptor, smallText_dumped]
  exact (smallRewarder.sendText_run ..).trans (if_pos told)

end Assay.Evaluation
