/-
# Assay.Proofs.Jobs -- which values describe a job

A descriptor has to be an object that names its instance, and what it says of each list
of tests has to be such a list (`Lists`): nothing, an array of strings, or a text that the
library reads as one.  That is all that can be wrong with it (`Job.ofJson_refused_iff`).  Whatever
else is not a string counts as not there, so the job can be read off the descriptor member
by member (`Job.Describes`).

`Job.ofJson` looks at a descriptor in no other way than through these readings
(`Job.ofJson_congr`).  Hence a list may be written either way (`Job.ofJson_listAsText`), and a
member that cannot be used may as well be left out (`Job.ofJson_without`).
-/
import Assay.Proofs.Descriptors

namespace Assay

set_option autoImplicit false

open Bytes

theorem except_bind_eq_ok_iff {ε α β : Type} {first : Except ε α} {next : α → Except ε β} {b : β} :
    (first >>= next) = .ok b ↔ ∃ a, first = .ok a ∧ next a = .ok b := by
  cases first with
  | error fault => exact ⟨nofun, nofun⟩
  | ok a => simp [bind, Except.bind]

theorem except_bind_eq_error_iff {ε α β : Type} {first : Except ε α} {next : α → Except ε β}
    {fault : ε} :
    (first >>= next) = .error fault ↔
      first = .error fault ∨ ∃ a, first = .ok a ∧ next a = .error fault := by
  cases first with
  | error cause => simp [bind, Except.bind]
  | ok a => simp [bind, Except.bind]

theorem Json.string?_bind_eq_some_iff {value : Option Json} {text : Bytes} :
    value.bind Json.string? = some text ↔ value = some (.string text) := by
  cases value with
  | none => simp
  | some present => cases present <;> simp [Json.string?]

/-- The members without those of a name. -/
def Json.dropMember (key : Bytes) (members : List (Bytes × Json)) : List (Bytes × Json) :=
  members.filter fun member => member.1 != key

theorem Json.get?_dropMember (key other : Bytes) (members : List (Bytes × Json)) :
    (object (dropMember key members)).get? other =
      if other = key then none else (object members).get? other := by
  change findMember other (dropMember key members) =
    if other = key then none else findMember other members
  split
  · rename_i same
    subst same
    induction members with
    | nil => rfl
    | cons member rest ih =>
        by_cases dropped : member.1 = other
        · rw [dropMember, List.filter_cons_of_neg (by simp [dropped])]
          exact ih
        · rw [dropMember, List.filter_cons_of_pos (by simp [dropped]), findMember, if_neg dropped,
            Option.or_none]
          exact ih
  · rename_i different
    exact findMember_filter_ne different members

theorem Json.allStrings?_eq_some_iff {items : List Json} {tests : List Bytes} :
    Json.allStrings? items = some tests ↔ items = tests.map Json.string := by
  unfold Json.allStrings?
  induction items generalizing tests with
  | nil => cases tests <;> simp
  | cons item rest ih =>
      rw [List.mapM_cons]
      cases item with
      | string test =>
          cases tests with
          | nil => cases rest.mapM Json.string? <;> simp [Json.string?]
          | cons first tests =>
              rw [List.map_cons, List.cons.injEq, Json.string.injEq, ← ih]
              cases rest.mapM Json.string? <;> simp [Json.string?]
      | _ => cases tests <;> simp [Json.string?]

namespace Evaluation

variable (library : Json.Library)

/-! ## Lists of tests -/

/-- What stands under the key of a list says that these are its tests, in this order. -/
inductive Lists : Option Json → List Bytes → Prop
  | missing : Lists none []
  | null : Lists (some .null) []
  | items (tests : List Bytes) : Lists (some (.ofStrings tests)) tests
  | text {text : Bytes} {tests : List Bytes} (reads : library.parse text = some (.ofStrings tests)) :
      Lists (some (.string text)) tests

/-- What stands there is something, and neither an array of strings nor a text that is read
as one. -/
def ListsNoTests (value : Option Json) : Prop :=
  ∃ present, value = some present ∧ present ≠ .null ∧ (∀ tests, present ≠ .ofStrings tests) ∧
    ∀ text, present = .string text → ∀ tests, library.parse text ≠ some (.ofStrings tests)

variable {library}

theorem listsNoTests_iff {value : Option Json} :
    ListsNoTests library value ↔ ∀ tests, ¬ Lists library value tests := by
  constructor
  · rintro ⟨present, rfl, notNull, notItems, notText⟩ tests lists
    generalize isValue : some present = value at lists
    cases lists with
    | missing => cases isValue
    | null => exact notNull (Option.some.inj isValue)
    | items => exact notItems tests (Option.some.inj isValue)
    | text reads => exact notText _ (Option.some.inj isValue) tests reads
  · intro none'
    cases value with
    | none => exact absurd .missing (none' [])
    | some present =>
        refine ⟨present, rfl, ?_, ?_, ?_⟩
        · rintro rfl
          exact none' [] .null
        · rintro tests rfl
          exact none' tests (.items tests)
        · rintro text rfl tests reads
          exact none' tests (.text reads)

theorem testsOf_eq_ok_iff {list : TestList} {value : Json} {tests : List Bytes} :
    testsOf list value = .ok tests ↔ value = .ofStrings tests := by
  unfold testsOf
  cases value with
  | array items =>
      rw [Json.array?, Option.bind_some, Json.ofStrings, Json.array.injEq,
        ← Json.allStrings?_eq_some_iff]
      cases Json.allStrings? items <;> simp
  | _ => simp [Json.array?, Json.ofStrings]

theorem readTests_eq_ok_iff {descriptor : Json} {list : TestList} {tests : List Bytes} :
    readTests library descriptor list = .ok tests ↔
      Lists library (descriptor.get? list.key) tests := by
  unfold readTests
  cases descriptor.get? list.key with
  | none =>
      refine ⟨fun same => ?_, fun lists => ?_⟩
      · cases same
        exact .missing
      · cases lists
        rfl
  | some value =>
      cases value with
      | null =>
          refine ⟨fun same => ?_, fun lists => ?_⟩
          · cases same
            exact .null
          · cases lists
            rfl
      | string text =>
          refine ⟨fun same => ?_, fun lists => ?_⟩
          · dsimp only at same
            cases reads : library.parse text with
            | none =>
                rw [reads] at same
                cases same
            | some value =>
                rw [reads] at same
                exact .text (reads.trans (congrArg some (testsOf_eq_ok_iff.1 same)))
          · cases lists with
            | text reads =>
                dsimp only
                rw [reads]
                exact testsOf_eq_ok_iff.2 rfl
      | array items =>
          refine testsOf_eq_ok_iff.trans ⟨fun same => same ▸ .items tests, fun lists => ?_⟩
          generalize isValue : some (Json.array items) = value at lists
          cases lists with
          | items => exact Option.some.inj isValue
          | _ => cases isValue
      | bool value => exact testsOf_eq_ok_iff.trans ⟨nofun, nofun⟩
      | int value => exact testsOf_eq_ok_iff.trans ⟨nofun, nofun⟩
      | decimal value => exact testsOf_eq_ok_iff.trans ⟨nofun, nofun⟩
      | object members => exact testsOf_eq_ok_iff.trans ⟨nofun, nofun⟩

/-! ## The job of a descriptor -/

/-- What stands under a key is read as this text: a string as itself, all else as nothing. -/
inductive TextOf : Option Json → Bytes → Prop
  | string (text : Bytes) : TextOf (some (.string text)) text
  | other {value : Option Json} (notText : ∀ text, value ≠ some (.string text)) : TextOf value []

theorem optionalText_eq_iff {descriptor : Json} {key text : Bytes} :
    optionalText descriptor key = text ↔ TextOf (descriptor.get? key) text := by
  unfold optionalText
  generalize descriptor.get? key = value
  cases read : value.bind Json.string? with
  | some found =>
      rw [Json.string?_bind_eq_some_iff] at read
      subst read
      refine ⟨fun same => same ▸ .string found, fun reads => ?_⟩
      cases reads with
      | string => rfl
      | other notText => exact absurd rfl (notText found)
  | none =>
      have notText : ∀ text, value ≠ some (.string text) := by
        intro text isText
        rw [Json.string?_bind_eq_some_iff.2 isText] at read
        cases read
      refine ⟨fun same => same ▸ .other notText, fun reads => ?_⟩
      cases reads with
      | string text => exact absurd rfl (notText text)
      | other => rfl

/-- The tests of one list. -/
def Expectations.tests (expected : Expectations) : TestList → List Bytes
  | .failToPass => expected.failToPass
  | .passToPass => expected.passToPass
  | .failToFail => expected.failToFail
  | .passToFail => expected.passToFail

namespace Job

section

variable (library)

/-- What the descriptor says, member by member, is the job. -/
structure Describes (descriptor : Json) (job : Job) : Prop where
  identifier : descriptor.get? identifierKey = some (.string job.identifier)
  repository : TextOf (descriptor.get? (ascii "repo")) job.repository
  version : TextOf (descriptor.get? (ascii "version")) job.version
  /-- There is a patch just where one is given as a text. -/
  patch : ∀ patch, job.patch = some patch ↔ descriptor.get? patchKey = some (.string patch)
  script : TextOf (descriptor.get? (ascii "script")) job.script
  testCommand : TextOf (descriptor.get? (ascii "test_cmd")) job.testCommand
  scriptPath : job.scriptPath = []
  codeSpace : job.codeSpace = usualCodeSpace
  lists : ∀ list : TestList, Lists library (descriptor.get? list.key) (job.expected.tests list)

/-- What makes a descriptor one of no job. -/
inductive Undescribed (descriptor : Json) : Prop
  | notObject (notObject : ∀ members, descriptor ≠ .object members)
  | nameless (nameless : ∀ identifier, descriptor.get? identifierKey ≠ some (.string identifier))
  | unlisted (list : TestList) (noTests : ListsNoTests library (descriptor.get? list.key))

end

/-- The job that has been read when its instance and its lists are known. -/
def ofParts (descriptor : Json) (identifier : Bytes) (expected : Expectations) : Job where
  identifier
  repository := optionalText descriptor (ascii "repo")
  version := optionalText descriptor (ascii "version")
  patch := (descriptor.get? patchKey).bind Json.string?
  script := optionalText descriptor (ascii "script")
  testCommand := optionalText descriptor (ascii "test_cmd")
  scriptPath := []
  codeSpace := usualCodeSpace
  expected

variable {members others : List (Bytes × Json)} {job : Job}

/-- The lists of a descriptor, read one after the other up to the first that is none. -/
def readLists (library : Json.Library) (descriptor : Json) : Except DescriptorError Expectations := do
  let failToPass ← readTests library descriptor .failToPass
  let passToPass ← readTests library descriptor .passToPass
  let failToFail ← readTests library descriptor .failToFail
  let passToFail ← readTests library descriptor .passToFail
  .ok ⟨failToPass, passToPass, failToFail, passToFail⟩

theorem readLists_eq_ok_iff {descriptor : Json} {expected : Expectations} :
    readLists library descriptor = .ok expected ↔
      ∀ list : TestList, Lists library (descriptor.get? list.key) (expected.tests list) := by
  simp only [readLists, except_bind_eq_ok_iff, readTests_eq_ok_iff]
  constructor
  · rintro ⟨failToPass, first, passToPass, second, failToFail, third, passToFail, fourth, same⟩ list
    cases same
    cases list with
    | failToPass => exact first
    | passToPass => exact second
    | failToFail => exact third
    | passToFail => exact fourth
  · intro lists
    exact ⟨_, lists .failToPass, _, lists .passToPass, _, lists .failToFail, _, lists .passToFail, rfl⟩

theorem ofJson_eq_readLists {identifier : Bytes}
    (named : (Json.object members).get? identifierKey = some (.string identifier)) :
    ofJson library (.object members) =
      (readLists library (.object members)).map (ofParts (.object members) identifier) := by
  unfold ofJson readLists
  rw [Json.string?_bind_eq_some_iff.2 named]
  dsimp only
  cases readTests library (.object members) .failToPass with
  | error fault => rfl
  | ok tests =>
      cases readTests library (.object members) .passToPass with
      | error fault => rfl
      | ok tests =>
          cases readTests library (.object members) .failToFail with
          | error fault => rfl
          | ok tests => cases readTests library (.object members) .passToFail <;> rfl

theorem ofJson_nameless
    (nameless : ∀ identifier, (Json.object members).get? identifierKey ≠ some (.string identifier)) :
    ofJson library (.object members) = .error .identifierMissing := by
  unfold ofJson
  cases named : ((Json.object members).get? identifierKey).bind Json.string? with
  | none => rfl
  | some identifier => exact absurd (Json.string?_bind_eq_some_iff.1 named) (nameless identifier)

/-- A job is made of its parts when the descriptor describes it. -/
theorem Describes.eq_ofParts {descriptor : Json} (describes : Describes library descriptor job) :
    job = ofParts descriptor job.identifier job.expected := by
  have patch : job.patch = (descriptor.get? patchKey).bind Json.string? := by
    refine Option.ext fun patch => ?_
    rw [Json.string?_bind_eq_some_iff]
    exact describes.patch patch
  rw [ofParts, optionalText_eq_iff.2 describes.repository, optionalText_eq_iff.2 describes.version,
    optionalText_eq_iff.2 describes.script, optionalText_eq_iff.2 describes.testCommand, ← patch,
    ← describes.scriptPath, ← describes.codeSpace]

theorem describes_ofParts {descriptor : Json} {identifier : Bytes} {expected : Expectations}
    (named : descriptor.get? identifierKey = some (.string identifier))
    (lists : ∀ list : TestList, Lists library (descriptor.get? list.key) (expected.tests list)) :
    Describes library descriptor (ofParts descriptor identifier expected) where
  identifier := named
  repository := optionalText_eq_iff.1 rfl
  version := optionalText_eq_iff.1 rfl
  patch _ := Json.string?_bind_eq_some_iff
  script := optionalText_eq_iff.1 rfl
  testCommand := optionalText_eq_iff.1 rfl
  scriptPath := rfl
  codeSpace := rfl
  lists

/-- **What is read is what the descriptor says**, member by member. -/
theorem ofJson_eq_ok_iff_describes {descriptor : Json} :
    ofJson library descriptor = .ok job ↔ Describes library descriptor job := by
  cases descriptor with
  | object members =>
      constructor
      · intro read
        by_cases named : ∃ identifier,
            (Json.object members).get? identifierKey = some (.string identifier)
        · obtain ⟨identifier, named⟩ := named
          rw [ofJson_eq_readLists named] at read
          cases lists : readLists library (.object members) with
          | error fault =>
              rw [lists] at read
              cases read
          | ok expected =>
              rw [lists] at read
              cases read
              exact describes_ofParts named (readLists_eq_ok_iff.1 lists)
        · rw [ofJson_nameless (not_exists.1 named)] at read
          cases read
      · intro describes
        rw [ofJson_eq_readLists describes.identifier, readLists_eq_ok_iff.2 describes.lists]
        exact congrArg Except.ok describes.eq_ofParts.symm
  | _ => exact ⟨nofun, fun describes => nomatch describes.identifier⟩

/-! ## What is refused -/

theorem exists_describes_iff {descriptor : Json} :
    (∃ job, Describes library descriptor job) ↔
      (∃ identifier, descriptor.get? identifierKey = some (.string identifier)) ∧
        ∀ list : TestList, ∃ tests, Lists library (descriptor.get? list.key) tests := by
  constructor
  · rintro ⟨job, describes⟩
    exact ⟨⟨_, describes.identifier⟩, fun list => ⟨_, describes.lists list⟩⟩
  · rintro ⟨⟨identifier, named⟩, lists⟩
    choose tests isListed using lists
    let expected : Expectations :=
      ⟨tests .failToPass, tests .passToPass, tests .failToFail, tests .passToFail⟩
    have all : ∀ list : TestList, Lists library (descriptor.get? list.key) (expected.tests list) := by
      intro list
      cases list <;> exact isListed _
    exact ⟨_, describes_ofParts named all⟩

theorem undescribed_iff {descriptor : Json} :
    Undescribed library descriptor ↔ ¬ ∃ job, Describes library descriptor job := by
  rw [exists_describes_iff]
  constructor
  · rintro undescribed ⟨⟨identifier, named⟩, lists⟩
    cases undescribed with
    | notObject notObject =>
        cases descriptor with
        | object members => exact notObject members rfl
        | _ => cases named
    | nameless nameless => exact nameless identifier named
    | unlisted list noTests =>
        obtain ⟨tests, isListed⟩ := lists list
        exact listsNoTests_iff.1 noTests tests isListed
  · intro notBoth
    by_cases named : ∃ identifier, descriptor.get? identifierKey = some (.string identifier)
    · obtain ⟨list, noTests⟩ := not_forall.1 fun lists => notBoth ⟨named, lists⟩
      exact .unlisted list (listsNoTests_iff.2 (not_exists.1 noTests))
    · exact .nameless (not_exists.1 named)

theorem ofJson_refused_iff {descriptor : Json} :
    (∃ fault, ofJson library descriptor = .error fault) ↔ Undescribed library descriptor := by
  rw [undescribed_iff]
  simp only [← ofJson_eq_ok_iff_describes]
  cases ofJson library descriptor <;> simp

theorem readTests_error {descriptor : Json} {list : TestList} {fault : DescriptorError}
    (refused : readTests library descriptor list = .error fault) :
    (fault = .listNotJson list ∨ fault = .listNotTests list) ∧
      ListsNoTests library (descriptor.get? list.key) := by
  have names : ∀ value, testsOf list value = .error fault → fault = .listNotTests list := by
    intro value refused
    unfold testsOf at refused
    split at refused
    · cases refused
    · cases refused
      rfl
  refine ⟨?_, listsNoTests_iff.2 fun tests lists => ?_⟩
  · unfold readTests at refused
    split at refused
    · cases refused
    · cases refused
    · split at refused
      · exact .inr (names _ refused)
      · cases refused
        exact .inl rfl
    · exact .inr (names _ refused)
  · rw [readTests_eq_ok_iff.2 lists] at refused
    cases refused

/-- The error says what is wrong, and with which member. -/
theorem ofJson_error {descriptor : Json} {fault : DescriptorError}
    (refused : ofJson library descriptor = .error fault) :
    (fault = .notObject ∧ ∀ members, descriptor ≠ .object members) ∨
      (fault = .identifierMissing ∧
        ∀ identifier, descriptor.get? identifierKey ≠ some (.string identifier)) ∨
      ∃ list : TestList, (fault = .listNotJson list ∨ fault = .listNotTests list) ∧
        ListsNoTests library (descriptor.get? list.key) := by
  cases descriptor with
  | object members =>
      refine .inr ?_
      by_cases named : ∃ identifier,
          (Json.object members).get? identifierKey = some (.string identifier)
      · obtain ⟨identifier, named⟩ := named
        rw [ofJson_eq_readLists named] at refused
        refine .inr ?_
        cases lists : readLists library (.object members) with
        | ok expected =>
            rw [lists] at refused
            cases refused
        | error cause =>
            rw [lists] at refused
            cases refused
            simp only [readLists, except_bind_eq_error_iff] at lists
            rcases lists with first | ⟨_, -, second | ⟨_, -, third | ⟨_, -, fourth | ⟨_, -, done⟩⟩⟩⟩
            · exact ⟨_, readTests_error first⟩
            · exact ⟨_, readTests_error second⟩
            · exact ⟨_, readTests_error third⟩
            · exact ⟨_, readTests_error fourth⟩
            · cases done
      · rw [not_exists] at named
        rw [ofJson_nameless named] at refused
        cases refused
        exact .inl ⟨rfl, named⟩
  | _ =>
      cases refused
      exact .inl ⟨rfl, nofun⟩

/-! ## Descriptors that are read alike -/

/-- The keys of the texts that a descriptor need not have. -/
def textKeys : List Bytes :=
  [ascii "repo", ascii "version", ascii "script", ascii "test_cmd"]

/-- Nothing that is read tells the one from the other. -/
structure ReadAlike (library : Json.Library) (one other : Json) : Prop where
  identifier : one.get? identifierKey = other.get? identifierKey
  texts : ∀ key ∈ textKeys, optionalText one key = optionalText other key
  patch : (one.get? patchKey).bind Json.string? = (other.get? patchKey).bind Json.string?
  lists : ∀ list, readTests library one list = readTests library other list

theorem ReadAlike.ofParts_eq {one other : Json} (alike : ReadAlike library one other)
    (identifier : Bytes) (expected : Expectations) : ofParts one identifier expected = ofParts other identifier expected := by
  have texts := alike.texts
  simp only [textKeys, List.forall_mem_cons] at texts
  obtain ⟨repository, version, script, testCommand, -⟩ := texts
  simp only [ofParts, repository, version, script, testCommand, alike.patch]

theorem ofJson_congr (alike : ReadAlike library (.object members) (.object others)) :
    ofJson library (.object members) = ofJson library (.object others) := by
  by_cases named : ∃ identifier,
      (Json.object members).get? identifierKey = some (.string identifier)
  · obtain ⟨identifier, named⟩ := named
    rw [ofJson_eq_readLists named, ofJson_eq_readLists (alike.identifier.symm.trans named)]
    have lists : readLists library (.object members) = readLists library (.object others) := by
      simp only [readLists, alike.lists]
    rw [lists]
    exact congrArg (Except.map · _) (funext (alike.ofParts_eq identifier))
  · rw [not_exists] at named
    rw [ofJson_nameless named, ofJson_nameless (alike.identifier ▸ named)]

theorem TestList.key_injective : Function.Injective TestList.key := by
  intro list other same
  cases list <;> cases other <;> first | rfl | exact absurd same (by decide)

theorem key_not_mem_textKeys (list : TestList) : list.key ∉ patchKey :: identifierKey :: textKeys := by
  cases list <;> decide

/-- A member that is no text is read as if it were not there, where only a text is looked for. -/
theorem ofJson_without {key : Bytes} (isText : key ∈ patchKey :: textKeys)
    (notText : ∀ text, (Json.object members).get? key ≠ some (.string text)) :
    ofJson library (.object (Json.dropMember key members)) = ofJson library (.object members) := by
  have notIdentifier : identifierKey ≠ key := by
    rintro rfl
    exact absurd isText (by decide)
  have same : ∀ other, ((Json.object (Json.dropMember key members)).get? other).bind Json.string? =
      ((Json.object members).get? other).bind Json.string? := by
    intro other
    rw [Json.get?_dropMember]
    split
    · rename_i here
      subst here
      cases read : ((Json.object members).get? other).bind Json.string? with
      | none => rfl
      | some text => exact absurd (Json.string?_bind_eq_some_iff.1 read) (notText text)
    · rfl
  refine ofJson_congr ⟨?_, fun other _ => congrArg (Option.getD · []) (same other), same patchKey,
    fun list => ?_⟩
  · rw [Json.get?_dropMember, if_neg notIdentifier]
  · have notList : list.key ≠ key := by
      rintro rfl
      refine key_not_mem_textKeys list ?_
      rcases List.mem_cons.1 isText with isPatch | isOther
      · exact isPatch ▸ List.mem_cons_self
      · exact List.mem_cons_of_mem _ (List.mem_cons_of_mem _ isOther)
    rw [readTests, readTests, Json.get?_dropMember, if_neg notList]

/-- A list may be written as an array, or as a text that is the JSON of that array. -/
theorem ofJson_listAsText {list : TestList} {items : List Json} {text : Bytes}
    (found : (Json.object members).get? list.key = some (.array items))
    (reads : library.parse text = some (.array items)) :
    ofJson library (.object (Json.setMember list.key (.string text) members)) =
      ofJson library (.object members) := by
  have elsewhere : ∀ key ∈ patchKey :: identifierKey :: textKeys,
      (Json.object (Json.setMember list.key (.string text) members)).get? key =
        (Json.object members).get? key := by
    intro key member
    have notList : key ≠ list.key := by
      rintro rfl
      exact key_not_mem_textKeys list member
    rw [Json.get?_setMember, if_neg notList]
  refine ofJson_congr ⟨elsewhere _ (by decide), fun key member => ?_, ?_, fun other => ?_⟩
  · rw [optionalText, optionalText,
      elsewhere key (List.mem_cons_of_mem _ (List.mem_cons_of_mem _ member))]
  · rw [elsewhere _ List.mem_cons_self]
  · rw [readTests, readTests, Json.get?_setMember]
    by_cases here : other = list
    · subst here
      rw [if_pos rfl, found]
      dsimp only
      rw [reads]
    · rw [if_neg fun same => here (TestList.key_injective same)]

/-- **A descriptor is refused for what it lacks, and read as what it says**, by any library.
It is refused just where it is no object, has no name, or has something else in the place of a
list of tests.  A member that should be a text and is none is as good as missing, and it makes no
difference whether a list is an array or a text that is read as that array, such as the one that
a lawful library writes for it. -/
theorem ofJson_reads (library : Json.Library) :
    (∀ descriptor,
      (∃ fault, ofJson library descriptor = .error fault) ↔ Undescribed library descriptor) ∧
      (∀ descriptor job, ofJson library descriptor = .ok job ↔ Describes library descriptor job) ∧
      (∀ members, ∀ key ∈ patchKey :: textKeys,
        (∀ text, (Json.object members).get? key ≠ some (.string text)) →
          ofJson library (.object (Json.dropMember key members)) =
            ofJson library (.object members)) ∧
      ∀ members (list : TestList) (items : List Json) (text : Bytes),
        (Json.object members).get? list.key = some (.array items) →
          (library.parse text = some (.array items) ∨
            ∃ has, library.Lawful has ∧ has (.object members) ∧
              library.dump (.array items) = .ok text) →
          ofJson library (.object (Json.setMember list.key (.string text) members)) =
            ofJson library (.object members) := by
  refine ⟨fun _ => ofJson_refused_iff, fun _ _ => ofJson_eq_ok_iff_describes,
    fun _ _ isText notText => ofJson_without isText notText, fun members list items text found => ?_⟩
  rintro (reads | ⟨has, lawful, held, dumped⟩)
  · exact ofJson_listAsText found reads
  · exact ofJson_listAsText found (lawful.parse_dump _ text (lawful.get? held found) dumped)

/-- A descriptor whose repository is a number, and that lists a test twice. -/
def numberedDetails : List (Bytes × Json) :=
  [(identifierKey, .string (ascii "i-1")), (ascii "repo", .int 7),
    (TestList.passToPass.key, .array [.string (ascii "t"), .string (ascii "t")])]

theorem numberedDetails_reads :
    (∀ text, (Json.object numberedDetails).get? (ascii "repo") ≠ some (.string text)) ∧
      ofJson Json.plain (.object (Json.dropMember (ascii "repo") numberedDetails)) =
        ofJson Json.plain (.object numberedDetails) ∧
      Json.plain.dump (.array [.string (ascii "t"), .string (ascii "t")]) =
        .ok (ascii "[\"t\",\"t\"]") ∧
      ofJson Json.plain (.object (Json.setMember TestList.passToPass.key
        (.string (ascii "[\"t\",\"t\"]")) numberedDetails)) =
          ofJson Json.plain (.object numberedDetails) := by
  have notText : ∀ text, (Json.object numberedDetails).get? (ascii "repo") ≠ some (.string text) :=
    fun _ isText => by cases isText
  have dumped : Json.plain.dump (.array [.string (ascii "t"), .string (ascii "t")]) =
      .ok (ascii "[\"t\",\"t\"]") := by
    decide +kernel
  obtain ⟨-, -, without, asText⟩ := ofJson_reads Json.plain
  exact ⟨notText, without numberedDetails _ (by decide) notText, dumped,
    asText numberedDetails .passToPass _ _ rfl
      (.inr ⟨fun _ => True, Json.plain_lawful, trivial, dumped⟩)⟩

end Job

end Evaluation

end Assay
