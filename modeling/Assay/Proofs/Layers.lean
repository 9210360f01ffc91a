/-
# Assay.Proofs.Layers -- which layer a setting takes its value from

The environment has one offer for a setting or none, but for the runtime, which is
offered the variable of old first and the two of today after it; what is offered later
ranks higher (`variableNames_eq`).  The names of the variables are said by their scheme
(`Setting.variableNames`), and their order is their rank.

Over the usual values there are thus two layers, of which each decides a setting on its
own, and a setting has the value of the topmost one that supplies it (`Setting.Decided`).
There are settings wherever the host lets the place of the file be looked at and no directory
stands there (`Withholds`); `load_decided` says both, for whatever reads the file.
-/
import Assay.Json.Plain
import Assay.Proofs.Acts
import Assay.Proofs.Configurations
import Mathlib.Data.List.Induction
import Mathlib.Data.List.Pairwise

namespace Assay

set_option autoImplicit false

open Bytes

/-! ## The environment -/

namespace Setting

/-- What the variables of a setting end in, if it has variables of today. -/
def variableEnd? : Setting → Option String
  | executorTimeout => some "TIMEOUT_S"
  | containerExecutable => some "EXECUTABLE"
  | containerImage => some "IMAGE"
  | containerNamespaces => some "NAMESPACES"
  | containerName => some "NAME"
  | containerForwarded => some "FORWARD_ENV"
  | containerTimeout => some "TIMEOUT_S"
  | discoveryAttempts => some "DISCOVERY_ATTEMPTS"
  | discoveryPause => some "DISCOVERY_BACKOFF_MS"
  | workDirectory => some "WORK_DIR"
  | descriptorPath => some "DETAILS_PATH"
  | evaluationTimeout => some "TIMEOUT_S"
  | datasetPath => some "DATASET_PATH"
  | evaluatorCommand => some "EVALUATOR_COMMAND"
  | serverCommand => some "SERVER_COMMAND"
  | inspectorPort => some "INSPECTOR_PORT"
  | logLevel => some "LEVEL"
  | logEcho => some "STDOUT"
  | _ => none

/-- The variable of old of a setting. -/
def oldVariables : Setting → List String
  | containerExecutable => ["MSWEA_DOCKER_EXECUTABLE"]
  | sharePath => ["WORK_SHARE"]
  | _ => []

/-- The variable of a section: two underscores stand between the section and the rest. -/
def primary (setting : Setting) (ending : String) : String :=
  "EVALBOX_" ++ setting.place.1.toUpper ++ "__" ++ ending

/-- The variable with one underscore, where the section of the log has a short name. -/
def secondary (setting : Setting) (ending : String) : String :=
  let section' := if setting.place.1 = "logging" then "LOG" else setting.place.1.toUpper
  "EVALBOX_" ++ section' ++ "_" ++ ending

/-- The variables of a setting by their rank. -/
def variableNames (setting : Setting) : List String :=
  (setting.variableEnd?.toList.flatMap fun ending =>
    [setting.primary ending, setting.secondary ending]) ++ setting.oldVariables

/-- The overrides of a setting, in the order in which they are made. -/
def overridden (setting : Setting) : List Override :=
  overrides.filter fun override => override.setting = setting

/-- An override that is made later ranks higher. -/
theorem variableNames_eq (setting : Setting) :
    setting.variableNames = setting.overridden.reverse.flatMap Override.names := by
  cases setting <;> decide +kernel

example : containerExecutable.variableNames = ["EVALBOX_CONTAINER__EXECUTABLE",
    "EVALBOX_CONTAINER_EXECUTABLE", "MSWEA_DOCKER_EXECUTABLE"] := by
  decide +kernel

/-- Only a text has more than one override, and there is a value in every text. -/
theorem overridden_single (setting : Setting) :
    setting.overridden.length ≤ 1 ∨ setting.kind = .text := by
  cases setting <;> decide

/-- No variable is that of two settings. -/
theorem eq_of_mem_variableNames {setting other : Setting} {name : String}
    (own : name ∈ setting.variableNames) (others : name ∈ other.variableNames) :
    setting = other := by
  have apart : (all.flatMap variableNames).Nodup := by decide +kernel
  have disjoint : all.Pairwise (Function.onFun List.Disjoint variableNames) :=
    (List.nodup_flatMap.1 apart).2
  have : Std.Symm (Function.onFun List.Disjoint variableNames) :=
    ⟨fun _ _ => List.disjoint_symm⟩
  by_contra different
  exact disjoint.forall (mem_all setting) (mem_all other) different own others

end Setting

theorem firstGiven?_append (host : Host) (front back : List String) :
    firstGiven? host (front ++ back) = (firstGiven? host front).or (firstGiven? host back) := by
  rw [firstGiven?, List.map_append, List.find?_append]
  rfl

theorem Kind.ofText?_of_text {kind : Kind} (isText : kind = .text) (text : Bytes) :
    ∃ value, kind.ofText? text = some value := by
  subst isText
  exact ⟨text, rfl⟩

namespace Setting

variable {setting : Setting} {host : Host} {text : Bytes}

/-- The value that the environment has for a setting. -/
def inEnvironment? (setting : Setting) (host : Host) : Option setting.kind.Value :=
  (firstGiven? host setting.variableNames).bind setting.kind.ofText?

/-- A variable of the setting has this text, and those above it are empty. -/
def Overridden (setting : Setting) (host : Host) (text : Bytes) : Prop :=
  ∃ above name below, setting.variableNames = above ++ name :: below ∧
    (∀ other ∈ above, host.getVariable (ascii other) = []) ∧
    host.getVariable (ascii name) = text ∧ text ≠ []

theorem firstGiven?_eq_some_iff :
    firstGiven? host setting.variableNames = some text ↔ setting.Overridden host text := by
  unfold firstGiven? Overridden
  rw [List.find?_map, Option.map_eq_some_iff]
  simp only [List.find?_eq_some_iff_append, Function.comp, Bool.not_eq_true',
    List.isEmpty_eq_false_iff, Bool.not_not, List.isEmpty_iff]
  constructor
  · rintro ⟨name, ⟨given, above, below, ranked, unset⟩, rfl⟩
    exact ⟨above, name, below, ranked, unset, rfl, given⟩
  · rintro ⟨above, name, below, ranked, unset, rfl, given⟩
    exact ⟨name, ⟨given, above, below, ranked, unset⟩, rfl⟩

theorem inEnvironment?_eq_some_iff {value : setting.kind.Value} :
    setting.inEnvironment? host = some value ↔
      ∃ text, setting.Overridden host text ∧ setting.kind.ofText? text = some value := by
  simp only [inEnvironment?, Option.bind_eq_some_iff, firstGiven?_eq_some_iff]

theorem inEnvironment?_eq_none_iff :
    setting.inEnvironment? host = none ↔
      ∀ text, setting.Overridden host text → setting.kind.ofText? text = none := by
  simp only [inEnvironment?, Option.bind_eq_none_iff, firstGiven?_eq_some_iff]

end Setting

namespace Settings

/-- Overrides of one setting, the last one ranking first. -/
theorem foldl_overrides {setting : Setting} (host : Host) (settings : Settings)
    {rows : List Override} (own : ∀ row ∈ rows, row.setting = setting)
    (single : rows.length ≤ 1 ∨ setting.kind = .text) :
    rows.foldl (fun settings override =>
      settings.offer override.setting (override.value? host)) settings setting =
      ((firstGiven? host (rows.reverse.flatMap Override.names)).bind
        setting.kind.ofText?).getD (settings setting) := by
  induction rows using List.reverseRecOn with
  | nil => rfl
  | append_singleton earlier row ih =>
      obtain rfl : row.setting = setting := own row (by simp)
      have before := ih (fun other member => own other (by simp [member]))
        (single.imp_left fun short => by simp at short; simp [short])
      rw [List.foldl_append, List.foldl_cons, List.foldl_nil, offer_self, before,
        List.reverse_append, List.reverse_singleton, List.singleton_append, List.flatMap_cons,
        firstGiven?_append, Override.value?]
      cases firstGiven? host row.names with
      | none => rfl
      | some text =>
          rcases single with short | isText
          · obtain rfl : earlier = [] := by simpa using short
            rfl
          · obtain ⟨value, read⟩ := Kind.ofText?_of_text isText text
            simp [read]

/-- The environment decides each of the settings on its own. -/
theorem applyEnvironment_apply (settings : Settings) (host : Host) (setting : Setting) :
    settings.applyEnvironment host setting =
      (setting.inEnvironment? host).getD (settings setting) := by
  refine (foldl_offer_filter Override.setting (fun override => override.value? host)
    overrides rfl).trans ?_
  rw [Setting.inEnvironment?, Setting.variableNames_eq]
  refine foldl_overrides host settings (fun row member => ?_) setting.overridden_single
  simpa using (List.mem_filter.1 member).2

/-! ## All layers -/

/-- The object that the file at a path begins with; any other file, or none, is taken for an
empty object. -/
def document (library : Json.Library) (host : Host) (path : Bytes) : List (Bytes × Json) :=
  match configuration library host path with
  | .ok (.object members) => members
  | _ => []

/-- The settings when no layer supplies a value. -/
def usual : Settings :=
  initial.put .workDirectory usualWorkDirectory

end Settings

namespace Setting

open Settings (document usual)

/-- A work directory without a name is as good as none. -/
def isVoid : (setting : Setting) → setting.kind.Value → Bool
  | .workDirectory, (name : Bytes) => name.isEmpty
  | _, _ => false

/-- The value of a setting is that of the topmost layer which supplies one. -/
inductive Decided (library : Json.Library) (setting : Setting) (host : Host) (path : Bytes) :
    setting.kind.Value → Prop
  /-- The first of its variables that is not empty, if the kind has a value for that text. -/
  | overridden {text : Bytes} {value : setting.kind.Value}
      (given : setting.Overridden host text) (read : setting.kind.ofText? text = some value) :
      Decided library setting host path value
  /-- Else what the file has at its place, in the accepted type. -/
  | supplied {value : setting.kind.Value}
      (undisturbed : ∀ text, setting.Overridden host text → setting.kind.ofText? text = none)
      (supplied : setting.Supplied (.object (document library host path)) value)
      (useful : setting.isVoid value = false) : Decided library setting host path value
  /-- Else the usual value. -/
  | usual
      (undisturbed : ∀ text, setting.Overridden host text → setting.kind.ofText? text = none)
      (useless : ∀ value, setting.Supplied (.object (document library host path)) value →
        setting.isVoid value = true) : Decided library setting host path (usual setting)

/-- No variable leaves the work directory without a name. -/
theorem not_isVoid_of_overridden {setting : Setting} {host : Host} {text : Bytes}
    {value : setting.kind.Value} (given : setting.Overridden host text)
    (read : setting.kind.ofText? text = some value) : setting.isVoid value = false := by
  obtain ⟨_, _, _, _, _, _, named⟩ := given
  cases setting with
  | workDirectory =>
      obtain rfl : text = value := Option.some.inj read
      simpa [isVoid] using named
  | _ => rfl

end Setting

namespace Settings

theorem ensureWorkDirectory_apply (settings : Settings) (setting : Setting) :
    settings.ensureWorkDirectory setting =
      if setting.isVoid (settings setting) then usual setting else settings setting := by
  unfold ensureWorkDirectory
  by_cases here : .workDirectory = setting
  · subst here
    simp only [Setting.isVoid, usual, put_self]
    split
    · exact put_self settings _ _
    · rfl
  · have kept : setting.isVoid (settings setting) = false := by
      cases setting <;> first | rfl | exact absurd rfl here
    rw [kept, if_neg Bool.false_ne_true]
    split
    · exact put_of_ne here settings _
    · rfl

/-- Why a host has no settings to give: it does not say whether there is something at the path,
or that is a directory. -/
inductive Withholds (host : Host) (path : Bytes) : LoadError → Prop
  | unseen {reason : FileError} (looked : host.files.look host.directory path = .error reason)
      (unknown : reason ∉ [.missing, .notDirectory]) : Withholds host path (.unseen path reason)
  | unread (looked : host.files.look host.directory path = .ok .directory) :
      Withholds host path .unread

variable {library : Json.Library} {host : Host} {path : Bytes} {settings : Settings}

theorem configuration_eq_error_iff (library : Json.Library) {fault : LoadError} :
    configuration library host path = .error fault ↔ Withholds host path fault := by
  have cases_iff : Withholds host path fault ↔
      (∃ reason, host.files.look host.directory path = .error reason ∧
        reason ∉ [.missing, .notDirectory] ∧ fault = .unseen path reason) ∨
      (host.files.look host.directory path = .ok .directory ∧ fault = .unread) := by
    constructor
    · rintro (⟨looked, unknown⟩ | looked)
      · exact .inl ⟨_, looked, unknown, rfl⟩
      · exact .inr ⟨looked, rfl⟩
    · rintro (⟨reason, looked, unknown, rfl⟩ | ⟨looked, rfl⟩)
      · exact .unseen looked unknown
      · exact .unread looked
  rw [cases_iff]
  unfold configuration
  cases host.files.look host.directory path with
  | ok node => cases node <;> simp [eq_comm]
  | error reason => cases reason <;> simp [eq_comm]

/-- What a file that is not taken for an empty object supplies, it supplies as that object. -/
theorem inFile?_document {found : Json} (read : configuration library host path = .ok found)
    (setting : Setting) :
    setting.inFile? found = setting.inFile? (.object (document library host path)) := by
  rw [document, read]
  cases found <;> rfl

theorem load_eq_error_iff {fault : LoadError} :
    load library host path = .error fault ↔ Withholds host path fault := by
  rw [← configuration_eq_error_iff library, load]
  cases configuration library host path <;> simp [Except.map]

theorem load_eq_ok_iff :
    load library host path = .ok settings ↔
      ∃ found, configuration library host path = .ok found ∧ layered found host = settings := by
  rw [load]
  cases configuration library host path <;> simp [Except.map]

section

variable (loaded : load library host path = .ok settings)
include loaded

theorem load_apply (setting : Setting) :
    settings setting =
      let found := (setting.inEnvironment? host).getD
        ((setting.inFile? (.object (document library host path))).getD (usual setting))
      if setting.isVoid found then usual setting else found := by
  obtain ⟨found, read, rfl⟩ := load_eq_ok_iff.1 loaded
  rw [layered, ensureWorkDirectory_apply, applyEnvironment_apply, applyFile_apply,
    inFile?_document read]
  rfl

/-- Each setting has the value that is decided for it. -/
theorem load_decides (setting : Setting) :
    setting.Decided library host path (settings setting) := by
  rw [load_apply loaded]
  cases environment : setting.inEnvironment? host with
  | some value =>
      obtain ⟨text, given, read⟩ := Setting.inEnvironment?_eq_some_iff.1 environment
      simp only [Option.getD_some, Setting.not_isVoid_of_overridden given read]
      exact .overridden given read
  | none =>
      have undisturbed := Setting.inEnvironment?_eq_none_iff.1 environment
      cases file : setting.inFile? (.object (document library host path)) with
      | some value =>
          simp only [Option.getD_none, Option.getD_some]
          have supplied := Setting.inFile?_eq_some_iff.1 file
          split
          · rename_i void
            refine .usual undisturbed fun other others => ?_
            rw [← Setting.inFile?_eq_some_iff, file] at others
            cases others
            exact void
          · rename_i useful
            exact .supplied undisturbed supplied (by simpa using useful)
      | none =>
          simp only [Option.getD_none, ite_self]
          refine .usual undisturbed fun value supplied => ?_
          exact absurd supplied (Setting.inFile?_eq_none_iff.1 file value)

/-- Only one value is decided for a setting. -/
theorem eq_of_decided {setting : Setting} {value : setting.kind.Value}
    (decided : setting.Decided library host path value) : settings setting = value := by
  rw [load_apply loaded]
  cases decided with
  | overridden given read =>
      rw [Setting.inEnvironment?_eq_some_iff.2 ⟨_, given, read⟩]
      simp [Setting.not_isVoid_of_overridden given read]
  | supplied undisturbed supplied useful =>
      rw [Setting.inEnvironment?_eq_none_iff.2 undisturbed,
        Setting.inFile?_eq_some_iff.2 supplied]
      simp [useful]
  | usual undisturbed useless =>
      rw [Setting.inEnvironment?_eq_none_iff.2 undisturbed]
      cases file : setting.inFile? (.object (document library host path)) with
      | none => simp
      | some value => simp [useless value (Setting.inFile?_eq_some_iff.1 file)]

theorem load_workDirectory_ne_nil : (settings .workDirectory : Bytes) ≠ [] := by
  rw [load_apply loaded]
  dsimp only
  split
  · decide
  · rename_i useful
    simpa [Setting.isVoid] using useful

end

theorem document_of_missing (missing : host.pathExists path = false) :
    document library host path = [] := by
  unfold document configuration
  rw [Host.pathExists, FileTree.pathExists] at missing
  cases looked : host.files.look host.directory path with
  | ok node =>
      rw [looked] at missing
      cases missing
  | error reason => cases reason <;> rfl

end Settings

namespace Setting

open Settings (document)

/-- Hosts with the same variables of a setting override it alike. -/
theorem overridden_congr {setting : Setting} {host other : Host}
    (same : ∀ name ∈ setting.variableNames,
      other.getVariable (ascii name) = host.getVariable (ascii name)) (text : Bytes) :
    setting.Overridden other text ↔ setting.Overridden host text := by
  unfold Overridden
  refine exists_congr fun above => exists_congr fun name => exists_congr fun below =>
    and_congr_right fun ranked => ?_
  have atName := same name (by simp [ranked])
  have atAbove : ∀ higher ∈ above,
      other.getVariable (ascii higher) = host.getVariable (ascii higher) :=
    fun higher member => same higher (by simp [ranked, member])
  rw [atName]
  exact and_congr_left fun _ => forall₂_congr fun higher member => by rw [atAbove higher member]

theorem Decided.congr {library : Json.Library} {setting : Setting} {host other : Host}
    {path elsewhere : Bytes} {value : setting.kind.Value}
    (decided : setting.Decided library host path value)
    (sameVariables : ∀ name ∈ setting.variableNames,
      other.getVariable (ascii name) = host.getVariable (ascii name))
    (sameEntry : ∀ entry, setting.Entry (.object (document library other elsewhere)) entry ↔
      setting.Entry (.object (document library host path)) entry) :
    setting.Decided library other elsewhere value := by
  have sameFile : ∀ value, setting.Supplied (.object (document library other elsewhere)) value ↔
      setting.Supplied (.object (document library host path)) value :=
    fun _ => exists_congr fun entry => and_congr_left fun _ => sameEntry entry
  have sameOverride := overridden_congr sameVariables
  cases decided with
  | overridden given read => exact .overridden ((sameOverride _).2 given) read
  | supplied undisturbed supplied useful =>
      exact .supplied (fun text given => undisturbed text ((sameOverride text).1 given))
        ((sameFile _).2 supplied) useful
  | usual undisturbed useless =>
      exact .usual (fun text given => undisturbed text ((sameOverride text).1 given))
        fun value supplied => useless value ((sameFile value).1 supplied)

end Setting

namespace Settings

/-- The value of a setting depends on its own variables and on what is at its own place. -/
theorem load_congr {library : Json.Library} {setting : Setting} {host other : Host}
    {path elsewhere : Bytes} {settings others : Settings}
    (loaded : load library host path = .ok settings)
    (loadedOther : load library other elsewhere = .ok others)
    (sameVariables : ∀ name ∈ setting.variableNames,
      other.getVariable (ascii name) = host.getVariable (ascii name))
    (sameEntry : ∀ entry, setting.Entry (.object (document library other elsewhere)) entry ↔
      setting.Entry (.object (document library host path)) entry) :
    others setting = settings setting :=
  eq_of_decided loadedOther ((load_decides loaded setting).congr sameVariables sameEntry)

/-- **There are settings but where the host withholds them, and each is decided by the topmost
layer that supplies a value for it**: its variables by their rank, the file, the usual value.
It depends on nothing but its own variables and its own place in the file, which it shares with
no other setting; a file that is not there is an empty object; and there always is a work
directory. -/
theorem load_decided (library : Json.Library) (host : Host) (path : Bytes) :
    (∀ fault, load library host path = .error fault ↔ Withholds host path fault) ∧
    (∀ settings, load library host path = .ok settings →
      (∀ setting value, settings setting = value ↔ setting.Decided library host path value) ∧
      (∀ setting other elsewhere others, load library other elsewhere = .ok others →
        (∀ name ∈ setting.variableNames,
          other.getVariable (ascii name) = host.getVariable (ascii name)) →
        (∀ entry, setting.Entry (.object (document library other elsewhere)) entry ↔
          setting.Entry (.object (document library host path)) entry) →
        others setting = settings setting) ∧
      (settings .workDirectory : Bytes) ≠ []) ∧
    (∀ setting other : Setting, ∀ name ∈ setting.variableNames, name ∈ other.variableNames →
      setting = other) ∧
    Function.Injective Setting.place ∧
    (host.pathExists path = false → document library host path = []) := by
  refine ⟨fun _ => load_eq_error_iff, fun settings loaded => ⟨fun setting value => ?_,
    fun _ _ _ _ => load_congr loaded, load_workDirectory_ne_nil loaded⟩,
    fun _ _ _ => Setting.eq_of_mem_variableNames, Setting.place_injective, document_of_missing⟩
  constructor
  · rintro rfl
    exact load_decides loaded setting
  · exact eq_of_decided loaded

/-- A configuration with something behind it. -/
def trailedConfiguration : Bytes :=
  ascii ("\x7b\"container\": \x7b\"executable\": \"docker\"\x7d, " ++
    "\"evaluation\": \x7b\"timeoutS\": 900, \"workDir\": \"\"\x7d\x7d end")

/-- A host with a configuration, an unreadable number in a variable, and a runtime that is
given by the variable of old. -/
def layeredHost : Host :=
  { Host.bare with
    files := (FileTree.bare false).put (ascii "/c.json") (.file trailedConfiguration 0o644)
    environ := [ascii "EVALBOX_EVALUATION__TIMEOUT_S=soon", ascii "EVALBOX_CONTAINER_EXECUTABLE=",
      ascii "MSWEA_DOCKER_EXECUTABLE=podman"] }

/-- The same host, with more variables and without the configuration. -/
def unlayeredHost : Host :=
  { Host.bare with
    environ := layeredHost.environ ++ [ascii "WORK_SHARE=/work", ascii "EVALBOX_LOG_LEVEL=DEBUG"] }

theorem layeredHost_decided :
    ∃ settings others,
      load Json.plain layeredHost (ascii "c.json") = .ok settings ∧
      load Json.plain unlayeredHost (ascii "c.json") = .ok others ∧
      settings .containerExecutable = ascii "podman" ∧
      settings .evaluationTimeout = (900 : Int) ∧
      settings .workDirectory = ascii "/dev/shm/swe-sandbox" ∧
      others .inspectorPort = settings .inspectorPort := by
  obtain ⟨settings, loaded⟩ :
      ∃ settings, load Json.plain layeredHost (ascii "c.json") = .ok settings := ⟨_, rfl⟩
  obtain ⟨others, loadedOther⟩ :
      ∃ others, load Json.plain unlayeredHost (ascii "c.json") = .ok others := ⟨_, rfl⟩
  obtain ⟨-, each, -⟩ := load_decided Json.plain layeredHost (ascii "c.json")
  obtain ⟨decided, depends, -⟩ := each _ loaded
  have unlisted : document Json.plain unlayeredHost (ascii "c.json") = [] :=
    document_of_missing (by decide +kernel)
  refine ⟨_, _, loaded, loadedOther, (decided _ _).2 ?_, (decided _ _).2 ?_, (decided _ _).2 ?_,
    depends _ _ _ _ loadedOther ?_ ?_⟩
  · exact .overridden ⟨["EVALBOX_CONTAINER__EXECUTABLE", "EVALBOX_CONTAINER_EXECUTABLE"],
      "MSWEA_DOCKER_EXECUTABLE", [], by decide +kernel, by decide +kernel, by decide +kernel,
      by decide⟩ rfl
  · exact .supplied (Setting.inEnvironment?_eq_none_iff.1 (by decide +kernel))
      (Setting.inFile?_eq_some_iff.1 (by decide +kernel)) rfl
  · refine .usual (Setting.inEnvironment?_eq_none_iff.1 (by decide +kernel)) ?_
    intro value supplied
    have nameless : Setting.workDirectory.inFile?
        (.object (document Json.plain layeredHost (ascii "c.json"))) = some ([] : Bytes) := by
      decide +kernel
    rw [← Setting.inFile?_eq_some_iff, nameless] at supplied
    cases supplied
    rfl
  · decide +kernel
  · have noSection : Json.findMember (ascii Setting.inspectorPort.place.1)
        (document Json.plain layeredHost (ascii "c.json")) = none :=
      Option.isNone_iff_eq_none.1 (by decide +kernel)
    intro entry
    rw [unlisted]
    constructor
    · rintro ⟨_, _, ⟨⟩, ⟨⟩, _⟩
    · rintro ⟨sections, keys, same, found, -⟩
      rw [← Json.object.inj same, noSection] at found
      cases found

/-- A path whose last name is too long for a name. -/
def longPath : Bytes :=
  List.replicate 300 97

/-- There is nothing at the path, and yet there are no settings. -/
theorem longPath_withheld :
    Host.bare.pathExists longPath = false ∧
      load Json.plain Host.bare longPath = .error (.unseen longPath .nameTooLong) := by
  exact ⟨by decide +kernel, load_eq_error_iff.2 (.unseen (by decide +kernel) (by decide))⟩

end Settings

end Assay
