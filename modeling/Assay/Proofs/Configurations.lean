/-
# Assay.Proofs.Configurations -- what a configuration file does to the settings

A layer of settings is gone through in order and changes them in place, so what it does
to one of them is what its offers for that setting do (`foldl_offer_filter`).  A file has
one offer for each setting, and so decides each on its own (`applyFile_apply`).

What a file supplies is said without the reader of settings: the last member of the name,
in an object that is the last member of the section's name (`Setting.Entry`), of the type
that the kind accepts (`Kind.Reads`).  From that, `applyFile_fieldwise` has the laws of
reading one file after another.
-/
import Assay.Settings.Layers
import Mathlib.Data.List.Nodup

namespace Assay

set_option autoImplicit false

open Bytes

/-! ## Offers -/

namespace Settings

variable {settings other : Settings} {setting asked : Setting}

@[simp]
theorem put_self (settings : Settings) (setting : Setting) (value : setting.kind.Value) :
    settings.put setting value setting = value := by
  simp [put]

theorem put_of_ne (different : setting ≠ asked) (settings : Settings)
    (value : setting.kind.Value) : settings.put setting value asked = settings asked := by
  simp [put, different]

theorem offer_self (settings : Settings) (setting : Setting)
    (value? : Option setting.kind.Value) :
    settings.offer setting value? setting = value?.getD (settings setting) := by
  cases value? with
  | none => rfl
  | some value => exact put_self settings setting value

theorem offer_of_ne (different : setting ≠ asked) (settings : Settings)
    (value? : Option setting.kind.Value) :
    settings.offer setting value? asked = settings asked := by
  cases value? with
  | none => rfl
  | some value => exact put_of_ne different settings value

/-- An offer leaves a setting alike where it was alike. -/
theorem offer_congr (same : settings asked = other asked) (setting : Setting)
    (value? : Option setting.kind.Value) :
    settings.offer setting value? asked = other.offer setting value? asked := by
  by_cases here : setting = asked
  · subst here
    rw [offer_self, offer_self, same]
  · rw [offer_of_ne here, offer_of_ne here, same]

/-- Of many offers only those for a setting make a difference to it. -/
theorem foldl_offer_filter {ι : Type} (target : ι → Setting)
    (value? : (row : ι) → Option (target row).kind.Value) (rows : List ι)
    (same : settings asked = other asked) :
    rows.foldl (fun settings row => settings.offer (target row) (value? row)) settings asked =
      (rows.filter fun row => target row = asked).foldl
        (fun settings row => settings.offer (target row) (value? row)) other asked := by
  induction rows generalizing settings other with
  | nil => exact same
  | cons row rest ih =>
      rw [List.foldl_cons, List.filter_cons]
      split
      · exact ih (offer_congr same (target row) (value? row))
      · rename_i elsewhere
        have different : target row ≠ asked := by simpa using elsewhere
        exact ih ((offer_of_ne different settings (value? row)).trans same)

end Settings

/-! ## The file -/

namespace Json

theorem get?_addMember (table : KeyMap Bytes) (name : Bytes) (value : Json) (key : Bytes) :
    (addMember table (name, value)).get? key =
      if name = key then value.string? else table.get? key := by
  cases text : value.string? <;> simp [addMember, text]

theorem get?_foldl_addMember (members : List (Bytes × Json)) (table : KeyMap Bytes) (key : Bytes) :
    (members.foldl addMember table).get? key =
      match findMember key members with
      | some value => value.string?
      | none => table.get? key := by
  induction members generalizing table with
  | nil => rfl
  | cons member rest ih =>
      obtain ⟨name, value⟩ := member
      rw [List.foldl_cons, ih, findMember]
      cases findMember key rest with
      | some later => rfl
      | none =>
          simp only [get?_addMember, Option.none_or]
          split <;> rfl

/-- A name has the text of its last member, if that is one. -/
theorem get?_textTable (members : List (Bytes × Json)) (key : Bytes) :
    (textTable members).get? key = (findMember key members).bind string? := by
  rw [textTable, get?_foldl_addMember]
  cases findMember key members <;> rfl

theorem string?_eq_some_iff {value : Json} {text : Bytes} :
    value.string? = some text ↔ value = .string text := by
  cases value <;> simp [string?]

theorem get?_eq_some_iff {value found : Json} {key : Bytes} :
    value.get? key = some found ↔
      ∃ members, value = .object members ∧ findMember key members = some found := by
  cases value <;> simp [get?, object?]

end Json

/-- A JSON value is of the type that a kind accepts, and this is its value. -/
inductive Kind.Reads : (kind : Kind) → Json → kind.Value → Prop
  | text (text : Bytes) : Reads .text (.string text) text
  /-- A number of 32 bits is read as it is, any other as the one that it differs from by a
  multiple of `2 ^ 32`. -/
  | number {whole value : Int} (word : Json.fitsWord whole = true)
      (small : fitsInt32 value = true) (same : 4294967296 ∣ whole - value) :
      Reads .number (.int whole) value
  | flag (flag : Bool) : Reads .flag (.bool flag) flag
  /-- The strings of the list and no others, whatever the setting was. -/
  | texts (separator : Separator) (items : List Json) :
      Reads (.texts separator) (.array items) (items.filterMap Json.string?)
  | table {members : List (Bytes × Json)} {table : Environment}
      (listed : ∀ key text, table.get? key = some text ↔
        Json.findMember key members = some (.string text)) :
      Reads .table (.object members) table

theorem bmod_eq_iff {whole value : Int} :
    whole.bmod 4294967296 = value ↔ fitsInt32 value = true ∧ 4294967296 ∣ whole - value := by
  have shape : whole.bmod 4294967296 =
      if whole % 4294967296 < 2147483648 then whole % 4294967296
      else whole % 4294967296 - 4294967296 := rfl
  rw [shape]
  simp only [fitsInt32, Bool.and_eq_true, decide_eq_true_eq]
  split <;> omega

/-- What is read is what the types accept, and nothing else. -/
theorem Kind.ofJson?_eq_some_iff {kind : Kind} {entry : Json} {value : kind.Value} :
    kind.ofJson? entry = some value ↔ kind.Reads entry value := by
  constructor
  · intro read
    cases kind with
    | text =>
        obtain rfl := Json.string?_eq_some_iff.1 read
        exact .text value
    | number =>
        obtain ⟨whole, found, low⟩ := Option.map_eq_some_iff.1 read
        obtain ⟨isWhole, word⟩ := Option.filter_eq_some_iff.1 found
        cases entry <;> cases isWhole
        obtain ⟨small, same⟩ := bmod_eq_iff.1 low
        exact .number word small same
    | flag =>
        cases entry <;> cases read
        exact .flag _
    | texts separator =>
        cases entry <;> cases read
        exact .texts separator _
    | table =>
        cases entry <;> cases read
        rename_i members
        refine .table fun key text => ?_
        rw [Json.get?_textTable]
        cases Json.findMember key members with
        | none => simp
        | some found => simp [Json.string?_eq_some_iff]
  · intro reads
    cases reads with
    | text text => rfl
    | @number whole value word small same =>
        have low := bmod_eq_iff.2 ⟨small, same⟩
        simp [ofJson?, Json.int32?, Json.int?, word, low]
    | flag flag => rfl
    | texts separator items => rfl
    | @table members table listed =>
        refine congrArg some (KeyMap.ext_get? fun key => Option.ext fun text => ?_)
        rw [Json.get?_textTable, listed]
        cases Json.findMember key members with
        | none => simp
        | some found => simp [Json.string?_eq_some_iff]

namespace Setting

variable {setting : Setting} {configuration entry : Json} {value : setting.kind.Value}

/-- What a configuration has at the place of a setting: under the key of the setting, in an
object under the name of its section. -/
def Entry (setting : Setting) (configuration entry : Json) : Prop :=
  ∃ sections keys, configuration = .object sections ∧
    Json.findMember (ascii setting.place.1) sections = some (.object keys) ∧
    Json.findMember (ascii setting.place.2) keys = some entry

/-- A configuration has a value of the accepted type at the place of a setting. -/
def Supplied (setting : Setting) (configuration : Json) (value : setting.kind.Value) : Prop :=
  ∃ entry, setting.Entry configuration entry ∧ setting.kind.Reads entry value

theorem inFile?_eq_some_iff :
    setting.inFile? configuration = some value ↔ setting.Supplied configuration value := by
  unfold inFile? Supplied Entry
  rw [Option.bind_eq_some_iff]
  refine exists_congr fun entry => and_congr ?_ Kind.ofJson?_eq_some_iff
  rw [Option.bind_eq_some_iff]
  simp only [Json.get?_eq_some_iff]
  constructor
  · rintro ⟨_, ⟨sections, rfl, inSection⟩, keys, rfl, found⟩
    exact ⟨sections, keys, rfl, inSection, found⟩
  · rintro ⟨sections, keys, rfl, inSection, found⟩
    exact ⟨_, ⟨sections, rfl, inSection⟩, keys, rfl, found⟩

theorem inFile?_eq_none_iff :
    setting.inFile? configuration = none ↔ ∀ value, ¬ setting.Supplied configuration value := by
  simp only [Option.eq_none_iff_forall_ne_some, ne_eq, inFile?_eq_some_iff]

/-- Every setting is among all of them, once. -/
theorem filter_all (setting : Setting) : (all.filter fun other => other = setting) = [setting] := by
  cases setting <;> rfl

theorem mem_all (setting : Setting) : setting ∈ all := by
  have listed : setting ∈ all.filter fun other => other = setting := by simp [filter_all]
  exact (List.mem_filter.1 listed).1

/-- No two settings have one place. -/
theorem place_injective : Function.Injective place := by
  have apart : (all.map place).Nodup := by decide +kernel
  exact fun setting other same =>
    List.inj_on_of_nodup_map apart (mem_all setting) (mem_all other) same

end Setting

namespace Settings

/-- A file decides each of the settings on its own. -/
theorem applyFile_apply (settings : Settings) (configuration : Json) (setting : Setting) :
    settings.applyFile configuration setting =
      (setting.inFile? configuration).getD (settings setting) := by
  refine (foldl_offer_filter (fun setting => setting) (fun setting => setting.inFile? configuration)
    Setting.all rfl).trans ?_
  rw [Setting.filter_all]
  exact offer_self settings setting _

theorem applyFile_of_supplied {setting : Setting} {configuration : Json}
    {value : setting.kind.Value} (supplied : setting.Supplied configuration value)
    (settings : Settings) : settings.applyFile configuration setting = value := by
  rw [applyFile_apply, Setting.inFile?_eq_some_iff.2 supplied, Option.getD_some]

theorem applyFile_of_not_supplied {setting : Setting} {configuration : Json}
    (unsupplied : ∀ value, ¬ setting.Supplied configuration value) (settings : Settings) :
    settings.applyFile configuration setting = settings setting := by
  rw [applyFile_apply, Setting.inFile?_eq_none_iff.2 unsupplied, Option.getD_none]

/-- What a file supplies does not depend on the settings that it is read into, so that it
counts against them as a whole. -/
theorem applyFile_twice (settings : Settings) (configuration : Json) :
    (settings.applyFile configuration).applyFile configuration =
      settings.applyFile configuration := by
  funext setting
  rw [applyFile_apply, applyFile_apply]
  cases setting.inFile? configuration <;> rfl

/-- **A file is read setting by setting.**  A setting gets the value that its key has in its
section, if that is of the accepted type, and stays as it was if not.  So a file that is read
twice is read once, and of two files the later one decides what it supplies, whole lists and
tables too, and the earlier one all else. -/
theorem applyFile_fieldwise (settings : Settings) (first second : Json) :
    (∀ setting value, setting.Supplied first value → settings.applyFile first setting = value) ∧
    (∀ setting, (∀ value, ¬ setting.Supplied first value) →
      settings.applyFile first setting = settings setting) ∧
    (settings.applyFile first).applyFile first = settings.applyFile first ∧
    (∀ setting value, setting.Supplied second value →
      (settings.applyFile first).applyFile second setting = value ∧
        settings.applyFile second setting = value) ∧
    (∀ setting, (∀ value, ¬ setting.Supplied second value) →
      (settings.applyFile first).applyFile second setting = settings.applyFile first setting) ∧
    Function.Injective Setting.place := by
  refine ⟨fun _ _ supplied => applyFile_of_supplied supplied settings,
    fun _ unsupplied => applyFile_of_not_supplied unsupplied settings,
    applyFile_twice settings first, fun _ _ supplied => ?_,
    fun _ unsupplied => applyFile_of_not_supplied unsupplied _, Setting.place_injective⟩
  exact ⟨applyFile_of_supplied supplied _, applyFile_of_supplied supplied settings⟩

/-- A configuration with a list, a table, a name that is none, and a key of no setting. -/
def firstConfiguration : Json :=
  .record [("container", .record [("runArgs", .ofStrings [ascii "--net", ascii "host"]),
    ("env", .record [("A", .string (ascii "1")), ("B", .string (ascii "2"))]),
    ("image", .int 7), ("color", .string (ascii "red"))])]

/-- A later one: a table with one other entry that counts, and a number of more than 32 bits. -/
def secondConfiguration : Json :=
  .record [("container", .record [("env", .record [("C", .string (ascii "3")), ("A", .null)]),
    ("timeoutS", .int 4294967301)])]

theorem twoConfigurations_fieldwise :
    (initial.applyFile firstConfiguration).applyFile secondConfiguration .containerEnvironment =
      KeyMap.ofList [(ascii "C", ascii "3")] ∧
    (initial.applyFile firstConfiguration).applyFile secondConfiguration .containerTimeout =
      (5 : Int) ∧
    (initial.applyFile firstConfiguration).applyFile secondConfiguration .containerRunArguments =
      [ascii "--net", ascii "host"] ∧
    initial.applyFile firstConfiguration .containerImage = ([] : Bytes) := by
  obtain ⟨first, firstNot, -, second, secondNot, -⟩ :=
    applyFile_fieldwise initial firstConfiguration secondConfiguration
  have table : Setting.containerEnvironment.Supplied secondConfiguration
      (KeyMap.ofList [(ascii "C", ascii "3")]) :=
    Setting.inFile?_eq_some_iff.1 rfl
  have timeout : Setting.containerTimeout.Supplied secondConfiguration (5 : Int) :=
    Setting.inFile?_eq_some_iff.1 (by decide)
  have list : Setting.containerRunArguments.Supplied firstConfiguration
      [ascii "--net", ascii "host"] :=
    Setting.inFile?_eq_some_iff.1 (by decide)
  have noList := Setting.inFile?_eq_none_iff.1
    (show Setting.containerRunArguments.inFile? secondConfiguration = none by decide)
  have noText := Setting.inFile?_eq_none_iff.1
    (show Setting.containerImage.inFile? firstConfiguration = none by decide)
  exact ⟨(second _ _ table).1, (second _ _ timeout).1, (secondNot _ noList).trans (first _ _ list),
    firstNot _ noText⟩

end Settings

end Assay
