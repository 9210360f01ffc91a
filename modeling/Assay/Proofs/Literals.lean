/-
# Assay.Proofs.Literals -- which texts of variables are values of a setting

A variable that overrides a number or a flag has a text, and whoever writes it means a value.
The literals of a kind (`Kind.Literal`) are said by their grammar: blanks, a sign, digits and
blanks again for a number that fits, and one of eight words for a flag.

A literal is read as its value.  Of the other texts two sorts are read as well
(`Kind.Misread`): a number with something behind it counts as that number, and whatever is no
word for a flag counts as one for off.  So a text that is no literal leaves the layer below
as it is exactly where it is not misread as something else (`malformed_keeps_iff`).
-/
import Assay.Proofs.Layers
import Mathlib.Data.List.TakeWhile

namespace Assay

set_option autoImplicit false

open Bytes

namespace Bytes

/-! ## Numbers at the beginning of a text -/

/-- What stands before the digits of a number. -/
inductive Sign where
  | absent
  | plus
  | minus
  deriving DecidableEq, Repr

namespace Sign

def text : Sign → Bytes
  | absent => []
  | plus => [43]
  | minus => [45]

def value : Sign → Nat → Int
  | minus, magnitude => -magnitude
  | _, magnitude => magnitude

/-- The sign that a text begins with, and what follows it. -/
def split : Bytes → Sign × Bytes
  | [] => (absent, [])
  | b :: rest => if b = 45 then (minus, rest) else if b = 43 then (plus, rest) else (absent, b :: rest)

theorem text_append_split (start : Bytes) : (split start).1.text ++ (split start).2 = start := by
  cases start with
  | nil => rfl
  | cons b rest =>
      rw [split]
      split
      · rename_i isMinus
        rw [isMinus]
        rfl
      · split
        · rename_i isPlus
          rw [isPlus]
          rfl
        · rfl

/-- A sign in front of a digit is the whole sign. -/
theorem split_text_append (sign : Sign) {digit : UInt8} (isDigit : isDigit digit = true)
    (rest : Bytes) : split (sign.text ++ digit :: rest) = (sign, digit :: rest) := by
  cases sign with
  | absent =>
      have notMinus : digit ≠ 45 := by
        rintro rfl
        exact absurd isDigit (by decide)
      have notPlus : digit ≠ 43 := by
        rintro rfl
        exact absurd isDigit (by decide)
      simp [text, split, notMinus, notPlus]
  | plus => rfl
  | minus => rfl

end Sign

/-- The text begins with a number, blanks before it, and goes on with `rest`. -/
inductive Opens : Bytes → Int → Bytes → Prop
  | intro (blanks : Bytes) (sign : Sign) (digits rest : Bytes)
      (blank : ∀ b ∈ blanks, isBlank b = true) (some' : digits ≠ [])
      (decimal : ∀ b ∈ digits, isDigit b = true) (ends : ∀ b ∈ rest.head?, isDigit b = false) :
      Opens (blanks ++ (sign.text ++ (digits ++ rest))) (sign.value (digitsValue digits)) rest

theorem leadingInt?_eq (text : Bytes) :
    leadingInt? text =
      let (sign, unsigned) := Sign.split (trimLeft text)
      if (unsigned.takeWhile isDigit).isEmpty then none
      else some (sign.value (digitsValue (unsigned.takeWhile isDigit)),
        unsigned.dropWhile isDigit) := by
  unfold leadingInt?
  cases trimLeft text with
  | nil => rfl
  | cons b rest =>
      rw [Sign.split]
      by_cases isMinus : b = 45
      · subst isMinus
        rfl
      · by_cases isPlus : b = 43
        · subst isPlus
          rfl
        · simp [isMinus, isPlus, Sign.value]

theorem isBlank_of_isDigit {b : UInt8} (digit : isDigit b = true) : isBlank b = false := by
  have low : 48 ≤ b.toNat := by
    simp only [isDigit, Bool.and_eq_true, decide_eq_true_eq, UInt8.le_iff_toNat_le] at digit
    exact digit.1
  have apart : ¬ isBlank b = true := by
    simp only [isBlank, Bool.or_eq_true, beq_iff_eq, Bool.and_eq_true, decide_eq_true_eq,
      UInt8.le_iff_toNat_le, ← UInt8.toNat_inj]
    rintro (isSpace | ⟨-, high⟩)
    · rw [isSpace] at low
      exact absurd low (by decide)
    · exact absurd (low.trans high) (by decide)
  simpa using apart

/-- What passes a test ends where something fails it. -/
theorem takeWhile_append_of_ends {p : UInt8 → Bool} {front rest : Bytes}
    (all : ∀ b ∈ front, p b = true) (ends : ∀ b ∈ rest.head?, p b = false) :
    (front ++ rest).takeWhile p = front ∧ (front ++ rest).dropWhile p = rest := by
  have nothing : rest.takeWhile p = [] ∧ rest.dropWhile p = rest := by
    cases rest with
    | nil => exact ⟨rfl, rfl⟩
    | cons b more => simp [ends b rfl]
  rw [List.takeWhile_append_of_pos all, List.dropWhile_append_of_pos all, nothing.1, nothing.2,
    List.append_nil]
  exact ⟨rfl, rfl⟩

theorem leadingInt?_eq_some_iff {text rest : Bytes} {value : Int} :
    leadingInt? text = some (value, rest) ↔ Opens text value rest := by
  rw [leadingInt?_eq]
  constructor
  · intro found
    dsimp only at found
    split at found
    · cases found
    · rename_i some'
      cases found
      have whole : text = text.takeWhile isBlank ++ ((Sign.split (trimLeft text)).1.text ++
          ((Sign.split (trimLeft text)).2.takeWhile isDigit ++
            (Sign.split (trimLeft text)).2.dropWhile isDigit)) := by
        rw [List.takeWhile_append_dropWhile, Sign.text_append_split, trimLeft,
          List.takeWhile_append_dropWhile]
      have opens := Opens.intro (text.takeWhile isBlank) (Sign.split (trimLeft text)).1
        ((Sign.split (trimLeft text)).2.takeWhile isDigit)
        ((Sign.split (trimLeft text)).2.dropWhile isDigit)
        (fun b member => List.mem_takeWhile_imp member) (by simpa using some')
        (fun b member => List.mem_takeWhile_imp member) fun b isHead => by
          have head := List.head?_dropWhile_not isDigit (Sign.split (trimLeft text)).2
          rw [isHead] at head
          simpa using head
      rwa [← whole] at opens
  · rintro ⟨blanks, sign, digits, rest, blank, some', decimal, ends⟩
    obtain ⟨digit, more, rfl⟩ := List.exists_cons_of_ne_nil some'
    have isDigit' : isDigit digit = true := decimal digit List.mem_cons_self
    have unblank : ∀ b ∈ (sign.text ++ (digit :: more ++ rest)).head?, isBlank b = false := by
      cases sign with
      | absent =>
          rintro b ⟨⟩
          exact isBlank_of_isDigit isDigit'
      | plus =>
          rintro b ⟨⟩
          rfl
      | minus =>
          rintro b ⟨⟩
          rfl
    have start : trimLeft (blanks ++ (sign.text ++ (digit :: more ++ rest))) =
        sign.text ++ digit :: (more ++ rest) :=
      (takeWhile_append_of_ends blank unblank).2
    rw [start, Sign.split_text_append sign isDigit']
    dsimp only
    rw [← List.cons_append, (takeWhile_append_of_ends decimal ends).1,
      (takeWhile_append_of_ends decimal ends).2]
    rfl

end Bytes

/-! ## Literals -/

/-- The words that switch a flag on or off. -/
def flagWords : Bool → List Bytes
  | true => [ascii "1", ascii "true", ascii "yes", ascii "on"]
  | false => [ascii "0", ascii "false", ascii "no", ascii "off"]

namespace Kind

/-- The text is a complete literal of the kind: a number with nothing but blanks around it that
fits, or a word for a flag in any case. -/
def Literal : (kind : Kind) → Bytes → kind.Value → Prop
  | .number, written, value => ∃ rest, Opens written value rest ∧ (∀ b ∈ rest, isBlank b = true) ∧
      -2147483648 ≤ value ∧ value ≤ 2147483647
  | .flag, written, value => toLower written ∈ flagWords value
  | _, _, _ => False

/-- The text is no literal, and is taken for a value all the same: a number with something
behind it for that number, and any text for a flag that is off. -/
def Misread : (kind : Kind) → Bytes → kind.Value → Prop
  | .number, written, value => ∃ rest, Opens written value rest ∧ (∃ b ∈ rest, isBlank b = false) ∧
      -2147483648 ≤ value ∧ value ≤ 2147483647
  | .flag, written, value => (∀ switched, toLower written ∉ flagWords switched) ∧ value = false
  | _, _, _ => False

variable {kind : Kind} {text : Bytes} {value : kind.Value}

theorem ofText?_number_eq_some_iff {number : Int} :
    Kind.number.ofText? text = some number ↔
      ∃ rest, Opens text number rest ∧ -2147483648 ≤ number ∧ number ≤ 2147483647 := by
  simp only [ofText?, leadingInt32?, Option.map_eq_some_iff, Option.filter_eq_some_iff,
    fitsInt32, Bool.and_eq_true, decide_eq_true_eq, Prod.exists]
  constructor
  · rintro ⟨_, rest, ⟨found, fits⟩, rfl⟩
    exact ⟨rest, leadingInt?_eq_some_iff.1 found, fits⟩
  · rintro ⟨rest, opens, fits⟩
    exact ⟨number, rest, ⟨leadingInt?_eq_some_iff.2 opens, fits⟩, rfl⟩

theorem switchedOn_iff : switchedOn text = true ↔ toLower text ∈ flagWords true := by
  simp [switchedOn, flagWords]

/-- No word switches a flag both on and off. -/
theorem switchedOn_eq_false (off : toLower text ∈ flagWords false) : switchedOn text = false := by
  rw [Bool.eq_false_iff, ne_eq, switchedOn_iff]
  have apart : ∀ word ∈ flagWords false, word ∉ flagWords true := by decide
  exact apart _ off

/-- A literal is read as its value. -/
theorem ofText?_of_literal (literal : kind.Literal text value) :
    kind.ofText? text = some value := by
  cases kind with
  | number =>
      obtain ⟨rest, opens, -, fits⟩ := literal
      exact ofText?_number_eq_some_iff.2 ⟨rest, opens, fits⟩
  | flag =>
      refine congrArg some ?_
      cases value with
      | true => exact switchedOn_iff.2 literal
      | false => exact switchedOn_eq_false literal
  | _ => exact absurd literal id

theorem ofText?_of_misread (misread : kind.Misread text value) :
    kind.ofText? text = some value := by
  cases kind with
  | number =>
      obtain ⟨rest, opens, -, fits⟩ := misread
      exact ofText?_number_eq_some_iff.2 ⟨rest, opens, fits⟩
  | flag =>
      obtain ⟨noWord, rfl⟩ := misread
      refine congrArg some (Bool.eq_false_iff.2 ?_)
      exact fun switched => noWord true (switchedOn_iff.1 switched)
  | _ => exact absurd misread id

/-- What is read is a literal, or misread. -/
theorem literal_or_misread (scalar : kind = .number ∨ kind = .flag)
    (read : kind.ofText? text = some value) : kind.Literal text value ∨ kind.Misread text value := by
  rcases scalar with rfl | rfl
  · obtain ⟨rest, opens, fits⟩ := ofText?_number_eq_some_iff.1 read
    by_cases blank : ∀ b ∈ rest, isBlank b = true
    · exact .inl ⟨rest, opens, blank, fits⟩
    · refine .inr ⟨rest, opens, ?_, fits⟩
      simpa using blank
  · obtain rfl : switchedOn text = value := Option.some.inj read
    cases switched : switchedOn text with
    | true => exact .inl (switchedOn_iff.1 switched)
    | false =>
        by_cases off : toLower text ∈ flagWords false
        · exact .inl off
        · refine .inr ⟨fun word => ?_, rfl⟩
          cases word with
          | true => exact fun on => by simp [switchedOn_iff.2 on] at switched
          | false => exact off

end Kind

/-! ## Texts that are no literals -/

namespace Settings

variable {setting : Setting} {host : Host} {text : Bytes}

/-- What the first variable that is not empty makes of a setting. -/
theorem applyEnvironment_of_overridden (settings : Settings)
    (given : setting.Overridden host text) :
    settings.applyEnvironment host setting =
      (setting.kind.ofText? text).getD (settings setting) := by
  rw [applyEnvironment_apply, Setting.inEnvironment?, Setting.firstGiven?_eq_some_iff.2 given]
  rfl

/-- Only the work directory is looked at once more when the environment was applied. -/
theorem layered_eq_applyEnvironment (scalar : setting.kind = .number ∨ setting.kind = .flag)
    (configuration : Json) (host : Host) :
    layered configuration host setting =
      (usual.applyFile configuration).applyEnvironment host setting := by
  have kept : setting.isVoid ((usual.applyFile configuration).applyEnvironment host
      setting) = false := by
    cases setting <;> first | rfl | simp at scalar
  refine (ensureWorkDirectory_apply _ setting).trans (if_neg ?_)
  rw [Bool.not_eq_true]
  exact kept

theorem load_eq_applyEnvironment (scalar : setting.kind = .number ∨ setting.kind = .flag)
    (library : Json.Library) (host : Host) (path : Bytes) :
    (load library host path).map (· setting) =
      (configuration library host path).map fun configuration =>
        (usual.applyFile configuration).applyEnvironment host setting := by
  rw [load]
  cases configuration library host path with
  | error fault => rfl
  | ok found => exact congrArg Except.ok (layered_eq_applyEnvironment scalar found host)

/-- **A number or a flag that a variable overrides by a literal has the value of that literal;
by any other text it is left as the layers below have made it exactly where that text is not
misread as another value.** -/
theorem malformed_keeps_iff (settings : Settings)
    (scalar : setting.kind = .number ∨ setting.kind = .flag)
    (given : setting.Overridden host text) :
    (∀ value, setting.kind.Literal text value →
      settings.applyEnvironment host setting = value) ∧
    ((∀ value, ¬ setting.kind.Literal text value) →
      (settings.applyEnvironment host setting = settings setting ↔
        ∀ value, setting.kind.Misread text value → value = settings setting) ∧
      ∀ value, setting.kind.Misread text value →
        settings.applyEnvironment host setting = value) ∧
    ∀ library path, (load library host path).map (· setting) =
      (configuration library host path).map fun configuration =>
        (usual.applyFile configuration).applyEnvironment host setting := by
  have applied := applyEnvironment_of_overridden settings given
  have misread : ∀ value, setting.kind.Misread text value →
      settings.applyEnvironment host setting = value := by
    intro value isMisread
    rw [applied, Kind.ofText?_of_misread isMisread, Option.getD_some]
  refine ⟨fun value literal => ?_, fun malformed => ⟨⟨?_, ?_⟩, misread⟩,
    fun library => load_eq_applyEnvironment scalar library host⟩
  · rw [applied, Kind.ofText?_of_literal literal, Option.getD_some]
  · intro kept value isMisread
    exact (misread value isMisread).symm.trans kept
  · intro unheard
    cases read : setting.kind.ofText? text with
    | none => rw [applied, read, Option.getD_none]
    | some value =>
        have isMisread := (Kind.literal_or_misread scalar read).resolve_left (malformed value)
        rw [misread value isMisread, unheard value isMisread]

/-- A host with a number among blanks, one that is too large, and a flag in doubt. -/
def variedHost : Host :=
  { Host.bare with
    environ := [ascii "EVALBOX_CONTAINER__TIMEOUT_S= +90 ",
      ascii "EVALBOX_EVALUATION__TIMEOUT_S=9999999999", ascii "EVALBOX_LOG_STDOUT=Maybe"] }

theorem variedHost_keeps :
    Setting.Overridden .containerTimeout variedHost (ascii " +90 ") ∧
      usual.applyEnvironment variedHost .containerTimeout = (90 : Int) ∧
      Setting.Overridden .evaluationTimeout variedHost (ascii "9999999999") ∧
      usual.applyEnvironment variedHost .evaluationTimeout = (3600 : Int) ∧
      Setting.Overridden .logEcho variedHost (ascii "Maybe") ∧
      usual.applyEnvironment variedHost .logEcho = false := by
  have blanks : Setting.Overridden .containerTimeout variedHost (ascii " +90 ") :=
    Setting.firstGiven?_eq_some_iff.1 (by decide +kernel)
  have large : Setting.Overridden .evaluationTimeout variedHost (ascii "9999999999") :=
    Setting.firstGiven?_eq_some_iff.1 (by decide +kernel)
  have doubtful : Setting.Overridden .logEcho variedHost (ascii "Maybe") :=
    Setting.firstGiven?_eq_some_iff.1 (by decide +kernel)
  have unfit : ∀ {number : Int} {rest}, Opens (ascii "9999999999") number rest →
      ¬ number ≤ 2147483647 := by
    intro number rest opens
    have read : leadingInt? (ascii "9999999999") = some (9999999999, []) := by decide +kernel
    rw [← leadingInt?_eq_some_iff, read] at opens
    cases opens
    decide
  have noWord : ∀ switched, toLower (ascii "Maybe") ∉ flagWords switched := by decide +kernel
  refine ⟨blanks, (malformed_keeps_iff usual (.inl rfl) blanks).1 (90 : Int) ?_, large,
    ((malformed_keeps_iff usual (.inl rfl) large).2.1 ?_).1.2 ?_, doubtful,
    ((malformed_keeps_iff usual (.inr rfl) doubtful).2.1 noWord).1.2 ?_⟩
  · exact ⟨[32], leadingInt?_eq_some_iff.1 (by decide +kernel),
      List.forall_mem_singleton.2 (by decide), by decide, by decide⟩
  · rintro number ⟨rest, opens, -, -, high⟩
    exact unfit opens high
  · rintro number ⟨rest, opens, -, -, high⟩
    exact absurd high (unfit opens)
  · rintro value ⟨-, rfl⟩
    rfl

/-- A host with a unit behind a number, and a file that switches on what a variable leaves in
doubt. -/
def suffixedHost : Host :=
  { Host.bare with
    files := (FileTree.bare false).put (ascii "/c.json")
      (.file (ascii "\x7b\"logging\": \x7b\"stdout\": true\x7d\x7d") 0o644)
    environ := [ascii "EVALBOX_CONTAINER__TIMEOUT_S=90s", ascii "EVALBOX_LOG_STDOUT=maybe"] }

/-- Texts that are no literals, and do not leave the layers below as they are. -/
theorem unitSuffix_overrides :
    ∃ found settings, configuration Json.plain suffixedHost (ascii "c.json") = .ok found ∧
      load Json.plain suffixedHost (ascii "c.json") = .ok settings ∧
      (Setting.Overridden .containerTimeout suffixedHost (ascii "90s") ∧
        (∀ number, ¬ Kind.number.Literal (ascii "90s") number) ∧
        usual.applyFile found .containerTimeout = (30 : Int) ∧
        settings .containerTimeout = (90 : Int)) ∧
      Setting.Overridden .logEcho suffixedHost (ascii "maybe") ∧
        (∀ switched, ¬ Kind.flag.Literal (ascii "maybe") switched) ∧
        usual.applyFile found .logEcho = true ∧
        settings .logEcho = false := by
  have suffixed : Setting.Overridden .containerTimeout suffixedHost (ascii "90s") :=
    Setting.firstGiven?_eq_some_iff.1 (by decide +kernel)
  have doubtful : Setting.Overridden .logEcho suffixedHost (ascii "maybe") :=
    Setting.firstGiven?_eq_some_iff.1 (by decide +kernel)
  refine ⟨_, _, rfl, load_eq_ok_iff.2 ⟨_, rfl, rfl⟩, ⟨suffixed, ?_, by decide +kernel, ?_⟩,
    doubtful, ?_, by decide +kernel, ?_⟩
  · rintro number ⟨rest, opens, blank, -⟩
    have read : leadingInt? (ascii "90s") = some (90, ascii "s") := by decide +kernel
    rw [← leadingInt?_eq_some_iff, read] at opens
    cases opens
    exact absurd (blank 115 (by decide)) (by decide)
  · rw [layered_eq_applyEnvironment (.inl rfl), applyEnvironment_of_overridden _ suffixed]
    decide +kernel
  · exact (by decide +kernel : ∀ switched, toLower (ascii "maybe") ∉ flagWords switched)
  · rw [layered_eq_applyEnvironment (.inr rfl), applyEnvironment_of_overridden _ doubtful]
    decide +kernel

end Settings

end Assay
