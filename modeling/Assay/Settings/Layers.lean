/-
# Assay.Settings.Layers -- the layers that settings come from

The environment overrides the configuration file, and the file overrides the
initial values: each layer is gone through in order, and changes one setting after
the other in place.  What a layer holds in a form that a setting cannot take, it
does not supply.

A host may refuse to say whether there is a configuration file, and what is there may be
nothing that can be read; then there are no settings at all (`Settings.LoadError`).
-/
import Assay.Json.Library
import Assay.Settings.Basic

namespace Assay

set_option autoImplicit false

open Bytes

/-! ## The configuration file -/

/-- Of two members of one name the later one counts, also when it is no text. -/
def Json.addMember (table : KeyMap Bytes) (member : Bytes × Json) : KeyMap Bytes :=
  match member.2.string? with
  | some text => table.insert member.1 text
  | none => table.erase member.1

/-- The texts among the members, by name. -/
def Json.textTable (members : List (Bytes × Json)) : KeyMap Bytes :=
  members.foldl Json.addMember ∅

/-- The value of a kind in a JSON value.  Of a list or a table, only the strings count. -/
def Kind.ofJson? : (kind : Kind) → Json → Option kind.Value
  | .text, value => value.string?
  | .number, value => value.int32?
  | .flag, value => value.bool?
  | .texts _, value => value.array?.map Json.strings
  | .table, value => value.object?.map Json.textTable

/-- The value that a configuration supplies for a setting. -/
def Setting.inFile? (setting : Setting) (configuration : Json) : Option setting.kind.Value :=
  ((configuration.get? (ascii setting.place.1)).bind (·.get? (ascii setting.place.2))).bind
    setting.kind.ofJson?

/-! ## The environment -/

/-- The words that switch a flag on, in any case. -/
def switchedOn (word : Bytes) : Bool :=
  [ascii "1", ascii "true", ascii "yes", ascii "on"].elem (toLower word)

def Separator.split : Separator → Bytes → List Bytes
  | .comma, text => fieldsWhere (· == Bytes.comma) text
  | .blanks, text => fields text

/-- The value of a kind in a text.  A number may be followed by anything. -/
def Kind.ofText? : (kind : Kind) → Bytes → Option kind.Value
  | .text, written => some written
  | .number, written => (leadingInt32? written).map (·.1)
  | .flag, written => some (switchedOn written)
  | .texts separator, written => some (separator.split written)
  | .table, _ => none

/-- The first of the variables that is not empty. -/
def firstGiven? (host : Host) (names : List String) : Option Bytes :=
  (names.map fun name => host.getVariable (ascii name)).find? fun text => !text.isEmpty

/-- The value that an override has for its setting. -/
def Override.value? (override : Override) (host : Host) : Option override.setting.kind.Value :=
  (firstGiven? host override.names).bind override.setting.kind.ofText?

namespace Settings

def applyFile (settings : Settings) (configuration : Json) : Settings :=
  Setting.all.foldl (fun settings setting =>
    settings.offer setting (setting.inFile? configuration)) settings

def applyEnvironment (settings : Settings) (host : Host) : Settings :=
  overrides.foldl (fun settings override =>
    settings.offer override.setting (override.value? host)) settings

/-! ## Loading -/

/-- The work directory when none is set. -/
def usualWorkDirectory : Bytes := ascii "/dev/shm/swe-sandbox"

/-- The settings with a work directory in any case. -/
def ensureWorkDirectory (settings : Settings) : Settings :=
  let given : Bytes := settings .workDirectory
  if given.isEmpty then settings.put .workDirectory usualWorkDirectory else settings

/-- Why there are no settings. -/
inductive LoadError where
  /-- The host does not say whether there is a configuration. -/
  | unseen (path : Bytes) (reason : FileError)
  /-- The configuration is a directory. -/
  | unread
  deriving DecidableEq, Repr

def LoadError.message (fault : LoadError) : Bytes :=
  untilZero <| match fault with
    | unseen path reason =>
        ascii "filesystem error: status: " ++ reason.message ++ ascii " [" ++ path ++ ascii "]"
    | unread =>
        ascii "basic_filebuf::underflow error reading the file: " ++ FileError.isDirectory.message

/-- The configuration in a file; null when there is none or it does not begin with JSON. -/
def configuration (library : Json.Library) (host : Host) (path : Bytes) : Except LoadError Json :=
  match host.files.look host.directory path with
  | .ok .directory => .error .unread
  | .ok _ => .ok ((library.parseFront (host.text path)).getD .null)
  | .error .missing | .error .notDirectory => .ok .null
  | .error reason => .error (.unseen path reason)

/-- The settings with a configuration and the environment applied. -/
def layered (configuration : Json) (host : Host) : Settings :=
  (((initial.put .workDirectory usualWorkDirectory).applyFile configuration).applyEnvironment
    host).ensureWorkDirectory

/-- The settings with the file at a path and the environment applied. -/
def load (library : Json.Library) (host : Host) (path : Bytes) : Except LoadError Settings :=
  (configuration library host path).map (layered · host)

/-- Where the configuration file usually is. -/
def usualPath (host : Host) : Bytes :=
  let home := (host.getVariable? (ascii "HOME")).getD Path.here
  Path.under (Path.under home (ascii ".evalbox")) (ascii "config.json")

end Settings

end Assay
