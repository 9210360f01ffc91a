/-
# Assay.Environment -- the environment of a program, and the search for programs

An environment is handed over as entries `NAME=value`.  The entries of the host
become a map, overlays are laid over it in order, and the search path can be
pinned above them all.
-/
import Assay.Host
import Assay.Bytes.Search

namespace Assay

set_option autoImplicit false

open Bytes

/-- The variables of an environment. -/
abbrev Environment := KeyMap Bytes

namespace Environment

/-- The search path that children of the executor always get. -/
def securePath : Bytes := ascii "/bin:/usr/bin:/usr/local/bin"

def pathName : Bytes := ascii "PATH"

/-- The name and value of an entry; without an equals sign, or without a name in
front of it, an entry sets nothing. -/
def nameValue? (entry : Bytes) : Option (Bytes × Bytes) :=
  match cut? [equals] entry with
  | some (name, value) => if name.isEmpty then none else some (name, value)
  | none => none

/-- The variables that entries set; the last entry for a name counts. -/
def ofEntries (entries : List Bytes) : Environment :=
  KeyMap.ofList (entries.filterMap nameValue?)

def toEntries (environment : Environment) : List Bytes :=
  environment.toList.map fun entry => entry.1 ++ equals :: entry.2

/-- Lay overlays over an environment in order; a missing one changes nothing. -/
def layer (environment : Environment) (overlays : List (Option Environment)) : Environment :=
  overlays.foldl (fun below overlay => below.override (overlay.getD ∅)) environment

def pin (environment : Environment) : Environment :=
  environment.insert pathName securePath

/-- The environment for a child: that of the host, the overlays, and the pinned
search path if wanted. -/
def build (entries : List Bytes) (overlays : List (Option Environment)) (pinned : Bool) :
    Environment :=
  let layered := (ofEntries entries).layer overlays
  if pinned then layered.pin else layered

/-- The search path of an environment. -/
def searchPath (environment : Environment) : Bytes :=
  (environment.get? pathName).getD securePath

end Environment

/-- The program that a name stands for: a name with a slash in it stands for itself,
another one for the first runnable file of that name in the directories of the
search path. -/
def findProgram (files : FileTree) (base searchPath name : Bytes) : Option Bytes :=
  if name.isEmpty then none
  else if name.elem slash then some name
  else
    ((fieldsWhere (· == colon) searchPath).map fun directory => Path.under directory name).find?
      (files.isExecutable base)

def Host.findProgram (host : Host) (searchPath name : Bytes) : Option Bytes :=
  Assay.findProgram host.files host.directory searchPath name

end Assay
