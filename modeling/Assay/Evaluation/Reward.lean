/-
# Assay.Evaluation.Reward -- evaluating patches for the instances of a dataset

A dataset maps instances to entries whose details describe a job.  To evaluate a
patch, the details are written with the patch in them to a directory that the
container shares, and the evaluator is run in the container.
-/
import Assay.Evaluation.Job
import Assay.Evaluation.Runner
import Assay.Settings.Basic

namespace Assay.Evaluation

set_option autoImplicit false

open Bytes
open Exec (Outcome)

/-- Why a dataset cannot be used. -/
inductive DatasetError where
  | missing (path : Bytes)
  | notObject (path : Bytes)
  deriving DecidableEq, Repr

def DatasetError.message (fault : DatasetError) : Bytes :=
  untilZero <| match fault with
    | missing path => ascii "dataset not found: " ++ path
    | notObject path => ascii "dataset is not a JSON object: " ++ path

/-- Why a patch is not evaluated. -/
inductive RewardError where
  | unknownInstance
  | detailsEmpty
  | detailsNotObject
  | descriptorNotWritten (path : Bytes)
  deriving DecidableEq, Repr

def RewardError.message : RewardError → Bytes
  | unknownInstance => ascii "instance_id is not founded!"
  | detailsEmpty => ascii "details is empty!"
  | detailsNotObject => ascii "details is not a valid JSON object!"
  | descriptorNotWritten path => ascii "failed to write " ++ path

/-! ## Descriptors -/

def detailsKey : Bytes := ascii "details"

/-- The details of an entry.  A string holds them as JSON text. -/
def detailsOf (library : Json.Library) (entry : Json) :
    Except RewardError (List (Bytes × Json)) :=
  match entry.get? detailsKey with
  | none | some .null | some (.string []) | some (.object []) => .error .detailsEmpty
  | some (.object members) => .ok members
  | some (.string text) =>
      match library.parse text with
      | some (.object members) => .ok members
      | _ => .error .detailsNotObject
  | some _ => .error .detailsNotObject

/-- The descriptor for a patch to an instance of a dataset. -/
def descriptorFor (library : Json.Library) (dataset : Json) (identifier patch : Bytes) :
    Except RewardError Json :=
  match dataset.get? identifier with
  | none | some .null => .error .unknownInstance
  | some entry => do
      let details ← detailsOf library entry
      return .object (Json.setMember Job.patchKey (.string patch) details)

/-! ## The service -/

/-- Evaluates patches in a container. -/
structure Rewarder where
  /-- The directory that the container shares. -/
  sharePath : Bytes
  /-- Where the evaluator is before it is staged. -/
  evaluatorSource : Bytes
  evaluatorCommand : Bytes
  client : Container.Client
  dataset : Json

/-- How many items or members a value has; a value that has none of either counts as one. -/
def entryCount : Json → Nat
  | .null => 0
  | .array items => items.length
  | .object members => members.length
  | _ => 1

namespace Rewarder

/-- A service without a dataset. -/
def ofSettings (settings : Settings) (client : Container.Client) : Rewarder where
  sharePath := settings .sharePath
  evaluatorSource := settings .evaluatorSource
  evaluatorCommand := settings .evaluatorCommand
  client
  dataset := .object []

def descriptorPath (rewarder : Rewarder) : Bytes :=
  Path.under rewarder.sharePath (ascii "details.json")

/-- The directory in which the evaluator runs. -/
def evaluatorDirectory (rewarder : Rewarder) : Bytes :=
  Path.under rewarder.sharePath (ascii "eval")

/-- The service with the dataset in a file. -/
def load (library : Json.Library) (rewarder : Rewarder) (path : Bytes) :
    Act (Except DatasetError Rewarder) := do
  let host ← get
  if !host.isRegular path then return .error (.missing path)
  match library.parse (host.text path) with
  | some (.object members) =>
      Log.info (ascii "[reward] Loaded " ++ ofNat members.length ++ ascii " instances from " ++ path)
      return .ok { rewarder with dataset := .object members }
  | _ => return .error (.notObject path)

/-! ## Staging -/

/-- Where the evaluator is staged. -/
def stagedPath (rewarder : Rewarder) : Bytes :=
  Path.under rewarder.sharePath (Path.lastName rewarder.evaluatorSource)

/-- What a host refuses when something is moved on it, beyond what its files say. -/
structure Refusals where
  /-- It gives nothing another place: the two are on different file systems, or a directory may
  not be changed. -/
  placing : Bool
  /-- It stops copying after so many entries, for this reason. -/
  copying : Option (Nat × FileError)
  /-- It does not remove what stands at these locations, and so no directory around them. -/
  removing : Bytes → Bool
  around : ∀ location outer, FileTree.isInside location outer = true → removing location = true →
    removing outer = true := by simp

/-- A host that refuses nothing. -/
def Refusals.none : Refusals where
  placing := false
  copying := .none
  removing _ := false

/-- Copy what a path leads to and then remove it; answers the files and, if it could not be
copied, why.  Whether it was removed is not looked at. -/
def copyAway (refusals : Refusals) (host : Host) (source target : Bytes) :
    FileTree × Option FileError :=
  match host.files.copy refusals.copying host.directory source target with
  | (files, .none) => (files.removeAll refusals.removing host.directory source, .none)
  | failed => failed

/-- Where the current directory is when what the source leads to was given the place of the
target: it moves along. -/
def directoryAfter (host : Host) (source target : Bytes) : Bytes :=
  match host.files.resolve host.directory source, host.files.resolve host.directory target with
  | .ok origin, .ok goal => FileTree.carry origin goal host.directory
  | _, _ => host.directory

/-- Move what a path leads to.  What cannot be given another place, be it for the target or
because the host refuses it, is copied away. -/
def moveTree (refusals : Refusals) (host : Host) (source target : Bytes) :
    Host × Option FileError :=
  match refusals.placing, host.files.rename host.directory source target with
  | false, .ok files =>
      ({ host with files, directory := directoryAfter host source target }, none)
  | _, _ =>
      let (files, failure) := copyAway refusals host source target
      ({ host with files }, failure)

/-- Stage the evaluator on a host that refuses some of it; answers whether it was there and
could be moved. -/
def stageFrom (refusals : Refusals) (rewarder : Rewarder) : Act Bool := do
  let source := rewarder.evaluatorSource
  let target := rewarder.stagedPath
  if !(← get).pathExists source then
    Log.debug (ascii "[reward] No evaluator at " ++ source)
    return false
  let _ ← makeDirectories rewarder.sharePath
  let failure ← modifyGet fun host => (moveTree refusals host source target).swap
  match failure with
  | none =>
      Log.info (ascii "[reward] Staged evaluator at " ++ target)
      return true
  | some reason =>
      Log.warn (ascii "[reward] Failed to stage evaluator into " ++ target ++ ascii ": " ++ reason.message)
      return false

/-- Stage the evaluator on a host that refuses nothing. -/
def stage (rewarder : Rewarder) : Act Bool :=
  rewarder.stageFrom .none

/-! ## Evaluation -/

/-- Evaluate a patch to an instance.  A descriptor that cannot be written as JSON ends it without
an outcome. -/
def evaluate (library : Json.Library) (programs : Programs) (rewarder : Rewarder)
    (identifier patch : Bytes) (timeout : Int) : Act (Except Fault Outcome) := do
  match descriptorFor library rewarder.dataset identifier patch with
  | .error cause => return .ok (.failure cause.message)
  | .ok descriptor =>
      match library.dump descriptor with
      | .error reason => return .error (.other reason)
      | .ok text =>
          let path := rewarder.descriptorPath
          if !(← writeFile path text) then
            return .ok (.failure (RewardError.descriptorNotWritten path).message)
          Log.info (ascii "[reward] Evaluating " ++ identifier ++ ascii " with timeout " ++
            ofInt timeout ++ ascii "s")
          return (← rewarder.client.execute programs rewarder.evaluatorCommand
            rewarder.evaluatorDirectory (some timeout)).mapError .notReady

end Rewarder

end Assay.Evaluation
