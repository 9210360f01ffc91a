/-
# Assay.Cli.Options -- what the command line asks for
-/
import Assay.Bytes.Decimal
import Assay.Settings.Layers
import Assay.Supervise.Tools

namespace Assay.Cli

set_option autoImplicit false

open Bytes

/-- How the program is used. -/
def usage : Bytes :=
  ascii "Usage: evalbox evaluate [--details PATH] [--container | --image IMAGE]\n" ++
    ascii "       evalbox reward <instance_id> <patch_file|-> [timeout]\n" ++
    ascii "       evalbox serve [work_dir] [port] [--quiet] [--async]"

/-! ## Evaluating -/

/-- What is to be evaluated, and where. -/
structure EvaluateOptions where
  descriptorPath : Bytes
  /-- Whether the container is one that runs already. -/
  discover : Bool
  /-- The image of a new container; empty for none. -/
  image : Bytes
  deriving DecidableEq, Repr

/-- The options after some more arguments; none when these are not understood. -/
def EvaluateOptions.read? (options : EvaluateOptions) : List Bytes → Option EvaluateOptions
  | [] => some options
  | [argument] =>
      if argument = ascii "--container" then some { options with discover := true } else none
  | argument :: value :: rest =>
      if argument = ascii "--details" then { options with descriptorPath := value }.read? rest
      else if argument = ascii "--container" then
        { options with discover := true }.read? (value :: rest)
      else if argument = ascii "--image" then { options with image := value }.read? rest
      else none

/-! ## Numbers -/

/-- An argument is not the positive number that it should be. -/
structure NotPositive where
  /-- What the number is for. -/
  use : Bytes
  argument : Bytes
  deriving DecidableEq, Repr

def NotPositive.message (fault : NotPositive) : Bytes :=
  untilZero (ascii "invalid " ++ fault.use ++ ascii ": " ++ fault.argument)

/-- The positive number that an argument stands for. -/
def positive (use argument : Bytes) : Except NotPositive Int :=
  match leadingInt32? argument with
  | some (value, []) => if 0 < value then .ok value else .error ⟨use, argument⟩
  | _ => .error ⟨use, argument⟩

/-! ## Serving -/

/-- What is to be served, and how. -/
structure ServeOptions where
  directory : Bytes
  inspectorPort : Int
  quiet : Bool
  backend : Supervise.Backend
  deriving DecidableEq, Repr

/-- Why the arguments for serving are not understood. -/
inductive ServeError where
  | tooMany
  | notPositive (fault : NotPositive)
  deriving DecidableEq, Repr

def ServeError.message : ServeError → Bytes
  | tooMany => ascii "too many arguments"
  | notPositive fault => fault.message

def quietFlag : Bytes := ascii "--quiet"
def cooperativeFlag : Bytes := ascii "--async"

/-- The options that arguments stand for; a number that is not given is the usual one. -/
def ServeOptions.read (usualPort : Int) (arguments : List Bytes) : Except ServeError ServeOptions :=
  let options : ServeOptions := {
    directory := Path.here
    inspectorPort := usualPort
    quiet := arguments.elem quietFlag
    backend := if arguments.elem cooperativeFlag then .cooperative else .threads }
  match arguments.filter fun argument => argument != quietFlag && argument != cooperativeFlag with
  | [] => .ok options
  | [directory] => .ok { options with directory }
  | [directory, number] =>
      match positive (ascii "port") number with
      | .ok inspectorPort => .ok { options with directory, inspectorPort }
      | .error fault => .error (.notPositive fault)
  | _ => .error .tooMany

end Assay.Cli
