/-
# Assay.Container.Discovery -- finding a container that runs already

The containers of a namespace are listed by the runtime, one JSON object to a
line.  A container is looked for in several namespaces in order, and again from
the first one when it was in none of them.
-/
import Assay.Container.Client
import Assay.Bytes.Lines
import Assay.Json.Library

namespace Assay.Container

set_option autoImplicit false

open Bytes

/-- A container as a listing shows it. -/
structure Listed where
  name : Bytes
  identifier : Bytes
  deriving DecidableEq, Repr

/-- The container that a line of a listing shows, if it shows one. -/
def Listed.ofLine? (library : Json.Library) (line : Bytes) : Option Listed := do
  let entry ← library.parse line
  let name ← (← entry.get? (ascii "Names")).string?
  let identifier ← (← entry.get? (ascii "ID")).string?
  return ⟨name, identifier⟩

/-- The identifier of the first container of a name in a listing. -/
def identifierIn? (library : Json.Library) (name listing : Bytes) : Option Bytes :=
  (((lines listing).filterMap (Listed.ofLine? library)).find? fun listed => listed.name == name).map
    (·.identifier)

/-- Where a container was found. -/
structure Located where
  identifier : Bytes
  namespaceName : Bytes
  deriving DecidableEq, Repr

namespace Client

/-- The listing of a namespace; none when the runtime did not give one. -/
def listing? (programs : Programs) (client : Client) (namespaceName : Bytes) :
    Act (Option Bytes) := do
  match ← invoke programs (client.config.listingWords namespaceName) client.config.timeout with
  | .error reason =>
      Log.warn (ascii "[container] listing namespace " ++ namespaceName ++ ascii " failed: " ++ reason)
      return none
  | .ok run =>
      match run.ending with
      | .outlived => return none
      | .reaped status => return if exitCode status = 0 then some (run.on .output) else none

/-- Look for a container in namespaces, in order. -/
def locate? (library : Json.Library) (programs : Programs) (client : Client) (name : Bytes) :
    List Bytes → Act (Option Located)
  | [] => return none
  | namespaceName :: rest => do
      match (← client.listing? programs namespaceName).bind (identifierIn? library name) with
      | some identifier => return some ⟨identifier, namespaceName⟩
      | none => client.locate? library programs name rest

/-- Where a container is, or why it is not known. -/
def find (library : Json.Library) (programs : Programs) (client : Client) (namespaces : List Bytes)
    (name : Bytes) : Act (Except ContainerError Located) := do
  match ← client.locate? library programs name namespaces with
  | some located => return .ok located
  | none => return .error (.unmatched name namespaces)

/-- The client bound to a container that was found. -/
def bind (client : Client) (located : Located) : Client :=
  ⟨{ client.config with identifier := located.identifier, namespaceName := located.namespaceName },
    .bound⟩

/-- Look for a container `left` times more, of `total` times in all. -/
def findAgain (library : Json.Library) (programs : Programs) (client : Client)
    (namespaces : List Bytes) (name : Bytes) (total : Nat) : Nat → Act (Except ContainerError Client)
  | 0 => return .error .notFound
  | left + 1 => do
      match ← client.find library programs namespaces name with
      | .ok located =>
          Log.info (ascii "[container] Found container " ++ located.identifier ++
            ascii " in namespace " ++ located.namespaceName)
          return .ok (client.bind located)
      | .error cause =>
          Log.warn (ascii "[container] Failed to find container try again (" ++
            ofNat (total - left) ++ ascii "/" ++ ofNat total ++ ascii "): " ++ cause.message)
          client.findAgain library programs namespaces name total left

end Client

/-- The full name of a container of the group that the host belongs to. -/
def discoveryName (host : Host) (name : Bytes) : Except ContainerError Bytes :=
  let pod := host.getVariable (ascii "POD_NAME")
  let podNamespace := host.getVariable (ascii "POD_NAMESPACE")
  if pod.isEmpty || podNamespace.isEmpty then .error .podUnknown
  else .ok (ascii "k8s://" ++ podNamespace ++ slash :: pod ++ slash :: name)

/-- How often a container is looked for: at least once. -/
def Config.attempts (config : Config) : Nat :=
  (max 1 config.discoveryAttempts).toNat

/-- Bind to the container of a name in the group that the host belongs to.  Which
container the configuration names does not matter. -/
def load (library : Json.Library) (programs : Programs) (config : Config)
    (namespaces : List Bytes) (name : Bytes) : Act (Except ContainerError Client) := do
  match discoveryName (← get) name with
  | .error cause => return .error cause
  | .ok fullName =>
      if namespaces.isEmpty then return .error .namespacesMissing
      (Client.new { config with identifier := [] }).findAgain library programs namespaces
        fullName config.attempts config.attempts

end Assay.Container
