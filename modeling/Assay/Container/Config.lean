/-
# Assay.Container.Config -- how a container is run and addressed

The command lines for the container runtime are made here, as words; only the
command that releases a container is a line for the shell, so its words are quoted.
-/
import Assay.Host
import Assay.Environment
import Assay.Json.Basic
import Assay.Settings.Basic
import Assay.Shell.Words

namespace Assay.Container

set_option autoImplicit false

open Bytes Shell

/-- How a container is run and addressed. -/
structure Config where
  image : Bytes := []
  /-- The directory in the container in which commands run. -/
  directory : Bytes := ascii "/"
  /-- Variables for commands; they win over forwarded ones. -/
  environment : Environment := ∅
  /-- The names of variables whose values are taken from the host, where they are set. -/
  forwarded : List Bytes := []
  /-- How long a command may take, in seconds. -/
  timeout : Int := 30
  /-- The program that manages containers. -/
  executable : Bytes := ascii "nerdctl"
  /-- Further words for starting a container. -/
  runArguments : List Bytes := [ascii "--rm"]
  /-- How long a container that nobody releases lives on. -/
  lifetime : Bytes := ascii "2h"
  /-- How long starting a container may take, in seconds. -/
  startTimeout : Int := 120
  /-- How long stopping a container may take, in seconds. -/
  stopTimeout : Int := 60
  /-- How often a container is looked for. -/
  discoveryAttempts : Int := 5
  /-- The pause between two attempts, in milliseconds. -/
  discoveryPause : Int := 1000
  /-- The namespace of the runtime; empty for its own choice. -/
  namespaceName : Bytes := []
  /-- The container; empty for none. -/
  identifier : Bytes := []

namespace Config

/-- The configuration that the settings give. -/
def ofSettings (settings : Settings) : Config where
  image := settings .containerImage
  directory := settings .containerDirectory
  environment := settings .containerEnvironment
  forwarded := settings .containerForwarded
  timeout := settings .containerTimeout
  executable := settings .containerExecutable
  runArguments := settings .containerRunArguments
  lifetime := settings .containerLifetime
  startTimeout := settings .containerStartTimeout
  stopTimeout := settings .containerStopTimeout
  discoveryAttempts := settings .discoveryAttempts
  discoveryPause := settings .discoveryPause

/-- The words that begin each invocation of the runtime. -/
def runtimeWords (config : Config) : List Bytes :=
  config.executable ::
    if config.namespaceName.isEmpty then [] else [ascii "-n", config.namespaceName]

/-- The words that start a container under a name. -/
def startWords (config : Config) (name : Bytes) : List Bytes :=
  config.runtimeWords ++
    [ascii "run", ascii "-d", ascii "--name", name, ascii "-w", config.directory] ++
    config.runArguments ++ [config.image, ascii "sleep", config.lifetime]

/-- The words that give a command one variable. -/
def variableWords (entry : Bytes × Bytes) : List Bytes :=
  [ascii "-e", entry.1 ++ equals :: entry.2]

/-- The variables that a host hands on, where it has them. -/
def forwardedEntries (config : Config) (host : Host) : List (Bytes × Bytes) :=
  config.forwarded.filterMap fun name => (host.getVariable? name).map fun value => (name, value)

/-- The words that run a command in the container. -/
def commandWords (config : Config) (host : Host) (command directory : Bytes) : List Bytes :=
  config.runtimeWords ++ [ascii "exec", ascii "-w", directory] ++
    (config.forwardedEntries host ++ config.environment.toList).flatMap variableWords ++
    [config.identifier, ascii "bash", ascii "-lc", command]

/-- The words that list the containers of a namespace. -/
def listingWords (config : Config) (namespaceName : Bytes) : List Bytes :=
  [config.executable, ascii "-n", namespaceName, ascii "ps", ascii "--format", ascii "json"]

/-- The line that releases the container in the background: it is stopped, or
removed where stopping fails. -/
def releaseLine (config : Config) : Bytes :=
  let runtime := quoteWords config.runtimeWords
  let container := quoteWord config.identifier
  ascii "(timeout " ++ ofInt config.stopTimeout ++ [space] ++ runtime ++ ascii " stop " ++ container ++
    ascii " || " ++ runtime ++ ascii " rm -f " ++ container ++ ascii ") >/dev/null 2>&1 &"

end Config

end Assay.Container
