/-
# Assay.Settings.Basic -- the settings, their kinds and where they are written

Every setting has a kind of value and a place in the configuration file, and most
can be overridden by variables.  `Settings` give each setting a value of its kind,
so that one setting is never taken for another.
-/
import Assay.Environment

namespace Assay

set_option autoImplicit false

open Bytes

/-- What separates the items of a list in a variable. -/
inductive Separator where
  | comma
  | blanks
  deriving DecidableEq, Repr

/-- The kinds of values. -/
inductive Kind where
  | text
  | number
  | flag
  | texts (separator : Separator)
  | table
  deriving DecidableEq, Repr

/-- The values of a kind. -/
@[reducible]
def Kind.Value : Kind → Type
  | .text => Bytes
  | .number => Int
  | .flag => Bool
  | .texts _ => List Bytes
  | .table => Environment

/-- What can be set. -/
inductive Setting where
  | executorTimeout
  | executorDirectory
  | executorEnvironment
  | containerExecutable
  | containerImage
  | containerDirectory
  | containerNamespaces
  | containerName
  | containerForwarded
  | containerEnvironment
  | containerRunArguments
  | containerLifetime
  | containerTimeout
  | containerStartTimeout
  | containerStopTimeout
  | discoveryAttempts
  | discoveryPause
  | workDirectory
  | descriptorPath
  | codeSpace
  | evaluationTimeout
  | testsStatus
  | datasetPath
  | sharePath
  | evaluatorSource
  | evaluatorCommand
  | rewardTimeout
  | serverCommand
  | inspectorCommand
  | inspectorPort
  | stopGrace
  | logLevel
  | logEcho
  deriving DecidableEq, Repr

namespace Setting

/-- All settings, section by section. -/
def all : List Setting :=
  [executorTimeout, executorDirectory, executorEnvironment, containerExecutable, containerImage,
    containerDirectory, containerNamespaces, containerName, containerForwarded,
    containerEnvironment, containerRunArguments, containerLifetime, containerTimeout,
    containerStartTimeout, containerStopTimeout, discoveryAttempts, discoveryPause, workDirectory,
    descriptorPath, codeSpace, evaluationTimeout, testsStatus, datasetPath, sharePath,
    evaluatorSource, evaluatorCommand, rewardTimeout, serverCommand, inspectorCommand,
    inspectorPort, stopGrace, logLevel, logEcho]

@[reducible]
def kind : Setting → Kind
  | executorTimeout => .number
  | executorDirectory => .text
  | executorEnvironment => .table
  | containerExecutable => .text
  | containerImage => .text
  | containerDirectory => .text
  | containerNamespaces => .texts .comma
  | containerName => .text
  | containerForwarded => .texts .comma
  | containerEnvironment => .table
  | containerRunArguments => .texts .blanks
  | containerLifetime => .text
  | containerTimeout => .number
  | containerStartTimeout => .number
  | containerStopTimeout => .number
  | discoveryAttempts => .number
  | discoveryPause => .number
  | workDirectory => .text
  | descriptorPath => .text
  | codeSpace => .text
  | evaluationTimeout => .number
  | testsStatus => .flag
  | datasetPath => .text
  | sharePath => .text
  | evaluatorSource => .text
  | evaluatorCommand => .text
  | rewardTimeout => .number
  | serverCommand => .texts .blanks
  | inspectorCommand => .texts .blanks
  | inspectorPort => .number
  | stopGrace => .number
  | logLevel => .text
  | logEcho => .flag

/-- The section of the configuration file and the key in it. -/
def place : Setting → String × String
  | executorTimeout => ("executor", "timeoutS")
  | executorDirectory => ("executor", "workingDir")
  | executorEnvironment => ("executor", "env")
  | containerExecutable => ("container", "executable")
  | containerImage => ("container", "image")
  | containerDirectory => ("container", "cwd")
  | containerNamespaces => ("container", "namespaces")
  | containerName => ("container", "containerName")
  | containerForwarded => ("container", "forwardEnv")
  | containerEnvironment => ("container", "env")
  | containerRunArguments => ("container", "runArgs")
  | containerLifetime => ("container", "containerTimeout")
  | containerTimeout => ("container", "timeoutS")
  | containerStartTimeout => ("container", "pullTimeoutS")
  | containerStopTimeout => ("container", "stopTimeoutS")
  | discoveryAttempts => ("container", "discoveryAttempts")
  | discoveryPause => ("container", "discoveryBackoffMs")
  | workDirectory => ("evaluation", "workDir")
  | descriptorPath => ("evaluation", "detailsPath")
  | codeSpace => ("evaluation", "codeSpace")
  | evaluationTimeout => ("evaluation", "timeoutS")
  | testsStatus => ("evaluation", "includeTestsStatus")
  | datasetPath => ("reward", "datasetPath")
  | sharePath => ("reward", "sharePath")
  | evaluatorSource => ("reward", "evaluatorSource")
  | evaluatorCommand => ("reward", "evaluatorCommand")
  | rewardTimeout => ("reward", "timeoutS")
  | serverCommand => ("devtools", "serverCommand")
  | inspectorCommand => ("devtools", "inspectorCommand")
  | inspectorPort => ("devtools", "inspectorPort")
  | stopGrace => ("devtools", "stopGraceS")
  | logLevel => ("logging", "level")
  | logEcho => ("logging", "stdout")

/-- The value that it has when nothing sets it. -/
def initial : (setting : Setting) → setting.kind.Value
  | executorTimeout => (3600 : Int)
  | executorDirectory => ([] : Bytes)
  | executorEnvironment => KeyMap.ofList [(ascii "CUSTOM_VAR", ascii "value")]
  | containerExecutable => ascii "nerdctl"
  | containerImage => ([] : Bytes)
  | containerDirectory => ascii "/"
  | containerNamespaces => [ascii "k8s.io", ascii "default"]
  | containerName => ascii "second"
  | containerForwarded => ([] : List Bytes)
  | containerEnvironment => (∅ : Environment)
  | containerRunArguments => [ascii "--rm"]
  | containerLifetime => ascii "2h"
  | containerTimeout => (30 : Int)
  | containerStartTimeout => (120 : Int)
  | containerStopTimeout => (60 : Int)
  | discoveryAttempts => (5 : Int)
  | discoveryPause => (1000 : Int)
  | workDirectory => ([] : Bytes)
  | descriptorPath => ascii "/shared/details.json"
  | codeSpace => ascii "/testbed"
  | evaluationTimeout => (3600 : Int)
  | testsStatus => true
  | datasetPath => ascii "/app/data/swe-verify-details.json"
  | sharePath => ascii "/shared"
  | evaluatorSource => ascii "/app/src/eval"
  | evaluatorCommand => ascii "/shared/eval/evalbox evaluate --details /shared/details.json"
  | rewardTimeout => (30 : Int)
  | serverCommand => [ascii "python", ascii "-m", ascii "aenv.main"]
  | inspectorCommand => [ascii "npx", ascii "@modelcontextprotocol/inspector", ascii "--port"]
  | inspectorPort => (6274 : Int)
  | stopGrace => (5 : Int)
  | logLevel => ascii "INFO"
  | logEcho => false

end Setting

/-! ## Overriding -/

/-- Variables that override a setting.  The first of them that is not empty counts. -/
structure Override where
  setting : Setting
  names : List String
  deriving DecidableEq, Repr

/-- The overrides, in the order in which they are made. -/
def overrides : List Override :=
  [⟨.executorTimeout, ["EVALBOX_EXECUTOR__TIMEOUT_S", "EVALBOX_EXECUTOR_TIMEOUT_S"]⟩,
    -- the name of old gives way to the two that follow it
    ⟨.containerExecutable, ["MSWEA_DOCKER_EXECUTABLE"]⟩,
    ⟨.containerExecutable, ["EVALBOX_CONTAINER__EXECUTABLE", "EVALBOX_CONTAINER_EXECUTABLE"]⟩,
    ⟨.containerImage, ["EVALBOX_CONTAINER__IMAGE", "EVALBOX_CONTAINER_IMAGE"]⟩,
    ⟨.containerNamespaces, ["EVALBOX_CONTAINER__NAMESPACES", "EVALBOX_CONTAINER_NAMESPACES"]⟩,
    ⟨.containerName, ["EVALBOX_CONTAINER__NAME", "EVALBOX_CONTAINER_NAME"]⟩,
    ⟨.containerForwarded, ["EVALBOX_CONTAINER__FORWARD_ENV", "EVALBOX_CONTAINER_FORWARD_ENV"]⟩,
    ⟨.containerTimeout, ["EVALBOX_CONTAINER__TIMEOUT_S", "EVALBOX_CONTAINER_TIMEOUT_S"]⟩,
    ⟨.discoveryAttempts,
      ["EVALBOX_CONTAINER__DISCOVERY_ATTEMPTS", "EVALBOX_CONTAINER_DISCOVERY_ATTEMPTS"]⟩,
    ⟨.discoveryPause,
      ["EVALBOX_CONTAINER__DISCOVERY_BACKOFF_MS", "EVALBOX_CONTAINER_DISCOVERY_BACKOFF_MS"]⟩,
    ⟨.workDirectory, ["EVALBOX_EVALUATION__WORK_DIR", "EVALBOX_EVALUATION_WORK_DIR"]⟩,
    ⟨.descriptorPath, ["EVALBOX_EVALUATION__DETAILS_PATH", "EVALBOX_EVALUATION_DETAILS_PATH"]⟩,
    ⟨.evaluationTimeout, ["EVALBOX_EVALUATION__TIMEOUT_S", "EVALBOX_EVALUATION_TIMEOUT_S"]⟩,
    ⟨.sharePath, ["WORK_SHARE"]⟩,
    ⟨.datasetPath, ["EVALBOX_REWARD__DATASET_PATH", "EVALBOX_REWARD_DATASET_PATH"]⟩,
    ⟨.evaluatorCommand,
      ["EVALBOX_REWARD__EVALUATOR_COMMAND", "EVALBOX_REWARD_EVALUATOR_COMMAND"]⟩,
    ⟨.serverCommand, ["EVALBOX_DEVTOOLS__SERVER_COMMAND", "EVALBOX_DEVTOOLS_SERVER_COMMAND"]⟩,
    ⟨.inspectorPort, ["EVALBOX_DEVTOOLS__INSPECTOR_PORT", "EVALBOX_DEVTOOLS_INSPECTOR_PORT"]⟩,
    ⟨.logLevel, ["EVALBOX_LOGGING__LEVEL", "EVALBOX_LOG_LEVEL"]⟩,
    ⟨.logEcho, ["EVALBOX_LOGGING__STDOUT", "EVALBOX_LOG_STDOUT"]⟩]

/-! ## Settings -/

/-- A value for every setting. -/
abbrev Settings := (setting : Setting) → setting.kind.Value

namespace Settings

/-- The settings when nothing is set. -/
def initial : Settings :=
  Setting.initial

/-- The settings with one of them changed. -/
def put (settings : Settings) (setting : Setting) (value : setting.kind.Value) : Settings :=
  fun asked => if same : setting = asked then same ▸ value else settings asked

/-- The settings with one of them changed, if there is a value for it. -/
def offer (settings : Settings) (setting : Setting) : Option setting.kind.Value → Settings
  | some value => settings.put setting value
  | none => settings

end Settings

end Assay
