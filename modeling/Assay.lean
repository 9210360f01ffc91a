import Assay.Bytes.Basic
import Assay.Bytes.Decimal
import Assay.Bytes.Lines
import Assay.Bytes.Search
import Assay.Bytes.Utf8
import Assay.Cli.Commands
import Assay.Cli.Options
import Assay.Container.Client
import Assay.Container.Config
import Assay.Container.Discovery
import Assay.Container.Holdings
import Assay.Environment
import Assay.Evaluation.Grading
import Assay.Evaluation.Job
import Assay.Evaluation.Reward
import Assay.Evaluation.Runner
import Assay.Evaluation.Trial
import Assay.Evaluation.Verdict
import Assay.Exec.Executor
import Assay.Exec.Outcome
import Assay.Exec.Readers
import Assay.Exec.Result
import Assay.Exec.Script
import Assay.Files.Change
import Assay.Files.Path
import Assay.Files.Tree
import Assay.Host
import Assay.Json.Basic
import Assay.Json.Library
import Assay.Json.Number
import Assay.Json.Plain
import Assay.Json.Printer
import Assay.Json.Reader
import Assay.KeyMap
import Assay.Log.Level
import Assay.Log.Stamp
import Assay.Main
import Assay.Outer.Machine.Arithmetic
import Assay.Outer.Machine.Builtin
import Assay.Outer.Machine.Command
import Assay.Outer.Machine.Condition
import Assay.Outer.Machine.Field
import Assay.Outer.Machine.Format
import Assay.Outer.Machine.Host
import Assay.Outer.Machine.Interpreter
import Assay.Outer.Machine.Pattern
import Assay.Outer.Machine.Process
import Assay.Outer.Machine.Token
import Assay.Outer.Machine.Word
import Assay.Programs
import Assay.Proofs.Acts
import Assay.Proofs.Blocks
import Assay.Proofs.Buckets
import Assay.Proofs.Closing
import Assay.Proofs.Commands
import Assay.Proofs.Configurations
import Assay.Proofs.Course
import Assay.Proofs.Descriptors
import Assay.Proofs.Discovery
import Assay.Proofs.Dispatching
import Assay.Proofs.Environments
import Assay.Proofs.Execution
import Assay.Proofs.Fields
import Assay.Proofs.Files
import Assay.Proofs.Framing
import Assay.Proofs.Freshness
import Assay.Proofs.Handles
import Assay.Proofs.Interrupts
import Assay.Proofs.Jobs
import Assay.Proofs.Launches
import Assay.Proofs.Layers
import Assay.Proofs.Leading
import Assay.Proofs.Lexemes
import Assay.Proofs.Lifecycle
import Assay.Proofs.Likeness
import Assay.Proofs.Lines
import Assay.Proofs.Literals
import Assay.Proofs.Lookups
import Assay.Proofs.Mending
import Assay.Proofs.Moving
import Assay.Proofs.Nesting
import Assay.Proofs.Ownership
import Assay.Proofs.Phrases
import Assay.Proofs.Places
import Assay.Proofs.Printing
import Assay.Proofs.Quotation
import Assay.Proofs.Readings
import Assay.Proofs.Records
import Assay.Proofs.Registry
import Assay.Proofs.Replacing
import Assay.Proofs.Replies
import Assay.Proofs.Reports
import Assay.Proofs.Requests
import Assay.Proofs.Resolution
import Assay.Proofs.Returns
import Assay.Proofs.Rounds
import Assay.Proofs.Scope
import Assay.Proofs.Scripts
import Assay.Proofs.Seams
import Assay.Proofs.Search
import Assay.Proofs.Sessions
import Assay.Proofs.Sinks
import Assay.Proofs.Stages
import Assay.Proofs.Staging
import Assay.Proofs.Steps
import Assay.Proofs.Stopping
import Assay.Proofs.Streaming
import Assay.Proofs.Tending
import Assay.Proofs.Trailing
import Assay.Proofs.TwoRuns
import Assay.Proofs.Unfinished
import Assay.Proofs.Variables
import Assay.Proofs.Venues
import Assay.Proofs.Verdicts
import Assay.Proofs.Words
import Assay.Settings.Basic
import Assay.Settings.Layers
import Assay.Shell.Dispatch
import Assay.Shell.Words
import Assay.Supervise.Child
import Assay.Supervise.Cooperative
import Assay.Supervise.Plan
import Assay.Supervise.Process
import Assay.Supervise.Supervisor
import Assay.Supervise.Tools
import Assay.Test.Log
import Assay.Test.Status
